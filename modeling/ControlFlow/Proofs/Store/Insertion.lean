import ControlFlow.Proofs.Graph.Update
import ControlFlow.Store.Basic

/-! Putting an element where it belongs in a list. The place that halving finds is the one before the
first element that is not less, so tables and graphs put it at the same place; and what is put there is
there for whoever looks at a part of the list. -/
namespace ControlFlow

variable {α : Type}

open FlowGraph (insertBefore)

/-- Halving finds the end of what passes the test. -/
theorem partitionPoint_eq {test : α → Bool} {items : List α}
    (parted : items.Pairwise fun a b => test b = true → test a = true) :
    partitionPoint test items = (items.takeWhile test).length := by
  fun_induction partitionPoint test items with
  | case1 items split =>
    have short := List.drop_eq_nil_iff.mp split
    obtain rfl : items = [] := List.length_eq_zero_iff.mp (by omega)
    rfl
  | case2 items middle rest split passes ih =>
    have whole := List.take_append_drop (items.length / 2) items
    rw [split] at whole
    rw [← whole] at parted
    obtain ⟨-, right, across⟩ := List.pairwise_append.mp parted
    have front : ∀ a ∈ items.take (items.length / 2), test a = true := fun a member =>
      across a member middle List.mem_cons_self passes
    have first : (items.take (items.length / 2)).length = items.length / 2 :=
      List.length_take_of_le (Nat.div_le_self _ _)
    rw [ih (List.pairwise_cons.mp right).2, ← congrArg (List.takeWhile test) whole,
      List.takeWhile_append_of_pos front, List.takeWhile_cons_of_pos passes, List.length_append,
      first, List.length_cons]
    omega
  | case3 items middle rest split fails ih =>
    have whole := List.take_append_drop (items.length / 2) items
    rw [split] at whole
    rw [← whole] at parted
    have left := (List.pairwise_append.mp parted).1
    rw [ih left, ← congrArg (List.takeWhile test) whole, List.takeWhile_append,
      List.takeWhile_cons_of_neg fails, List.append_nil]
    split <;> simp_all

theorem insertIdx_takeWhile (less : α → Bool) (new : α) (items : List α) :
    items.insertIdx (items.takeWhile less).length new = insertBefore less new items := by
  induction items with
  | nil => rfl
  | cons a rest ih =>
    by_cases smaller : less a = true
    · rw [List.takeWhile_cons_of_pos smaller, List.length_cons, List.insertIdx_succ_cons, ih,
        insertBefore, if_pos smaller]
    · rw [List.takeWhile_cons_of_neg smaller, List.length_nil, List.insertIdx_zero, insertBefore,
        if_neg smaller]

/-- What is put at the place that halving finds stands before the first element not less. -/
theorem insertIdx_partitionPoint {less : α → Bool} {items : List α}
    (parted : items.Pairwise fun a b => less b = true → less a = true) (new : α) :
    items.insertIdx (partitionPoint less items) new = insertBefore less new items := by
  rw [partitionPoint_eq parted, insertIdx_takeWhile]

/-- In a strictly sorted list the elements less than another one stand in front. -/
theorem parted_of_sorted {compare : α → α → Ordering} [Std.TransCmp compare] {items : List α}
    (sorted : items.Pairwise fun a b => compare a b = .lt) (new : α) :
    items.Pairwise fun a b => (compare b new == .lt) = true → (compare a new == .lt) = true := by
  refine sorted.imp fun {a b} order less => ?_
  rw [beq_iff_eq] at less ⊢
  exact Std.TransCmp.lt_trans order less

theorem insertBefore_of_none {less : α → Bool} {items : List α}
    (none : ∀ a ∈ items, less a = false) (new : α) : insertBefore less new items = new :: items := by
  cases items with
  | nil => rfl
  | cons a rest => simp [insertBefore, none a List.mem_cons_self]

/-- Where the smaller elements stand in front, it does not matter whether others are left out before
or after a new one is put in. -/
theorem filter_insertBefore_of_kept {less keep : α → Bool} {new : α} {items : List α}
    (parted : items.Pairwise fun a b => less b = true → less a = true) (kept : keep new = true) :
    (insertBefore less new items).filter keep = insertBefore less new (items.filter keep) := by
  induction items with
  | nil => simp [insertBefore, kept]
  | cons a rest ih =>
    obtain ⟨front, parted⟩ := List.pairwise_cons.mp parted
    by_cases smaller : less a = true
    · rw [insertBefore, if_pos smaller, List.filter_cons, List.filter_cons, ih parted]
      split
      · rw [insertBefore, if_pos smaller]
      · rfl
    · have none : ∀ b ∈ (a :: rest).filter keep, less b = false := by
        intro b member
        rcases List.mem_cons.mp (List.mem_of_mem_filter member) with rfl | later
        · exact Bool.not_eq_true _ ▸ smaller
        · exact Bool.eq_false_iff.mpr fun less => smaller (front b later less)
      rw [insertBefore, if_neg smaller, List.filter_cons_of_pos kept, insertBefore_of_none none]

theorem find?_insertBefore_of_skipped {less test : α → Bool} {new : α}
    (skipped : test new = false) (items : List α) :
    (insertBefore less new items).find? test = items.find? test := by
  rw [← List.head?_filter, FlowGraph.filter_insertBefore skipped, List.head?_filter]

end ControlFlow
