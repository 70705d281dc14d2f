import ControlFlow.Graph.Blocks
import ControlFlow.Proofs.AttrMap
import ControlFlow.Proofs.Except

/-! What a terminator says. It names the blocks where control can go, a switch as often as cases lead
there; the edges that leave its block are one for each of them, and the condition of an edge collects
all that the terminator says of its target. -/
namespace ControlFlow

namespace Terminator

variable {value target other otherwise : String} {cases : List (String × String)}
  {table : List (String × String)} {terminator : Terminator}

/-- The blocks that a terminator names. -/
def successors : Terminator → List String
  | .return | .unreachable | .unsupported _ => []
  | .jump target => [target]
  | .branch ifTrue ifFalse => [ifTrue, ifFalse]
  | .switch cases otherwise => cases.map Prod.snd ++ [otherwise]

/-- Whether it is known where control can go. -/
def isSupported : Terminator → Bool
  | .unsupported _ => false
  | _ => true

/-- The values of the cases that lead to a block, as the switch lists them. -/
def valuesFor (cases : List (String × String)) (target : String) : List String :=
  (cases.filter (·.2 == target)).map Prod.fst

/-- The condition under which control goes to one of the blocks that a terminator names. -/
def condTo : Terminator → String → Option String
  | .return, _ | .unreachable, _ | .unsupported _, _ | .jump _, _ => none
  | .branch ifTrue ifFalse, target =>
    if ifTrue = ifFalse then none
    else if target = ifTrue then some "true"
    else some "false"
  | .switch cases otherwise, target =>
    if target = otherwise then some "default"
    else some (", ".intercalate (valuesFor cases target))

/-! ## Grouping cases -/

theorem valuesFor_append (more : List (String × String)) (target : String) :
    valuesFor (cases ++ more) target = valuesFor cases target ++ valuesFor more target := by
  rw [valuesFor, List.filter_append, List.map_append]
  rfl

theorem valuesFor_eq_nil_iff : valuesFor cases target = [] ↔ target ∉ cases.map Prod.snd := by
  simp only [valuesFor, List.map_eq_nil_iff, List.filter_eq_nil_iff, List.mem_map, beq_iff_eq]
  grind

/-- What leads elsewhere is left out of account. -/
theorem valuesFor_filter (different : target ≠ otherwise) :
    valuesFor (cases.filter fun (_, target) => target != otherwise) target =
      valuesFor cases target := by
  rw [valuesFor, valuesFor, List.filter_filter]
  congr 1
  refine List.filter_congr fun entry _ => ?_
  by_cases same : entry.2 = target
  · simp [same, different]
  · simp [same]

theorem valuesFor_filter_self :
    valuesFor (cases.filter fun (_, target) => target != otherwise) otherwise = [] := by
  simp [valuesFor]

theorem addArm_cons_self {values : String} :
    addArm value target ((target, values) :: table) = (target, values ++ ", " ++ value) :: table :=
  if_pos BEq.rfl

theorem addArm_cons_of_ne {values : String} (different : other ≠ target) :
    addArm value target ((other, values) :: table) = (other, values) :: addArm value target table :=
  if_neg (by simpa using different)

theorem lookup_addArm : (addArm value target table).lookup other =
    if other = target then
      some (((table.lookup target).map (· ++ ", " ++ value)).getD value)
    else table.lookup other := by
  have missed {s t : String} (different : s ≠ t) : (s == t) = false := by simpa using different
  induction table with
  | nil =>
    by_cases same : other = target
    · simp [addArm, same]
    · simp [addArm, List.lookup_cons, missed same, same]
  | cons arm table ih =>
    obtain ⟨t, values⟩ := arm
    by_cases here : t = target
    · subst here
      rw [addArm_cons_self]
      by_cases same : other = t
      · simp [same]
      · simp [List.lookup_cons, missed same, same]
    · rw [addArm_cons_of_ne here, List.lookup_cons, ih]
      by_cases same : other = t
      · simp [same, here]
      · simp [List.lookup_cons, missed same, missed (Ne.symm here)]

theorem mem_addArm_fst : other ∈ (addArm value target table).map Prod.fst ↔
    other = target ∨ other ∈ table.map Prod.fst := by
  induction table with
  | nil => simp [addArm]
  | cons arm table ih =>
    obtain ⟨t, values⟩ := arm
    by_cases here : t = target
    · subst here
      simp [addArm_cons_self]
    · rw [addArm_cons_of_ne here, List.map_cons, List.mem_cons, ih, List.map_cons, List.mem_cons,
        or_left_comm]

theorem addArm_fst_nodup (nodup : (table.map Prod.fst).Nodup) :
    ((addArm value target table).map Prod.fst).Nodup := by
  induction table with
  | nil => simp [addArm]
  | cons arm table ih =>
    obtain ⟨t, values⟩ := arm
    by_cases here : t = target
    · subst here
      rw [addArm_cons_self]
      exact nodup
    · obtain ⟨new, later⟩ := List.nodup_cons.mp nodup
      rw [addArm_cons_of_ne here]
      refine List.nodup_cons.mpr ⟨fun member => ?_, ih later⟩
      exact (mem_addArm_fst.mp member).elim here new

/-- An arm for each block that cases lead to. -/
structure Groups (cases table : List (String × String)) : Prop where
  nodup : (table.map Prod.fst).Nodup
  lookup_eq (target : String) : table.lookup target =
    if valuesFor cases target = [] then none
    else some (", ".intercalate (valuesFor cases target))

theorem groups_foldl (cases : List (String × String)) :
    Groups cases (cases.foldl (fun arms (value, target) => addArm value target arms) []) := by
  -- From the back, since the values of an arm grow there.
  induction cases using List.reverseRecOn with
  | nil => exact ⟨List.nodup_nil, fun _ => rfl⟩
  | append_singleton cases case ih =>
    obtain ⟨value, target⟩ := case
    rw [List.foldl_append]
    refine ⟨addArm_fst_nodup ih.nodup, fun other => ?_⟩
    refine lookup_addArm.trans ?_
    rw [valuesFor_append]
    by_cases same : other = target
    · subst same
      have last : valuesFor [(value, other)] other = [value] := by simp [valuesFor]
      rw [if_pos rfl, ih.lookup_eq, last]
      by_cases first : valuesFor cases other = []
      · simp [first]
      · rw [if_neg first, if_neg (by simp)]
        simp [String.intercalate_append_of_ne_nil, first]
    · have nothing : valuesFor [(value, target)] other = [] := by
        simpa [valuesFor] using Ne.symm same
      rw [if_neg same, ih.lookup_eq, nothing, List.append_nil]

theorem arms_fst_nodup : ((arms otherwise cases).map Prod.fst).Nodup :=
  (groups_foldl _).nodup

theorem mem_arms {values : String} : (target, values) ∈ arms otherwise cases ↔
    target ≠ otherwise ∧ target ∈ cases.map Prod.snd ∧
      values = ", ".intercalate (valuesFor cases target) := by
  rw [← AttrMap.lookup_eq_some_iff arms_fst_nodup, arms, (groups_foldl _).lookup_eq]
  by_cases same : target = otherwise
  · subst same
    simp [valuesFor_filter_self]
  · rw [valuesFor_filter same]
    by_cases led : target ∈ cases.map Prod.snd
    · simp [mt valuesFor_eq_nil_iff.mp (not_not.mpr led), same, led, eq_comm]
    · simp [valuesFor_eq_nil_iff.mpr led, led]

/-! ## Targets -/

/-- Each block that a terminator names is a target once. -/
structure Lists (terminator : Terminator) (targets : List (String × Option String)) : Prop where
  nodup : (targets.map Prod.fst).Nodup
  mem_iff (target : String) (cond : Option String) : (target, cond) ∈ targets ↔
    target ∈ terminator.successors ∧ cond = terminator.condTo target

/-- Only what is not supported has no targets. -/
theorem outcome_targets (terminator : Terminator) :
    Outcome (fun targets => terminator.Lists targets ∧ terminator.isSupported = true)
      (fun error => ∃ mnemonic, terminator = .unsupported mnemonic ∧
        error = .unsupportedTerminator mnemonic) terminator.targets := by
  match terminator with
  | .return | .unreachable => exact ⟨⟨by simp, by simp [successors]⟩, rfl⟩
  | .jump target => exact ⟨⟨by simp, by simp [successors, condTo]⟩, rfl⟩
  | .branch ifTrue ifFalse =>
    by_cases same : ifTrue = ifFalse
    · rw [targets, if_pos (by simpa using same)]
      exact ⟨⟨by simp, by simp [same, successors, condTo]⟩, rfl⟩
    · rw [targets, if_neg (by simpa using same)]
      refine ⟨⟨by simpa using same, fun target cond => ?_⟩, rfl⟩
      by_cases taken : target = ifTrue
      · simp [same, successors, condTo, taken]
      · simp [same, successors, condTo, taken]
  | .switch cases otherwise =>
    refine ⟨⟨?_, fun target cond => ?_⟩, rfl⟩
    · rw [List.map_append, List.map_map]
      refine List.Nodup.append arms_fst_nodup (List.nodup_singleton _) ?_
      simp only [List.map_cons, List.map_nil, List.disjoint_singleton, List.mem_map, not_exists]
      rintro ⟨target, values⟩ ⟨member, same⟩
      exact (mem_arms.mp member).1 same
    · by_cases same : target = otherwise
      · subst same
        simp [mem_arms, successors, condTo]
      · simp [mem_arms, successors, condTo, same]
        grind
  | .unsupported mnemonic => exact ⟨mnemonic, rfl, rfl⟩

end Terminator

end ControlFlow
