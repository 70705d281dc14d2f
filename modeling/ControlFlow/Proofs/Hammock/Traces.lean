import Mathlib
import ControlFlow.Graph.Basic

/-! What is read on the ways through a graph whose nodes stand for languages: a way reads a word of
each node it passes. If some nodes that are entered at a head and left from an exit are collapsed
into one, and that one stands for what is read on the ways from the head to the exit, then as much
is read on the ways to every node as before, and on the ways to the new one as on those to the
exit. -/
namespace ControlFlow

/-- A word is read on a way from a start to a node. -/
inductive Traced (step : NodeId → NodeId → Prop) (words : NodeId → Language String)
    (start : NodeId) : NodeId → List String → Prop where
  | start (read : w ∈ words start) : Traced step words start start w
  | step (traced : Traced step words start a u) (edge : step a b) (read : v ∈ words b) :
    Traced step words start b (u ++ v)

/-- All words that are read on the ways from a start to a node. -/
def traces (step : NodeId → NodeId → Prop) (words : NodeId → Language String)
    (start id : NodeId) : Language String := {w | Traced step words start id w}

section

variable {step : NodeId → NodeId → Prop} {words : NodeId → Language String} {start a b : NodeId}

theorem words_le_traces : words start ≤ traces step words start start :=
  fun _ read => .start read

theorem traces_mul_le (edge : step a b) :
    traces step words start a * words b ≤ traces step words start b := by
  rintro w ⟨u, traced, v, read, rfl⟩
  exact Traced.step traced edge read

/-- The languages of traces are the least ones that the words of the start and the steps allow. -/
theorem traces_le {bound : NodeId → Language String} (first : words start ≤ bound start)
    (next : ∀ a b, step a b → bound a * words b ≤ bound b) (id : NodeId) :
    traces step words start id ≤ bound id := by
  intro w traced
  induction traced with
  | start read => exact first read
  | step _ edge read ih => exact next _ _ edge (Language.append_mem_mul ih read)

end

/-- Steps among some nodes and the steps left when those inside are collapsed into one. -/
structure Collapse (step step' inner : NodeId → NodeId → Prop) (live inside : NodeId → Prop)
    (head exit merged : NodeId) : Prop where
  headInside : inside head
  exitInside : inside exit
  liveEnds : ∀ {a b}, step a b → live a ∧ live b
  fresh : ¬live merged
  inner_inside : ∀ {a b}, inner a b → step a b ∧ inside b
  entering : ∀ {a b}, step a b → ¬inside a → inside b → b = head
  leaving : ∀ {a b}, step a b → inside a → ¬inside b → a = exit
  /-- A step inside is an inner one or leads from the exit back to the head. -/
  within : ∀ {a b}, step a b → inside a → inside b → inner a b ∨ a = exit ∧ b = head
  step'_iff : ∀ {a b}, step' a b ↔
    (step a b ∧ ¬inside a ∧ ¬inside b) ∨ (b = merged ∧ ¬inside a ∧ step a head) ∨
      (a = merged ∧ ¬inside b ∧ step exit b) ∨ (a = merged ∧ b = merged ∧ step exit head)

namespace Collapse

variable {step step' inner : NodeId → NodeId → Prop} {live inside : NodeId → Prop}
variable {head exit merged start id : NodeId} {words words' : NodeId → Language String}
variable (collapse : Collapse step step' inner live inside head exit merged)
include collapse

/-- What is read inside goes on from what was read on the way to the head. -/
private theorem traced_inside {u v : List String}
    (arrived : ∀ x ∈ words head, Traced step words start head (u ++ x))
    (traced : Traced inner words head id v) : Traced step words start id (u ++ v) := by
  induction traced with
  | start read => exact arrived _ read
  | step _ edge read ih =>
    rw [← List.append_assoc]
    exact ih.step (collapse.inner_inside edge).1 read

private theorem ne_merged {n : NodeId} (known : live n) : n ≠ merged :=
  fun same => collapse.fresh (same ▸ known)

variable (outside : ∀ n, live n → ¬inside n → words' n = words n)
variable (whole : words' merged = traces inner words head exit)
variable (started : live start) (startInside : inside start → start = head)
include outside whole started startInside

/-- What is read on a way with the new node is read on one without it. -/
private theorem traced_expand {w : List String}
    (traced : Traced step' words' (if start = head then merged else start) id w) :
    Traced step words start (if id = merged then exit else id) w := by
  have entered {u v : List String} (arrived : ∀ x ∈ words head, Traced step words start head (u ++ x))
      (read : v ∈ words' merged) : Traced step words start exit (u ++ v) := by
    rw [whole] at read
    exact collapse.traced_inside arrived read
  induction traced with
  | start read =>
    by_cases same : start = head
    · rw [if_pos same] at read ⊢
      rw [if_pos rfl]
      exact entered (u := []) (fun x word => same ▸ .start (same ▸ word)) read
    · rw [if_neg same] at read ⊢
      rw [if_neg (collapse.ne_merged started)]
      exact .start (outside start started (fun within => same (startInside within)) ▸ read)
  | @step a u b v _ edge read ih =>
    rcases collapse.step'_iff.mp edge with
      ⟨edge, -, out⟩ | ⟨rfl, -, edge⟩ | ⟨rfl, out, edge⟩ | ⟨rfl, rfl, back⟩
    · obtain ⟨liveA, liveB⟩ := collapse.liveEnds edge
      rw [if_neg (collapse.ne_merged liveA)] at ih
      rw [if_neg (collapse.ne_merged liveB)]
      exact ih.step edge (outside b liveB out ▸ read)
    · rw [if_neg (collapse.ne_merged (collapse.liveEnds edge).1)] at ih
      rw [if_pos rfl]
      exact entered (fun x word => ih.step edge word) read
    · rw [if_pos rfl] at ih
      have liveB := (collapse.liveEnds edge).2
      rw [if_neg (collapse.ne_merged liveB)]
      exact ih.step edge (outside b liveB out ▸ read)
    · rw [if_pos rfl] at ih ⊢
      exact entered (fun x word => ih.step back word) read

/-- What is read on a way to a node outside is read on one with the new node. On the way to a node
inside, first something is read with which the new node is reached, and then something from the
head on. -/
private theorem traced_contract {w : List String} (traced : Traced step words start id w) :
    (¬inside id → Traced step' words' (if start = head then merged else start) id w) ∧
      (inside id → ∃ u v, w = u ++ v ∧ Traced inner words head id v ∧ ∀ x ∈ words' merged,
        Traced step' words' (if start = head then merged else start) merged (u ++ x)) := by
  have passed {u v : List String} (arrived : ∀ x ∈ words' merged,
        Traced step' words' (if start = head then merged else start) merged (u ++ x))
      (rest : Traced inner words head exit v) :
      Traced step' words' (if start = head then merged else start) merged (u ++ v) :=
    arrived v (whole ▸ rest)
  induction traced with
  | @start w read =>
    constructor
    · intro out
      have other : start ≠ head := fun same => out (same ▸ collapse.headInside)
      rw [if_neg other]
      exact .start (outside start started out ▸ read)
    · intro within
      obtain rfl := startInside within
      refine ⟨[], w, rfl, .start read, fun x word => ?_⟩
      rw [if_pos rfl]
      exact .start word
  | @step a u b v _ edge read ih =>
    have liveB := (collapse.liveEnds edge).2
    by_cases insideA : inside a <;> by_cases insideB : inside b
    · obtain ⟨before, after, rfl, traced, arrived⟩ := ih.2 insideA
      refine ⟨fun out => absurd insideB out, fun _ => ?_⟩
      rcases collapse.within edge insideA insideB with inner | ⟨rfl, rfl⟩
      · exact ⟨before, after ++ v, by rw [List.append_assoc], traced.step inner read, arrived⟩
      · -- The way begins anew at the head.
        refine ⟨before ++ after, v, rfl, .start read, fun x word => ?_⟩
        exact (passed arrived traced).step
          (collapse.step'_iff.mpr (.inr (.inr (.inr ⟨rfl, rfl, edge⟩)))) word
    · obtain ⟨before, after, rfl, traced, arrived⟩ := ih.2 insideA
      refine ⟨fun _ => ?_, fun within => absurd within insideB⟩
      obtain rfl := collapse.leaving edge insideA insideB
      exact (passed arrived traced).step
        (collapse.step'_iff.mpr (.inr (.inr (.inl ⟨rfl, insideB, edge⟩))))
        (outside b liveB insideB ▸ read)
    · refine ⟨fun out => absurd insideB out, fun _ => ?_⟩
      obtain rfl := collapse.entering edge insideA insideB
      refine ⟨u, v, rfl, .start read, fun x word => ?_⟩
      exact (ih.1 insideA).step (collapse.step'_iff.mpr (.inr (.inl ⟨rfl, insideA, edge⟩))) word
    · refine ⟨fun _ => ?_, fun within => absurd within insideB⟩
      exact (ih.1 insideA).step (collapse.step'_iff.mpr (.inl ⟨edge, insideA, insideB⟩))
        (outside b liveB insideB ▸ read)

/-- Collapsing changes nothing of what is read on the ways to the nodes outside, and on the ways to
the new node as much is read as before on those to the exit. -/
theorem traces_eq (left : id = merged ∨ ¬inside id) :
    traces step' words' (if start = head then merged else start) id =
      traces step words start (if id = merged then exit else id) := by
  ext w
  refine ⟨collapse.traced_expand outside whole started startInside, fun traced => ?_⟩
  by_cases same : id = merged
  · subst same
    rw [if_pos rfl] at traced
    obtain ⟨u, v, rfl, rest, arrived⟩ :=
      (collapse.traced_contract outside whole started startInside traced).2 collapse.exitInside
    exact arrived v (whole ▸ rest)
  · rw [if_neg same] at traced
    exact (collapse.traced_contract outside whole started startInside traced).1
      (left.resolve_left same)

end Collapse

end ControlFlow
