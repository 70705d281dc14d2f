import ControlFlow.Proofs.Graph.Blocks

/-! What the edges of a block are taken for. The kind of an edge is not kept but read from its
condition, where a few words stand for other branches than a case. Values of several cases are joined
by a comma, which no such word has in it; the value of a single case is written as it is. -/
namespace ControlFlow

/-! ## Reserved words -/

namespace Branch

variable {value : String}

/-- The words that stand for other branches than a case. -/
def words : List String := ["true", "false", "default"]

theorem ofCond_eq_case_iff : ofCond (some value) = .case value ↔ value ∉ words := by
  simp only [words, List.mem_cons, List.not_mem_nil, or_false, not_or]
  constructor
  · intro read
    refine ⟨?_, ?_, ?_⟩ <;> (rintro rfl; cases read)
  · rintro ⟨noTest, noElse, noDefault⟩
    unfold ofCond
    split <;> simp_all

/-- No word has a comma in it. -/
theorem comma_not_mem {word : String} (listed : word ∈ words) : ',' ∉ word.toList := by
  simp only [words, List.mem_cons, List.not_mem_nil, or_false] at listed
  rcases listed with rfl | rfl | rfl <;> decide

end Branch

namespace Terminator

variable {terminator : Terminator} {target word : String} {values : List String}

/-- Values that are joined are a word only if there is but one. -/
theorem joined_mem_words_iff (some : values ≠ []) :
    ", ".intercalate values ∈ Branch.words ↔ ∃ word ∈ Branch.words, values = [word] := by
  constructor
  · intro listed
    match values with
    | [value] => exact ⟨value, by simpa using listed, rfl⟩
    | first :: second :: rest =>
      -- Two values already have a comma between them.
      refine absurd ?_ (Branch.comma_not_mem listed)
      simp [String.intercalate_cons_cons]
  · rintro ⟨word, listed, rfl⟩
    simpa using listed

/-- The branch by which control goes to one of the blocks that a terminator names. -/
def branchTo : Terminator → String → Branch
  | .return, _ | .unreachable, _ | .unsupported _, _ | .jump _, _ => .always
  | .branch ifTrue ifFalse, target =>
    if ifTrue = ifFalse then .always
    else if target = ifTrue then .whenTrue
    else .whenFalse
  | .switch cases otherwise, target =>
    if target = otherwise then .otherwise
    else .case (", ".intercalate (valuesFor cases target))

/-- The value of the only case that leads to a block is a word that stands for another branch. -/
def Misread (terminator : Terminator) (target word : String) : Prop :=
  word ∈ Branch.words ∧ ∃ cases otherwise, terminator = .switch cases otherwise ∧
    target ≠ otherwise ∧ valuesFor cases target = [word]

theorem Misread.condTo_eq (misread : terminator.Misread target word) :
    terminator.condTo target = some word := by
  obtain ⟨-, cases, otherwise, rfl, elsewhere, only⟩ := misread
  rw [condTo, if_neg elsewhere, only, String.intercalate_singleton]

/-- The condition on an edge tells the branch unless it is misread. -/
theorem ofCond_condTo_iff (named : target ∈ terminator.successors) :
    Branch.ofCond (terminator.condTo target) = terminator.branchTo target ↔
      ∀ word, ¬terminator.Misread target word := by
  match terminator with
  | .return | .unreachable | .unsupported _ => cases named
  | .jump _ => exact iff_of_true rfl fun word ⟨_, _, _, same, _⟩ => nomatch same
  | .branch ifTrue ifFalse =>
    refine iff_of_true ?_ fun word ⟨_, _, _, same, _⟩ => nomatch same
    simp only [condTo, branchTo]
    split_ifs <;> rfl
  | .switch cases otherwise =>
    by_cases leads : target = otherwise
    · rw [condTo, branchTo, if_pos leads, if_pos leads]
      refine iff_of_true rfl ?_
      rintro word ⟨-, cases, other, same, elsewhere, -⟩
      cases same
      exact elsewhere leads
    · have some : valuesFor cases target ≠ [] := by
        rw [ne_eq, valuesFor_eq_nil_iff, not_not]
        simpa [successors, leads] using named
      rw [condTo, branchTo, if_neg leads, if_neg leads, Branch.ofCond_eq_case_iff,
        joined_mem_words_iff some]
      constructor
      · rintro plain word ⟨listed, cases, other, same, -, only⟩
        cases same
        exact plain ⟨word, listed, only⟩
      · rintro read ⟨word, listed, only⟩
        exact read word ⟨listed, cases, otherwise, rfl, leads, only⟩

end Terminator

namespace FlowGraph

open BasicBlock

variable {g : FlowGraph} {name : String} {blocks : List BasicBlock} {e : Edge}

/-- Every edge of a graph that is made of blocks leaves a block for one that its terminator names.
The kind of the edge is the branch by which control goes there, but for a case that shares its target
with no other and has one of the words for other branches as its value: it is taken for that branch. -/
theorem ofBlocks_branch_iff (ran : ofBlocks name blocks = .ok g) (member : e ∈ g.edges) :
    ∃ block ∈ blocks, block.name = g.label e.source ∧
      g.label e.target ∈ block.terminator.successors ∧
      (e.branch = block.terminator.branchTo (g.label e.target) ↔
        ∀ word, ¬block.terminator.Misread (g.label e.target) word) ∧
      ∀ word, block.terminator.Misread (g.label e.target) word →
        e.branch = Branch.ofCond (some word) := by
  obtain ⟨block, listed, source, named, cond⟩ := (builtFrom_ofBlocks ran).exists_block member
  have kind : e.branch = Branch.ofCond (block.terminator.condTo (g.label e.target)) :=
    congrArg Branch.ofCond cond
  refine ⟨block, listed, source, named, ?_, fun word misread => ?_⟩
  · rw [kind]
    exact Terminator.ofCond_condTo_iff named
  · rw [kind, misread.condTo_eq]

theorem switching_branch : ∃ g, ofBlocks "f" switching = .ok g ∧ ∃ e ∈ g.edges,
    g.label e.source = "S" ∧ g.label e.target = "X" ∧ e.branch = .case "1, 4" := by
  obtain ⟨g, ran⟩ := exists_ofBlocks "f" (show Buildable switching by decide)
  have first (block : BasicBlock) (listed : block ∈ switching) (named : block.name = "S") :
      block.terminator = .switch [("1", "X"), ("2", "Y"), ("4", "X"), ("5", "D")] "D" := by
    revert block
    decide
  obtain ⟨e, member, source, led, -⟩ :=
    (builtFrom_ofBlocks ran).exists_edge List.mem_cons_self (show "X" ∈ _ by decide)
  obtain ⟨block, listed, named, -, read, -⟩ := ofBlocks_branch_iff ran member
  rw [first block listed (named.trans source), led] at read
  refine ⟨g, ran, e, member, source, led, read.mpr ?_⟩
  rintro word ⟨-, cases, otherwise, same, -, only⟩
  cases same
  cases congrArg List.length only

/-- A switch that tells "true" from everything else. -/
def telling : List BasicBlock :=
  [⟨"S", 1, .switch [("true", "A")] "B"⟩, ⟨"A", 1, .return⟩, ⟨"B", 1, .return⟩]

theorem telling_misread : ∃ g, ofBlocks "f" telling = .ok g ∧ ∃ e ∈ g.edges,
    g.label e.source = "S" ∧ g.label e.target = "A" ∧
      Terminator.branchTo (.switch [("true", "A")] "B") "A" = .case "true" ∧
      e.branch = .whenTrue := by
  obtain ⟨g, ran⟩ := exists_ofBlocks "f" (show Buildable telling by decide)
  have listed : ⟨"S", 1, .switch [("true", "A")] "B"⟩ ∈ telling := List.mem_cons_self
  obtain ⟨e, member, source, led, cond⟩ := (builtFrom_ofBlocks ran).exists_edge listed
    (show "A" ∈ _ by decide)
  exact ⟨g, ran, e, member, source, led, by decide, congrArg Branch.ofCond cond⟩

end FlowGraph

end ControlFlow
