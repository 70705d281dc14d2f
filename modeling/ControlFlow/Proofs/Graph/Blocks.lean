import ControlFlow.Proofs.Graph.Construction
import ControlFlow.Proofs.Graph.SingleMerge
import ControlFlow.Proofs.Graph.Terminators

/-! Graphs that are made of blocks. First there is a node for each block, then the blocks are joined
one after the other. What has been joined so far is always described by the blocks behind; they have
other names than the next one, and the next one has each target once, so that no edge is ever met
twice. All that can be wrong is what is wrong with the blocks themselves. -/
namespace ControlFlow

namespace BasicBlock

/-- What is written of an edge that is taken under a condition. -/
def edgeAttrs (cond : Option String) : AttrMap := .ofList (cond.map fun c => ("cond", c)).toList

@[simp] theorem get?_edgeAttrs (cond : Option String) : (edgeAttrs cond).get? "cond" = cond := by
  cases cond <;> rfl

@[simp] theorem edgeAttrs_inj {cond cond' : Option String} :
    edgeAttrs cond = edgeAttrs cond' ↔ cond = cond' :=
  ⟨fun same => by simpa using congrArg (·.get? "cond") same, congrArg edgeAttrs⟩

/-- What is written of an edge that leaves a block for one that its terminator names. -/
def Describes (block : BasicBlock) (text : String × String × AttrMap) : Prop :=
  ∃ target ∈ block.terminator.successors,
    text = (block.name, target, edgeAttrs (block.terminator.condTo target))

/-- A block that ends in a supported way and names no block but those that there are. -/
structure LeadsInto (block : BasicBlock) (blocks : List BasicBlock) : Prop where
  known : ∀ target ∈ block.terminator.successors, target ∈ blocks.map BasicBlock.name
  supported : block.terminator.isSupported = true

/-- Blocks with names of their own that lead to each other. -/
structure Buildable (blocks : List BasicBlock) : Prop where
  nonempty : blocks ≠ []
  namesNodup : (blocks.map BasicBlock.name).Nodup
  closed : ∀ block ∈ blocks, block.LeadsInto blocks

theorem leadsInto_iff {block : BasicBlock} {blocks : List BasicBlock} : block.LeadsInto blocks ↔
    (∀ target ∈ block.terminator.successors, target ∈ blocks.map BasicBlock.name) ∧
      block.terminator.isSupported = true :=
  ⟨fun ⟨known, supported⟩ => ⟨known, supported⟩, fun ⟨known, supported⟩ => ⟨known, supported⟩⟩

instance (block : BasicBlock) (blocks : List BasicBlock) : Decidable (block.LeadsInto blocks) :=
  decidable_of_iff _ leadsInto_iff.symm

theorem buildable_iff {blocks : List BasicBlock} : Buildable blocks ↔
    blocks ≠ [] ∧ (blocks.map BasicBlock.name).Nodup ∧ ∀ block ∈ blocks, block.LeadsInto blocks :=
  ⟨fun ⟨nonempty, nodup, closed⟩ => ⟨nonempty, nodup, closed⟩,
    fun ⟨nonempty, nodup, closed⟩ => ⟨nonempty, nodup, closed⟩⟩

instance (blocks : List BasicBlock) : Decidable (Buildable blocks) :=
  decidable_of_iff _ buildable_iff.symm

/-- What keeps blocks from making a graph. -/
inductive Fault (blocks : List BasicBlock) : BlockError → Prop where
  | noBlocks (none : blocks = []) : Fault blocks (.graph .noBlocks)
  | duplicateLabel {label : String} (twice : List.Duplicate label (blocks.map BasicBlock.name)) :
    Fault blocks (.graph (.duplicateLabel label))
  | unknownTarget {block : BasicBlock} {target : String} (listed : block ∈ blocks)
    (named : target ∈ block.terminator.successors) (unknown : target ∉ blocks.map BasicBlock.name) :
    Fault blocks (.graph (.unknownTarget block.name target))
  | unsupported {block : BasicBlock} {mnemonic : String} (listed : block ∈ blocks)
    (ends : block.terminator = .unsupported mnemonic) :
    Fault blocks (.unsupportedTerminator mnemonic)

theorem Fault.not_buildable {blocks : List BasicBlock} {error : BlockError}
    (fault : Fault blocks error) : ¬Buildable blocks := by
  intro buildable
  cases fault with
  | noBlocks none => exact buildable.nonempty none
  | duplicateLabel twice => exact List.nodup_iff_forall_not_duplicate.mp buildable.namesNodup _ twice
  | unknownTarget listed named unknown => exact unknown ((buildable.closed _ listed).known _ named)
  | unsupported listed ends => cases ends ▸ (buildable.closed _ listed).supported

end BasicBlock

namespace FlowGraph

open BasicBlock

variable {g : FlowGraph} {name : String} {blocks : List BasicBlock}

/-! ## Nodes -/

/-- What is written of the nodes of blocks. -/
def blockTexts (isFirst : Bool) : List BasicBlock → List (String × AttrMap)
  | [] => []
  | block :: rest => (block.name, blockAttrs isFirst block) :: blockTexts false rest

theorem map_fst_blockTexts (isFirst : Bool) (blocks : List BasicBlock) :
    (blockTexts isFirst blocks).map Prod.fst = blocks.map BasicBlock.name := by
  induction blocks generalizing isFirst with
  | nil => rfl
  | cons block rest ih => rw [blockTexts, List.map_cons, ih, List.map_cons]

theorem mem_blockTexts {isFirst : Bool} {text : String × AttrMap}
    (member : text ∈ blockTexts isFirst blocks) :
    ∃ first, ∃ block ∈ blocks, text = (block.name, blockAttrs first block) ∧
      (first = true → isFirst = true ∧ blocks.head? = some block) := by
  induction blocks generalizing isFirst with
  | nil => cases member
  | cons block rest ih =>
    rcases List.mem_cons.mp member with rfl | later
    · exact ⟨isFirst, block, List.mem_cons_self, rfl, fun first => ⟨first, rfl⟩⟩
    · obtain ⟨first, other, listed, same, leads⟩ := ih later
      exact ⟨first, other, List.mem_cons_of_mem _ listed, same, fun is => nomatch (leads is).1⟩

theorem get?_blockAttrs (isFirst : Bool) (block : BasicBlock) (key : String) :
    (blockAttrs isFirst block).get? key =
      if key = "entry" ∧ isFirst = true then some "true"
      else if key = "cond_node" ∧ 1 < block.instructionCount then some "false"
      else none := by
  have part (k v : String) (p : Prop) [Decidable p] :
      (if p then [(k, v)] else []).lookup key = if key = k ∧ p then some v else none := by
    by_cases holds : p
    · by_cases same : key = k
      · simp [holds, same]
      · simp [holds, same, List.lookup_cons, beq_eq_false_iff_ne.mpr same]
    · simp [holds]
  rw [blockAttrs, AttrMap.get?_ofList, List.lookup_append, part, part]
  · split <;> rfl
  · cases isFirst <;> by_cases longer : block.instructionCount > 1 <;> simp [longer]

theorem marksEntry_blockAttrs (isFirst : Bool) (block : BasicBlock) :
    (blockAttrs isFirst block).marksEntry = isFirst := by
  rw [AttrMap.marksEntry, get?_blockAttrs]
  cases isFirst <;> simp

theorem condNode_blockAttrs (isFirst : Bool) (block : BasicBlock) :
    (blockAttrs isFirst block).get? "cond_node" = some "false" ↔ 1 < block.instructionCount := by
  rw [get?_blockAttrs]
  simp

/-- A node that is no second entry is added unless its label is taken. -/
theorem outcome_addNode {label : String} {attrs : AttrMap}
    (single : attrs.marksEntry = true → g.entry? = none) :
    Outcome (fun result => result.2 = g.insertNode label attrs)
      (fun error => error = .duplicateLabel label ∧ label ∈ g.nodes.map Node.label)
      (g.addNode label attrs) := by
  cases found : g.find? label with
  | none =>
    rw [addNode_eq_ok_iff.mpr ⟨found, single, rfl⟩]
    rfl
  | some id =>
    obtain ⟨n, member, same, -⟩ := exists_of_find? found
    have refused : g.addNode label attrs = .error (.duplicateLabel label) := by
      simp [addNode, found]
    rw [refused]
    exact ⟨rfl, List.mem_map.mpr ⟨n, member, same⟩⟩

/-- Blocks become nodes unless two of them have one name. -/
theorem outcome_addBlocks (isFirst : Bool) (blocks : List BasicBlock)
    (unentered : isFirst = true → g.entry? = none) :
    Outcome (fun h => (h.nodes.map nodeText).Perm (g.nodes.map nodeText ++ blockTexts isFirst blocks) ∧
        h.edges = g.edges ∧ h.name = g.name)
      (fun error => ∃ label, error = .duplicateLabel label ∧
        2 ≤ (g.nodes.map Node.label ++ blocks.map BasicBlock.name).count label)
      (g.addBlocks isFirst blocks) := by
  induction blocks generalizing g isFirst with
  | nil => exact ⟨by simp [blockTexts], rfl, rfl⟩
  | cons block rest ih =>
    have single : (blockAttrs isFirst block).marksEntry = true → g.entry? = none := by
      rwa [marksEntry_blockAttrs]
    have inserted := insertNode_nodes (g := g) block.name (blockAttrs isFirst block)
    refine Outcome.bind ((outcome_addNode single).mono (fun _ added => added) ?_) ?_
    · rintro error ⟨same, taken⟩
      refine ⟨_, same, ?_⟩
      have before := List.count_pos_iff.mpr taken
      rw [List.count_append, List.map_cons, List.count_cons_self]
      omega
    · rintro ⟨id, h⟩ rfl
      refine (ih false nofun).mono ?_ ?_
      · rintro h ⟨texts, edges, name⟩
        refine ⟨texts.trans (((inserted.map nodeText).append_right _).trans ?_), edges, name⟩
        exact List.perm_middle.symm
      · rintro error ⟨label, same, twice⟩
        refine ⟨label, same, ?_⟩
        rw [((inserted.map Node.label).append_right _).count_eq] at twice
        rw [List.map_cons, List.perm_middle.count_eq]
        exact twice

/-! ## Edges -/

/-- A graph with a node for each block and with the edges that are described. -/
structure Joined (name : String) (blocks : List BasicBlock)
    (described : String × String × AttrMap → Prop) (g : FlowGraph) : Prop where
  wf : g.WellFormed
  name_eq : g.name = name
  nodes : (g.nodes.map nodeText).Perm (blockTexts true blocks)
  edges : ∀ text, text ∈ g.edges.map g.edgeText ↔ described text

section

variable {described : String × String × AttrMap → Prop} {source target : String}
  {cond : Option String} {block : BasicBlock}

namespace Joined

variable (joined : Joined name blocks described g)
include joined

theorem congr {described' : String × String × AttrMap → Prop}
    (same : ∀ text, described text ↔ described' text) : Joined name blocks described' g :=
  { joined with edges := fun text => (joined.edges text).trans (same text) }

theorem labels : (g.nodes.map Node.label).Perm (blocks.map BasicBlock.name) := by
  have perm := joined.nodes.map Prod.fst
  rw [map_fst_blockTexts, List.map_map] at perm
  exact perm

theorem namesNodup : (blocks.map BasicBlock.name).Nodup :=
  joined.labels.nodup_iff.mp joined.wf.labelsNodup

theorem exists_find? (listed : source ∈ blocks.map BasicBlock.name) :
    ∃ id, g.find? source = some id := by
  obtain ⟨n, member, same⟩ := List.mem_map.mp (joined.labels.mem_iff.mpr listed)
  exact ⟨n.id, joined.wf.find?_eq_some_iff.mpr ⟨n, member, same, rfl⟩⟩

theorem listed_of_find? {id : NodeId} (found : g.find? target = some id) :
    target ∈ blocks.map BasicBlock.name := by
  obtain ⟨n, member, same, -⟩ := exists_of_find? found
  exact joined.labels.mem_iff.mp (List.mem_map.mpr ⟨n, member, same⟩)

/-- An edge that is not described yet is added if its target is there. -/
theorem outcome_addTarget (listed : source ∈ blocks.map BasicBlock.name)
    (free : ∀ attrs, ¬described (source, target, attrs)) :
    Outcome (fun h => target ∈ blocks.map BasicBlock.name ∧ Joined name blocks
        (fun text => described text ∨ text = (source, target, edgeAttrs cond)) h)
      (fun error => error = .unknownTarget source target ∧ target ∉ blocks.map BasicBlock.name)
      (g.addTarget source target cond) := by
  obtain ⟨a, found⟩ := joined.exists_find? listed
  cases there : g.find? target with
  | none =>
    have refused : g.addTarget source target cond = .error (.unknownTarget source target) := by
      simp [addTarget, found, there]
    rw [refused]
    refine ⟨rfl, fun listed => ?_⟩
    obtain ⟨b, found⟩ := joined.exists_find? listed
    cases there.symm.trans found
  | some b =>
    have sourceLabel := joined.wf.label_of_find? found
    have targetLabel := joined.wf.label_of_find? there
    -- An edge between the two nodes would be described by the labels of its ends.
    have new : b ∉ g.succs a := by
      intro edge
      obtain ⟨e, member, rfl, rfl⟩ := mem_succs.mp edge
      refine free e.attrs ((joined.edges _).mp (List.mem_map.mpr ⟨e, member, ?_⟩))
      rw [edgeText, sourceLabel, targetLabel]
    have added : g.addEdge a b (edgeAttrs cond) =
        .ok (g.nextEdge, g.insertEdge ⟨a, b, edgeAttrs cond⟩) :=
      addEdge_eq_ok_iff.mpr ⟨find?_live found, find?_live there, new, rfl⟩
    have ran : g.addTarget source target cond = .ok (g.insertEdge ⟨a, b, edgeAttrs cond⟩) := by
      simp only [addTarget, found, there]
      exact bind_eq_ok_iff.mpr ⟨_, added, rfl⟩
    rw [ran]
    refine ⟨joined.listed_of_find? there, joined.wf.addEdge added, joined.name_eq, joined.nodes, ?_⟩
    intro text
    have texts := (insertEdge_edges (g := g) ⟨a, b, edgeAttrs cond⟩).map g.edgeText
    have fresh : g.edgeText ⟨a, b, edgeAttrs cond⟩ = (source, target, edgeAttrs cond) := by
      rw [edgeText, sourceLabel, targetLabel]
    refine texts.mem_iff.trans ?_
    rw [List.map_cons, List.mem_cons, fresh, joined.edges, or_comm]

variable (listed : block ∈ blocks) (free : ∀ text, described text → text.1 ≠ block.name)
include listed free

/-- No two targets of a block are the same, so that no edge is met twice. -/
theorem outcome_targets {targets : List (String × Option String)}
    (spec : block.terminator.Lists targets) :
    Outcome (fun h => (∀ entry ∈ targets, entry.1 ∈ blocks.map BasicBlock.name) ∧
        Joined name blocks (fun text => described text ∨
          ∃ entry ∈ targets, text = (block.name, entry.1, edgeAttrs entry.2)) h)
      (Fault blocks)
      (targets.foldlM (fun g (target, cond) =>
        (g.addTarget block.name target cond).mapError .graph) g) := by
  apply Outcome.foldlM targets
  case start => exact ⟨nofun, joined.congr (by simp)⟩
  rintro seen ⟨target, cond⟩ rest h split ⟨known, joined⟩
  -- What is described already leaves other blocks, or leads to a target that stands before this one.
  have nodup := spec.nodup
  rw [← split, List.map_append, List.map_cons] at nodup
  have new (attrs : AttrMap) : ¬(described (block.name, target, attrs) ∨
      ∃ entry ∈ seen, (block.name, target, attrs) = (block.name, entry.1, edgeAttrs entry.2)) := by
    rintro (old | ⟨entry, before, same⟩)
    · exact free _ old rfl
    · obtain ⟨rfl, -⟩ : target = entry.1 ∧ attrs = edgeAttrs entry.2 := by simpa using same
      exact List.disjoint_of_nodup_append nodup (List.mem_map_of_mem before) List.mem_cons_self
  have place : (target, cond) ∈ targets := by simp [← split]
  refine ((joined.outcome_addTarget (List.mem_map_of_mem listed) new).mono ?_ ?_).mapError
  · rintro h ⟨there, joined⟩
    refine ⟨List.forall_mem_append.mpr ⟨known, by simpa using there⟩, joined.congr fun text => ?_⟩
    simp [or_and_right, exists_or, or_assoc]
  · rintro error ⟨rfl, unknown⟩
    exact .unknownTarget listed ((spec.mem_iff target cond).mp place).1 unknown

/-- A block is joined to each block that it names unless one of them is not there. -/
theorem outcome_addTargets :
    Outcome (fun h => block.LeadsInto blocks ∧
        Joined name blocks (fun text => described text ∨ block.Describes text) h)
      (Fault blocks) (g.addTargets block) := by
  refine Outcome.bind (block.terminator.outcome_targets.mono (fun _ spec => spec) ?_) ?_
  · rintro error ⟨mnemonic, ends, rfl⟩
    exact .unsupported listed ends
  · rintro targets ⟨spec, supported⟩
    refine (joined.outcome_targets listed free spec).mono ?_ fun _ fault => fault
    rintro h ⟨known, joined⟩
    refine ⟨⟨fun target named => ?_, supported⟩, joined.congr fun text => or_congr_right ?_⟩
    · exact known (target, block.terminator.condTo target) ((spec.mem_iff _ _).mpr ⟨named, rfl⟩)
    · constructor
      · rintro ⟨⟨target, cond⟩, member, rfl⟩
        obtain ⟨named, rfl⟩ := (spec.mem_iff _ _).mp member
        exact ⟨target, named, rfl⟩
      · rintro ⟨target, named, rfl⟩
        exact ⟨(target, block.terminator.condTo target), (spec.mem_iff _ _).mpr ⟨named, rfl⟩, rfl⟩

end Joined

end

/-! ## Blocks -/

/-- The blocks behind a block have other names, so that no edge is described twice. -/
theorem outcome_foldlM (start : Joined name blocks (fun _ => False) g) {items : List BasicBlock}
    (listed : ∀ block ∈ items, block ∈ blocks) (nodup : (items.map BasicBlock.name).Nodup) :
    Outcome (fun h => (∀ block ∈ items, block.LeadsInto blocks) ∧
        Joined name blocks (fun text => ∃ block ∈ items, block.Describes text) h)
      (Fault blocks) (items.foldlM addTargets g) := by
  apply Outcome.foldlM items
  case start => exact ⟨nofun, start.congr (by simp)⟩
  rintro seen block rest h split ⟨closed, joined⟩
  have place : block ∈ items := by simp [← split]
  rw [← split, List.map_append, List.map_cons] at nodup
  refine (joined.outcome_addTargets (listed block place) ?_).mono ?_ fun _ fault => fault
  · rintro text ⟨other, before, target, -, rfl⟩ same
    refine List.disjoint_of_nodup_append nodup (List.mem_map_of_mem before) ?_
    exact List.mem_cons.mpr (.inl same)
  · rintro h ⟨leads, joined⟩
    refine ⟨List.forall_mem_append.mpr ⟨closed, by simpa using leads⟩, joined.congr fun text => ?_⟩
    simp [or_and_right, exists_or]

/-- Blocks make a graph unless there is none, or two have one name, or one names a block that is not
there or ends in a way that is not supported. -/
theorem outcome_ofBlocks (name : String) (blocks : List BasicBlock) :
    Outcome (fun g => Buildable blocks ∧
        Joined name blocks (fun text => ∃ block ∈ blocks, block.Describes text) g)
      (Fault blocks) (ofBlocks name blocks) := by
  unfold ofBlocks
  split
  · next none => exact .noBlocks (List.isEmpty_iff.mp none)
  next some =>
  have nonempty : blocks ≠ [] := fun none => some (List.isEmpty_iff.mpr none)
  have unentered : true = true → FlowGraph.entry? (empty name) = none := fun _ => rfl
  have nodes := outcome_addBlocks true blocks unentered
  cases ran : (empty name).addBlocks true blocks with
  | error error =>
    obtain ⟨label, rfl, twice⟩ := nodes.of_error ran
    exact .duplicateLabel (List.duplicate_iff_two_le_count.mpr twice)
  | ok h =>
    obtain ⟨texts, none, named⟩ := nodes.of_ok ran
    replace none : h.edges = [] := none
    have start : Joined name blocks (fun _ => False) h :=
      ⟨keptByAdding_wellFormed.addBlocks (wellFormed_empty name) ran, named, texts, by simp [none]⟩
    refine (outcome_foldlM start (fun _ listed => listed) start.namesNodup).mono ?_
      fun _ fault => fault
    rintro g ⟨closed, joined⟩
    exact ⟨⟨nonempty, joined.namesNodup, closed⟩, joined⟩

/-- The graph that blocks describe. -/
structure BuiltFrom (g : FlowGraph) (name : String) (blocks : List BasicBlock) : Prop where
  wf : g.WellFormed
  name_eq : g.name = name
  /-- There is one node for each block. -/
  labels : (g.nodes.map Node.label).Perm (blocks.map BasicBlock.name)
  entry : g.entry?.map g.label = blocks.head?.map BasicBlock.name
  onlyEntry : ∀ n ∈ g.nodes, n.isEntry = true → blocks.head?.map BasicBlock.name = some n.label
  /-- A block of more than one instruction does more than test. -/
  condNode : ∀ n ∈ g.nodes, ∀ block ∈ blocks, n.label = block.name →
    (n.attrs.get? "cond_node" = some "false" ↔ 1 < block.instructionCount)
  edges : ∀ text, text ∈ g.edges.map g.edgeText ↔ ∃ block ∈ blocks, block.Describes text

/-- A graph that is made of blocks is the graph that the blocks describe. -/
theorem builtFrom_ofBlocks (ran : ofBlocks name blocks = .ok g) : BuiltFrom g name blocks := by
  obtain ⟨buildable, joined⟩ := (outcome_ofBlocks name blocks).of_ok ran
  have told (n : Node) (member : n ∈ g.nodes) : ∃ first, ∃ block ∈ blocks,
      nodeText n = (block.name, blockAttrs first block) ∧
        (first = true → true = true ∧ blocks.head? = some block) :=
    mem_blockTexts (joined.nodes.mem_iff.mp (List.mem_map_of_mem member))
  refine ⟨joined.wf, joined.name_eq, joined.labels, ?_, ?_, ?_, joined.edges⟩
  · obtain ⟨block, rest, rfl⟩ := List.exists_cons_of_ne_nil buildable.nonempty
    have first : (block.name, blockAttrs true block) ∈ blockTexts true (block :: rest) :=
      List.mem_cons_self
    obtain ⟨n, member, same⟩ := List.mem_map.mp (joined.nodes.mem_iff.mpr first)
    obtain ⟨label, attrs⟩ := Prod.mk.inj same
    have marked : n.isEntry = true := by rw [Node.isEntry, attrs, marksEntry_blockAttrs]
    rw [joined.wf.entry?_eq_some_iff.mpr ⟨n, member, marked, rfl⟩, Option.map_some,
      joined.wf.label_node member, label]
    rfl
  · intro n member marked
    obtain ⟨first, block, -, same, leads⟩ := told n member
    obtain ⟨label, attrs⟩ := Prod.mk.inj same
    rw [Node.isEntry, attrs, marksEntry_blockAttrs] at marked
    rw [(leads marked).2, label]
    rfl
  · intro n member block listed sameLabel
    obtain ⟨first, other, otherListed, same, -⟩ := told n member
    obtain ⟨label, attrs⟩ := Prod.mk.inj same
    obtain rfl : other = block := List.inj_on_of_nodup_map buildable.namesNodup otherListed listed
      (label.symm.trans sameLabel)
    rw [attrs, condNode_blockAttrs]

theorem told_of_edgeText {e : Edge} {source target : String} {cond : Option String}
    (same : g.edgeText e = (source, target, edgeAttrs cond)) :
    g.label e.source = source ∧ g.label e.target = target ∧ e.cond = cond := by
  obtain ⟨named, led, attrs⟩ : g.label e.source = source ∧ g.label e.target = target ∧
    e.attrs = edgeAttrs cond := by simpa [edgeText] using same
  exact ⟨named, led, by rw [Edge.cond, attrs, get?_edgeAttrs]⟩

namespace BuiltFrom

variable (built : BuiltFrom g name blocks)
include built

/-- An edge leaves a block for one that its terminator names. -/
theorem exists_block {e : Edge} (member : e ∈ g.edges) : ∃ block ∈ blocks,
    block.name = g.label e.source ∧ g.label e.target ∈ block.terminator.successors ∧
      e.cond = block.terminator.condTo (g.label e.target) := by
  obtain ⟨block, listed, target, named, same⟩ := (built.edges _).mp (List.mem_map_of_mem member)
  obtain ⟨source, rfl, cond⟩ := told_of_edgeText same
  exact ⟨block, listed, source.symm, named, cond⟩

theorem exists_edge {block : BasicBlock} (listed : block ∈ blocks) {target : String}
    (named : target ∈ block.terminator.successors) : ∃ e ∈ g.edges, g.label e.source = block.name ∧
      g.label e.target = target ∧ e.cond = block.terminator.condTo target := by
  obtain ⟨e, member, same⟩ :=
    List.mem_map.mp ((built.edges _).mpr ⟨block, listed, target, named, rfl⟩)
  exact ⟨e, member, told_of_edgeText same⟩

end BuiltFrom

theorem exists_ofBlocks (name : String) (buildable : Buildable blocks) :
    ∃ g, ofBlocks name blocks = .ok g := by
  cases ran : ofBlocks name blocks with
  | error error =>
    exact absurd buildable ((outcome_ofBlocks name blocks).of_error ran).not_buildable
  | ok g => exact ⟨g, rfl⟩

/-- Blocks make a graph exactly if they can, and it is the graph that they describe; otherwise the
error says what is wrong with them. -/
theorem ofBlocks_exact (name : String) (blocks : List BasicBlock) :
    ((∃ g, ofBlocks name blocks = .ok g) ↔ Buildable blocks) ∧
      (∀ g, ofBlocks name blocks = .ok g → BuiltFrom g name blocks) ∧
      ∀ error, ofBlocks name blocks = .error error → Fault blocks error := by
  have outcome := outcome_ofBlocks name blocks
  refine ⟨⟨?_, exists_ofBlocks name⟩, fun g => builtFrom_ofBlocks, fun error => outcome.of_error⟩
  rintro ⟨g, ran⟩
  exact (outcome.of_ok ran).1

/-- A switch of which two cases share a target, and one case leads where it goes anyway. -/
def switching : List BasicBlock :=
  [⟨"S", 3, .switch [("1", "X"), ("2", "Y"), ("4", "X"), ("5", "D")] "D"⟩,
    ⟨"X", 1, .jump "D"⟩, ⟨"Y", 1, .branch "D" "Y"⟩, ⟨"D", 1, .return⟩]

theorem switching_exact : Buildable switching ∧ ∃ g, ofBlocks "f" switching = .ok g ∧
    g.entry?.map g.label = some "S" ∧
    ∀ target cond, ("S", target, edgeAttrs cond) ∈ g.edges.map g.edgeText ↔
      (target, cond) ∈ [("X", some "1, 4"), ("Y", some "2"), ("D", some "default")] := by
  have buildable : Buildable switching := by decide
  obtain ⟨succeeds, builds, -⟩ := ofBlocks_exact "f" switching
  obtain ⟨g, ran⟩ := succeeds.mpr buildable
  have built := builds g ran
  refine ⟨buildable, g, ran, built.entry, fun target cond => (built.edges _).trans ?_⟩
  have leaves : (∃ block ∈ switching, block.Describes ("S", target, edgeAttrs cond)) ↔
      target ∈ ["X", "Y", "X", "D", "D"] ∧ cond = Terminator.condTo
        (.switch [("1", "X"), ("2", "Y"), ("4", "X"), ("5", "D")] "D") target := by
    simp [switching, Describes, Terminator.successors]
  rw [leaves]
  constructor
  · rintro ⟨named, rfl⟩
    fin_cases named <;> decide
  · intro listed
    fin_cases listed <;> decide

end FlowGraph

end ControlFlow
