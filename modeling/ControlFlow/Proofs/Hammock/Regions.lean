import ControlFlow.Hammock.Shape
import ControlFlow.Proofs.Graph.Dominators
import ControlFlow.Proofs.Graph.Merge
import ControlFlow.Proofs.Hammock.Traces

/-! What a match of a shape means. Its blocks are entered only at the head and left only from the
exit, and a step among them is either one that the region explains or leads from the exit back to
the head. What is read on the explained steps from the head to the exit is what the region says. -/
namespace ControlFlow

open Computability

/-- What is read in a region, by what is read in its blocks. -/
def Region.reads (words : String → Language String) : Region → Language String
  | seq entry exit => words entry * words exit
  | ifThen cond body exit => words cond * (1 + words body) * words exit
  | ifElse cond bodyTrue bodyFalse exit =>
    words cond * (words bodyTrue + words bodyFalse) * words exit
  | ifReturn cond _ exit => words cond * words exit
  | preLoop cond body exit => (words cond * words body)∗ * words cond * words exit
  | postLoop cond exit => words cond * (words cond)∗ * words exit
  | loop _ entry .. | switch entry .. | shortCircuit _ entry .. => words entry

namespace Hammock

/-- The blocks of a match, and the steps among them that the region explains. -/
structure Layout where
  head : NodeId
  exit : NodeId
  members : List NodeId
  inner : List (NodeId × NodeId)

/-- What the edges around the blocks of a region are like, by its shape. -/
inductive Shaped (g : FlowGraph) : Region → Layout → Prop where
  | seq {entry exit : NodeId} (distinct : [entry, exit].Nodup)
      (fromEntry : ∀ b, g.Step entry b ↔ b = exit) (toExit : ∀ a, g.Step a exit ↔ a = entry) :
    Shaped g (.seq (g.label entry) (g.label exit))
      ⟨entry, exit, [entry, exit], [(entry, exit)]⟩
  | preLoop {cond body exit : NodeId} (distinct : [cond, body, exit].Nodup)
      (fromCond : ∀ b, g.Step cond b ↔ b = body ∨ b = exit)
      (fromBody : ∀ b, g.Step body b ↔ b = cond) (toBody : ∀ a, g.Step a body ↔ a = cond)
      (toExit : ∀ a, g.Step a exit ↔ a = cond) :
    Shaped g (.preLoop (g.label cond) (g.label body) (g.label exit))
      ⟨cond, exit, [cond, body, exit], [(cond, body), (body, cond), (cond, exit)]⟩
  | postLoop {cond exit : NodeId} (distinct : [cond, exit].Nodup)
      (fromCond : ∀ b, g.Step cond b ↔ b = cond ∨ b = exit)
      (toExit : ∀ a, g.Step a exit ↔ a = cond) :
    Shaped g (.postLoop (g.label cond) (g.label exit))
      ⟨cond, exit, [cond, exit], [(cond, cond), (cond, exit)]⟩
  | ifThen {cond body exit : NodeId} (distinct : [cond, body, exit].Nodup)
      (fromCond : ∀ b, g.Step cond b ↔ b = body ∨ b = exit)
      (fromBody : ∀ b, g.Step body b ↔ b = exit) (toBody : ∀ a, g.Step a body ↔ a = cond)
      (toExit : ∀ a, g.Step a exit ↔ a = cond ∨ a = body) :
    Shaped g (.ifThen (g.label cond) (g.label body) (g.label exit))
      ⟨cond, exit, [cond, body, exit], [(cond, body), (cond, exit), (body, exit)]⟩
  | ifReturn {cond body exit : NodeId} (distinct : [cond, body, exit].Nodup)
      (fromCond : ∀ b, g.Step cond b ↔ b = body ∨ b = exit)
      (fromBody : ∀ b, ¬g.Step body b) (toBody : ∀ a, g.Step a body ↔ a = cond)
      (toExit : ∀ a, g.Step a exit ↔ a = cond) :
    Shaped g (.ifReturn (g.label cond) (g.label body) (g.label exit))
      ⟨cond, exit, [cond, body, exit], [(cond, body), (cond, exit)]⟩
  | ifElse {cond bodyTrue bodyFalse exit : NodeId} (distinct : [cond, bodyTrue, bodyFalse, exit].Nodup)
      (fromCond : ∀ b, g.Step cond b ↔ b = bodyTrue ∨ b = bodyFalse)
      (fromTrue : ∀ b, g.Step bodyTrue b ↔ b = exit)
      (fromFalse : ∀ b, g.Step bodyFalse b ↔ b = exit)
      (toTrue : ∀ a, g.Step a bodyTrue ↔ a = cond) (toFalse : ∀ a, g.Step a bodyFalse ↔ a = cond)
      (toExit : ∀ a, g.Step a exit ↔ a = bodyTrue ∨ a = bodyFalse) :
    Shaped g (.ifElse (g.label cond) (g.label bodyTrue) (g.label bodyFalse) (g.label exit))
      ⟨cond, exit, [cond, bodyTrue, bodyFalse, exit],
        [(cond, bodyTrue), (cond, bodyFalse), (bodyTrue, exit), (bodyFalse, exit)]⟩

private theorem foldl_dedup {items : List String} (nodup : items.Nodup) (seen : List String) :
    items.foldl (fun labels label => if labels.contains label then labels else labels ++ [label])
      seen = seen ++ items.filter (!seen.contains ·) := by
  induction items generalizing seen with
  | nil => simp
  | cons label rest ih =>
    obtain ⟨missing, nodup⟩ := List.nodup_cons.mp nodup
    by_cases known : label ∈ seen
    · have again : seen.contains label = true := by simpa using known
      rw [List.foldl_cons, if_pos again, ih nodup]
      simp [known]
    · have new : seen.contains label = false := by simpa using known
      have later : rest.filter (!(seen ++ [label]).contains ·) = rest.filter (!seen.contains ·) := by
        refine List.filter_congr fun other member => ?_
        have different : other ≠ label := fun same => missing (same ▸ member)
        simp [different]
      rw [List.foldl_cons, new, if_neg Bool.false_ne_true, ih nodup, later]
      simp [known]

namespace Shaped

variable {g : FlowGraph} {region : Region} {layout : Layout} {a b : NodeId}
variable (shaped : Shaped g region layout)
include shaped

theorem nodup : layout.members.Nodup := by
  cases shaped <;> assumption

theorem head_mem : layout.head ∈ layout.members := by
  cases shaped <;> simp

theorem exit_mem : layout.exit ∈ layout.members := by
  cases shaped <;> simp

theorem inner_step (inner : (a, b) ∈ layout.inner) : g.Step a b ∧ b ∈ layout.members := by
  cases shaped <;> grind

theorem entering (edge : g.Step a b) (outside : a ∉ layout.members) (inside : b ∈ layout.members) :
    b = layout.head := by
  cases shaped <;> grind

theorem leaving (edge : g.Step a b) (inside : a ∈ layout.members) (outside : b ∉ layout.members) :
    a = layout.exit := by
  cases shaped <;> grind

theorem within (edge : g.Step a b) (left : a ∈ layout.members) (right : b ∈ layout.members) :
    (a, b) ∈ layout.inner ∨ a = layout.exit ∧ b = layout.head := by
  cases shaped <;> grind

/-- The exit's step back to the head is never explained. -/
theorem back_not_inner : (layout.exit, layout.head) ∉ layout.inner := by
  cases shaped <;> grind

/-- An explained step leads on in the order of the blocks, or back to the head. -/
theorem inner_ascends (inner : (a, b) ∈ layout.inner) :
    layout.members.idxOf a < layout.members.idxOf b ∨ b = layout.head := by
  cases shaped with
  | seq distinct | preLoop distinct | postLoop distinct | ifThen distinct | ifReturn distinct
  | ifElse distinct =>
    simp only [List.nodup_cons, List.mem_cons, not_or] at distinct
    simp only [List.mem_cons, Prod.mk.injEq] at inner
    simp only [List.idxOf_cons]
    grind

/-- The head leads to every other block, at once or by way of one more block. -/
theorem exists_way (inside : b ∈ layout.members) (other : b ≠ layout.head) :
    g.Step layout.head b ∨ ∃ m ∈ layout.members, g.Step layout.head m ∧ g.Step m b := by
  cases shaped with
  | seq | preLoop | postLoop | ifThen | ifReturn => grind
  | @ifElse cond bodyTrue bodyFalse exit distinct fromCond fromTrue =>
    simp only [List.mem_cons, List.not_mem_nil, or_false] at inside
    rcases inside with rfl | rfl | rfl | rfl
    · exact absurd rfl other
    · exact .inl ((fromCond b).mpr (.inl rfl))
    · exact .inl ((fromCond b).mpr (.inr rfl))
    · exact .inr ⟨bodyTrue, by simp, (fromCond bodyTrue).mpr (.inl rfl), (fromTrue b).mpr rfl⟩

/-- The head leads to every block without leaving the region. -/
theorem exists_walk (inside : b ∈ layout.members) :
    ∃ passed, g.Walk layout.head b passed ∧ ∀ n ∈ passed, n ∈ layout.members := by
  have head := shaped.head_mem
  by_cases same : b = layout.head
  · subst same
    exact ⟨_, .here, by simpa using head⟩
  · rcases shaped.exists_way inside same with edge | ⟨m, between, first, second⟩
    · exact ⟨_, FlowGraph.Walk.here.step edge, by simp [head, inside]⟩
    · exact ⟨_, (FlowGraph.Walk.here.step first).step second, by simp [head, between, inside]⟩

/-- Some block besides the head is entered from one block only. -/
theorem exists_single_pred : ∃ b ∈ layout.members, b ≠ layout.head ∧
    ∃ p, ∀ a, g.Step a b ↔ a = p := by
  cases shaped with
  | @seq entry exit distinct => exact ⟨exit, by simp, by grind, entry, by assumption⟩
  | @postLoop cond exit distinct => exact ⟨exit, by simp, by grind, cond, by assumption⟩
  | @preLoop cond body exit distinct | @ifThen cond body exit distinct
  | @ifReturn cond body exit distinct => exact ⟨body, by simp, by grind, cond, by assumption⟩
  | @ifElse cond bodyTrue bodyFalse exit distinct =>
    exact ⟨bodyTrue, by simp, by grind, cond, by assumption⟩

theorem entry_eq : region.entry = g.label layout.head := by
  cases shaped <;> rfl

theorem exit?_eq : region.exit? = some (g.label layout.exit) := by
  cases shaped <;> rfl

/-- A merge of the region drops the explained steps to the head and no other one. -/
theorem loopEdge_iff (wf : g.WellFormed) {m : NodeId} (live : ∀ id ∈ layout.members, id ∈ g.nodeIds) :
    g.loopEdge? region = some (m, layout.head) ↔ (m, layout.head) ∈ layout.inner := by
  cases shaped with
  | seq | ifThen | ifReturn | ifElse => simp [FlowGraph.loopEdge?, Region.back?]; grind
  | preLoop => 
    simp at live
    simp [FlowGraph.loopEdge?, Region.back?, wf.find?_label, live]
    grind
  | postLoop => 
    simp at live
    simp [FlowGraph.loopEdge?, Region.back?, wf.find?_label, live]
    grind

private theorem roles_eq : ∃ order : List NodeId, order.Perm layout.members ∧
    region.roles.entries.map Prod.snd = order.map g.label := by
  cases shaped with
  | @seq entry exit => exact ⟨[entry, exit], .refl _, rfl⟩
  | @postLoop cond exit => exact ⟨[cond, exit], .refl _, rfl⟩
  | @preLoop cond body exit | @ifThen cond body exit | @ifReturn cond body exit =>
    exact ⟨[body, cond, exit], .swap _ _ _, rfl⟩
  | @ifElse cond bodyTrue bodyFalse exit =>
    refine ⟨[bodyFalse, bodyTrue, cond, exit], ?_, rfl⟩
    exact (List.Perm.swap bodyTrue bodyFalse _).trans
      (((List.Perm.swap cond bodyFalse _).cons _).trans (.swap cond bodyTrue _))

/-- The labels of a region are those of its blocks, that of the head first. -/
theorem labels_eq (wf : g.WellFormed) (live : ∀ id ∈ layout.members, id ∈ g.nodeIds) :
    ∃ rest, (layout.head :: rest).Perm layout.members ∧
      region.labels = (layout.head :: rest).map g.label := by
  obtain ⟨order, perm, roles⟩ := shaped.roles_eq
  have inside := perm.mem_iff.mpr shaped.head_mem
  have nodup : (order.map g.label).Nodup := by
    refine (List.nodup_map_iff_inj_on (perm.nodup_iff.mpr shaped.nodup)).mpr ?_
    exact fun a left b right =>
      wf.label_inj (live a (perm.subset left)) (live b (perm.subset right))
  refine ⟨order.erase layout.head, (List.perm_cons_erase inside).symm.trans perm, ?_⟩
  rw [Region.labels, roles, shaped.entry_eq, List.foldl_cons, if_neg (by simp), List.nil_append,
    foldl_dedup nodup, List.singleton_append, List.map_cons]
  congr 1
  rw [List.Nodup.erase_eq_filter (perm.nodup_iff.mpr shaped.nodup), List.filter_map]
  congr 1
  refine List.filter_congr fun id member => ?_
  have same : g.label id = g.label layout.head ↔ id = layout.head :=
    ⟨wf.label_inj (live id (perm.subset member)) (live _ shaped.head_mem), congrArg g.label⟩
  by_cases equal : id = layout.head <;> simp [same, equal]

/-- The blocks of a match can be merged. -/
theorem mergeRegion_merged (wf : g.WellFormed) (live : ∀ id ∈ layout.members, id ∈ g.nodeIds) :
    ∃ merged h, g.mergeRegion region = .ok (merged, h) ∧
      g.Merged layout.head layout.members (g.loopEdge? region) merged h := by
  obtain ⟨rest, perm, labels⟩ := shaped.labels_eq wf live
  have liveAll : ∀ id ∈ layout.head :: rest, id ∈ g.nodeIds :=
    fun id member => live id (perm.subset member)
  obtain ⟨merged, h, ran, done⟩ := FlowGraph.mergeNodes_merged wf liveAll
    (perm.nodup_iff.mpr shaped.nodup) (g.loopEdge? region)
  refine ⟨merged, h, ?_, done.of_mem_iff perm.mem_iff⟩
  rw [FlowGraph.mergeRegion, labels, FlowGraph.findAll_label wf liveAll]
  exact ran

/-- A merge of the region collapses it. -/
theorem collapse (wf : g.WellFormed) {merged : NodeId} {h : FlowGraph}
    (done : g.Merged layout.head layout.members (g.loopEdge? region) merged h)
    (live : ∀ id ∈ layout.members, id ∈ g.nodeIds) :
    Collapse g.Step h.Step (fun a b => (a, b) ∈ layout.inner) (· ∈ g.nodeIds)
      (· ∈ layout.members) layout.head layout.exit merged where
  headInside := shaped.head_mem
  exitInside := shaped.exit_mem
  liveEnds edge := ⟨wf.source_live edge, wf.target_live edge⟩
  fresh := done.fresh
  inner_inside := shaped.inner_step
  entering := shaped.entering
  leaving := shaped.leaving
  within := shaped.within
  step'_iff {a b} := by
    have into (outside : a ∉ layout.members) :
        (∃ m ∈ layout.members, g.Step a m) ↔ g.Step a layout.head :=
      ⟨fun ⟨m, inside, edge⟩ => shaped.entering edge outside inside ▸ edge,
        fun edge => ⟨layout.head, shaped.head_mem, edge⟩⟩
    have out (outside : b ∉ layout.members) :
        (∃ m ∈ layout.members, g.Step m b) ↔ g.Step layout.exit b :=
      ⟨fun ⟨m, inside, edge⟩ => shaped.leaving edge inside outside ▸ edge,
        fun edge => ⟨layout.exit, shaped.exit_mem, edge⟩⟩
    have back : (∃ m ∈ layout.members, g.Step m layout.head ∧
        g.loopEdge? region ≠ some (m, layout.head)) ↔ g.Step layout.exit layout.head := by
      constructor
      · rintro ⟨m, inside, edge, unexplained⟩
        rcases shaped.within edge inside shaped.head_mem with inner | ⟨rfl, -⟩
        · exact absurd ((shaped.loopEdge_iff wf live).mpr inner) unexplained
        · exact edge
      · exact fun edge => ⟨layout.exit, shaped.exit_mem, edge, fun explained =>
          shaped.back_not_inner ((shaped.loopEdge_iff wf live).mp explained)⟩
    rw [done.step_iff, back]
    refine or_congr Iff.rfl (or_congr ?_ (or_congr ?_ Iff.rfl))
    · exact and_congr_right fun _ => and_congr_right fun outside => into outside
    · exact and_congr_right fun _ => and_congr_right fun outside => out outside

end Shaped

/-! ## What is read in a region -/

section

variable {words : NodeId → Language String} {head a b exit : NodeId}
variable {inner : List (NodeId × NodeId)}

/-- What is read on the explained steps of a region, from its head on. -/
abbrev innerTraces (inner : List (NodeId × NodeId)) (words : NodeId → Language String)
    (head id : NodeId) : Language String :=
  traces (fun a b => (a, b) ∈ inner) words head id

private theorem mem_innerTraces {w : List String} : w ∈ innerTraces inner words head b ↔
    (b = head ∧ w ∈ words head) ∨
      ∃ a, (a, b) ∈ inner ∧ w ∈ innerTraces inner words head a * words b := by
  constructor
  · rintro (read | ⟨traced, edge, read⟩)
    · exact .inl ⟨rfl, read⟩
    · exact .inr ⟨_, edge, Language.append_mem_mul traced read⟩
  · rintro (⟨rfl, read⟩ | ⟨a, edge, u, traced, v, read, rfl⟩)
    · exact .start read
    · exact Traced.step traced edge read

private theorem innerTraces_head (unreached : ∀ a, (a, head) ∉ inner) :
    innerTraces inner words head head = words head := by
  ext w
  simp [mem_innerTraces, unreached]

private theorem innerTraces_of_one (a b : NodeId) (other : b ≠ head)
    (source : ∀ p, (p, b) ∈ inner ↔ p = a) :
    innerTraces inner words head b = innerTraces inner words head a * words b := by
  ext w
  simp [mem_innerTraces (b := b), other, source]

private theorem innerTraces_of_two (a c b : NodeId) (other : b ≠ head)
    (source : ∀ p, (p, b) ∈ inner ↔ p = a ∨ p = c) :
    innerTraces inner words head b =
      (innerTraces inner words head a + innerTraces inner words head c) * words b := by
  ext w
  rw [add_mul, Language.mem_add, mem_innerTraces]
  simp [other, source]

private theorem reads_step {l : Language String} (edge : (a, b) ∈ inner)
    (start : l ≤ innerTraces inner words head a) :
    l * words b ≤ innerTraces inner words head b :=
  (mul_le_mul_left start _).trans (traces_mul_le edge)

/-- A head that only repeats itself is read one or more times. -/
private theorem innerTraces_self (source : ∀ p, (p, head) ∈ inner ↔ p = head) :
    innerTraces inner words head head = words head * (words head)∗ := by
  apply le_antisymm
  · let bound (id : NodeId) : Language String :=
      if id = head then words head * (words head)∗ else ⊤
    have least : innerTraces inner words head head ≤ bound head := by
      refine traces_le ?_ (fun a b edge => ?_) head
      · simpa [bound] using mul_le_mul_right (one_le_kstar (a := words head)) (words head)
      · by_cases same : b = head
        · obtain rfl := (source a).mp (same ▸ edge)
          simpa [bound, same, mul_assoc] using mul_le_mul_right kstar_mul_le_kstar (words a)
        · simp [bound, same]
    simpa [bound] using least
  · exact mul_kstar_le words_le_traces (reads_step ((source head).mpr rfl) le_rfl)

private theorem kstar_mul_slide_le (l m : Language String) : (l * m)∗ * l ≤ l * (m * l)∗ := by
  refine kstar_mul_le ?_ ?_
  · simpa using mul_le_mul_right (one_le_kstar (a := m * l)) l
  · have again := mul_le_mul_right (mul_kstar_le_kstar (a := m * l)) l
    simpa only [mul_assoc] using again

/-- A head that is returned to from a body is read once more than both together. -/
private theorem innerTraces_return (body : NodeId) (different : body ≠ head)
    (toHead : ∀ p, (p, head) ∈ inner ↔ p = body) (toBody : ∀ p, (p, body) ∈ inner ↔ p = head) :
    innerTraces inner words head head = (words head * words body)∗ * words head := by
  apply le_antisymm
  · let bound (id : NodeId) : Language String :=
      if id = head then (words head * words body)∗ * words head
      else if id = body then (words head * words body)∗ * words head * words body
      else ⊤
    have least : innerTraces inner words head head ≤ bound head := by
      refine traces_le ?_ (fun a b edge => ?_) head
      · have once := mul_le_mul_left (one_le_kstar (a := words head * words body)) (words head)
        simpa [bound] using once
      · by_cases atHead : b = head
        · obtain rfl := (toHead a).mp (atHead ▸ edge)
          have again := mul_le_mul_left (kstar_mul_le_kstar (a := words head * words a)) (words head)
          simpa [bound, atHead, different, mul_assoc] using again
        · by_cases atBody : b = body
          · obtain rfl := (toBody a).mp (atBody ▸ edge)
            simp [bound, atBody, different]
          · simp [bound, atHead, atBody]
    simpa [bound] using least
  · have gone : innerTraces inner words head head * words body ≤ innerTraces inner words head body :=
      reads_step ((toBody head).mpr rfl) le_rfl
    have around := reads_step ((toHead body).mpr rfl) gone
    rw [mul_assoc] at around
    exact (kstar_mul_slide_le _ _).trans (mul_kstar_le words_le_traces around)

/-- What is read on the explained steps of a region is what the region says. -/
theorem Shaped.reads_eq {g : FlowGraph} {region : Region} {layout : Layout}
    (shaped : Shaped g region layout) (words : String → Language String) :
    innerTraces layout.inner (words ∘ g.label) layout.head layout.exit = region.reads words := by
  cases shaped with
  | @seq entry exit distinct =>
    change innerTraces [(entry, exit)] _ entry exit = _
    rw [innerTraces_of_one entry exit, innerTraces_head]
    · rfl
    all_goals grind
  | @preLoop cond body exit distinct =>
    change innerTraces [(cond, body), (body, cond), (cond, exit)] _ cond exit = _
    rw [innerTraces_of_one cond exit, innerTraces_return body]
    · rfl
    all_goals grind
  | @postLoop cond exit distinct =>
    change innerTraces [(cond, cond), (cond, exit)] _ cond exit = _
    rw [innerTraces_of_one cond exit, innerTraces_self]
    · rfl
    all_goals grind
  | @ifThen cond body exit distinct =>
    change innerTraces [(cond, body), (cond, exit), (body, exit)] _ cond exit = _
    rw [innerTraces_of_two cond body exit, innerTraces_of_one cond body, innerTraces_head]
    · simp only [Function.comp_apply, Region.reads, mul_add, mul_one]
    all_goals grind
  | @ifReturn cond body exit distinct =>
    change innerTraces [(cond, body), (cond, exit)] _ cond exit = _
    rw [innerTraces_of_one cond exit, innerTraces_head]
    · rfl
    all_goals grind
  | @ifElse cond bodyTrue bodyFalse exit distinct =>
    change innerTraces [(cond, bodyTrue), (cond, bodyFalse), (bodyTrue, exit), (bodyFalse, exit)]
      _ cond exit = _
    rw [innerTraces_of_two bodyTrue bodyFalse exit, innerTraces_of_one cond bodyTrue,
      innerTraces_of_one cond bodyFalse, innerTraces_head]
    · simp only [Function.comp_apply, Region.reads, mul_add]
    all_goals grind

end

/-! ## Matching -/

section

variable {g : FlowGraph} {dom : DominatorTree} {id a b : NodeId} {region : Region}

private theorem step_of_comesOnlyFrom (found : comesOnlyFrom g id a = true) (n : NodeId) :
    g.Step n id ↔ n = a := by
  rw [comesOnlyFrom, beq_iff_eq] at found
  rw [FlowGraph.Step, ← FlowGraph.mem_preds_iff_mem_succs, found, List.mem_singleton]

private theorem step_of_goesOnlyTo (found : goesOnlyTo g id a = true) (n : NodeId) :
    g.Step id n ↔ n = a := by
  rw [goesOnlyTo, beq_iff_eq] at found
  rw [FlowGraph.Step, found, List.mem_singleton]

private theorem step_of_comesFromBoth (found : comesFromBoth g id a b = true) (n : NodeId) :
    g.Step n id ↔ n = a ∨ n = b := by
  rw [FlowGraph.Step, ← FlowGraph.mem_preds_iff_mem_succs]
  simp only [comesFromBoth, Bool.or_eq_true, beq_iff_eq] at found
  rcases found with listed | listed
  · simp [listed]
  · simp [listed, or_comm]

private theorem step_of_mem_sides (listed : (a, b) ∈ sides g id) (n : NodeId) :
    g.Step id n ↔ n = a ∨ n = b := by
  unfold sides at listed
  split at listed
  · next first second succs =>
    rw [FlowGraph.Step, succs]
    rcases List.mem_pair.mp listed with same | same <;> obtain ⟨rfl, rfl⟩ := Prod.mk.inj same
    · simp
    · simp [or_comm]
  · cases listed

theorem distinct_iff {ids : List NodeId} : distinct ids = true ↔ ids.Nodup := by
  induction ids with
  | nil => simp [distinct]
  | cons id rest ih => simp [distinct, ih]

/-- A region, its blocks, and that the head dominates all of them. -/
structure Matched (g : FlowGraph) (dom : DominatorTree) (region : Region) (layout : Layout) :
    Prop where
  shaped : Shaped g region layout
  dominated : ∀ b ∈ layout.members, b = layout.head ∨ dom.dominates layout.head b = true

private theorem matched_seq (found : seq? g dom id = some region) :
    ∃ layout, layout.head = id ∧ region.kind = .seq ∧ Matched g dom region layout := by
  unfold seq? at found
  split at found
  · next exit succs =>
    split at found
    · next tests =>
      simp only [Bool.and_eq_true, bne_iff_ne, ne_eq] at tests
      obtain ⟨⟨different, toExit⟩, dominates⟩ := tests
      obtain rfl := Option.some.inj found
      refine ⟨_, rfl, rfl, .seq (by simpa [eq_comm] using different) (fun n => ?_)
        (step_of_comesOnlyFrom toExit), by simp [dominates]⟩
      rw [FlowGraph.Step, succs, List.mem_singleton]
    · cases found
  · cases found

private theorem matched_preLoop (found : preLoop? g dom id = some region) :
    ∃ layout, layout.head = id ∧ region.kind = .preLoop ∧ Matched g dom region layout := by
  obtain ⟨⟨body, exit⟩, listed, found⟩ := List.exists_of_findSome?_eq_some found
  simp only at found
  split at found
  · next tests =>
    simp only [Bool.and_eq_true, distinct_iff] at tests
    obtain ⟨⟨⟨⟨⟨different, toBody⟩, fromBody⟩, toExit⟩, domBody⟩, domExit⟩ := tests
    obtain rfl := Option.some.inj found
    exact ⟨_, rfl, rfl, .preLoop different (step_of_mem_sides listed) (step_of_goesOnlyTo fromBody)
      (step_of_comesOnlyFrom toBody) (step_of_comesOnlyFrom toExit), by simp [domBody, domExit]⟩
  · cases found

private theorem matched_postLoop (found : postLoop? g dom id = some region) :
    ∃ layout, layout.head = id ∧ region.kind = .postLoop ∧ Matched g dom region layout := by
  obtain ⟨⟨back, exit⟩, listed, found⟩ := List.exists_of_findSome?_eq_some found
  simp only at found
  split at found
  · next tests =>
    simp only [Bool.and_eq_true, beq_iff_eq, bne_iff_ne, ne_eq] at tests
    obtain ⟨⟨⟨rfl, different⟩, toExit⟩, domExit⟩ := tests
    obtain rfl := Option.some.inj found
    exact ⟨_, rfl, rfl, .postLoop (by simpa [eq_comm] using different) (step_of_mem_sides listed)
      (step_of_comesOnlyFrom toExit), by simp [domExit]⟩
  · cases found

private theorem matched_ifThen (found : ifThen? g dom id = some region) :
    ∃ layout, layout.head = id ∧ region.kind = .ifThen ∧ Matched g dom region layout := by
  obtain ⟨⟨body, exit⟩, listed, found⟩ := List.exists_of_findSome?_eq_some found
  simp only at found
  split at found
  · next tests =>
    simp only [Bool.and_eq_true, distinct_iff] at tests
    obtain ⟨⟨⟨⟨⟨different, toBody⟩, fromBody⟩, toExit⟩, domBody⟩, domExit⟩ := tests
    obtain rfl := Option.some.inj found
    exact ⟨_, rfl, rfl, .ifThen different (step_of_mem_sides listed) (step_of_goesOnlyTo fromBody)
      (step_of_comesOnlyFrom toBody) (step_of_comesFromBoth toExit), by simp [domBody, domExit]⟩
  · cases found

private theorem matched_ifReturn (found : ifReturn? g dom id = some region) :
    ∃ layout, layout.head = id ∧ region.kind = .ifReturn ∧ Matched g dom region layout := by
  unfold ifReturn? at found
  split at found
  · cases found
  obtain ⟨⟨body, exit⟩, listed, found⟩ := List.exists_of_findSome?_eq_some found
  simp only at found
  split at found
  · next tests =>
    simp only [Bool.and_eq_true, distinct_iff] at tests
    obtain ⟨⟨⟨⟨⟨different, toBody⟩, fromBody⟩, toExit⟩, domBody⟩, domExit⟩ := tests
    obtain rfl := Option.some.inj found
    have noStep (n : NodeId) : ¬g.Step body n := by
      rw [FlowGraph.Step, List.isEmpty_iff.mp fromBody]
      exact List.not_mem_nil
    exact ⟨_, rfl, rfl, .ifReturn different (step_of_mem_sides listed) noStep
      (step_of_comesOnlyFrom toBody) (step_of_comesOnlyFrom toExit), by simp [domBody, domExit]⟩
  · cases found

private theorem matched_ifElse (found : ifElse? g dom id = some region) :
    ∃ layout, layout.head = id ∧ region.kind = .ifElse ∧ Matched g dom region layout := by
  obtain ⟨⟨bodyTrue, bodyFalse⟩, listed, found⟩ := List.exists_of_findSome?_eq_some found
  simp only at found
  split at found
  · next exit succs =>
    split at found
    · next tests =>
      simp only [Bool.and_eq_true, distinct_iff] at tests
      obtain ⟨⟨⟨⟨⟨⟨⟨different, toTrue⟩, toFalse⟩, fromFalse⟩, toExit⟩, domTrue⟩, domFalse⟩,
        domExit⟩ := tests
      obtain rfl := Option.some.inj found
      have fromTrue (n : NodeId) : g.Step bodyTrue n ↔ n = exit := by
        rw [FlowGraph.Step, succs, List.mem_singleton]
      exact ⟨_, rfl, rfl, .ifElse different (step_of_mem_sides listed) fromTrue
        (step_of_goesOnlyTo fromFalse) (step_of_comesOnlyFrom toTrue)
        (step_of_comesOnlyFrom toFalse) (step_of_comesFromBoth toExit),
        by simp [domTrue, domFalse, domExit]⟩
    · cases found
  · cases found

/-- Whatever a shape finds is laid out around the node as the kind of the shape tells. -/
theorem matched_of_shape {kind : RegionKind} {shape : Shape} (listed : (kind, shape) ∈ shapes)
    (found : shape g dom id = some region) :
    ∃ layout, layout.head = id ∧ region.kind = kind ∧ Matched g dom region layout := by
  simp only [shapes, List.mem_cons, Prod.mk.injEq, List.not_mem_nil, or_false] at listed
  rcases listed with ⟨rfl, rfl⟩ | ⟨rfl, rfl⟩ | ⟨rfl, rfl⟩ | ⟨rfl, rfl⟩ | ⟨rfl, rfl⟩ | ⟨rfl, rfl⟩
  · exact matched_seq found
  · exact matched_preLoop found
  · exact matched_postLoop found
  · exact matched_ifThen found
  · exact matched_ifReturn found
  · exact matched_ifElse found

/-- Whatever is found has one of the shapes, at a node of the graph. -/
theorem matched_of_firstMatch (found : firstMatch? g dom = some region) :
    ∃ layout, layout.head ∈ g.nodeIds ∧ Matched g dom region layout := by
  obtain ⟨⟨kind, shape⟩, listed, found⟩ := List.exists_of_findSome?_eq_some found
  obtain ⟨id, live, found⟩ := List.exists_of_findSome?_eq_some found
  obtain ⟨layout, rfl, -, fits⟩ := matched_of_shape listed found
  exact ⟨layout, live, fits⟩

end

end Hammock

end ControlFlow
