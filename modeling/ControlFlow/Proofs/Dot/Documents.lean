import ControlFlow.Dot.Document
import ControlFlow.Proofs.AttrMap
import ControlFlow.Proofs.Except

/-! What a document knows after its statements. One statement changes what is known of the nodes and
the edges that it mentions, and of nothing else; what a node or an edge has come to after all of them
is told by its first mention, its last one, the defaults in force there and what its own statements
write. -/
namespace ControlFlow.Dot

/-! ## What statements say -/

namespace Statement

/-- The nodes that a statement mentions. -/
def labels : Statement → List String
  | node label _ => [label]
  | chain _ first others _ => first :: others
  | _ => []

/-- The edges that a statement mentions. -/
def pairs : Statement → List (String × String)
  | chain _ first others _ => (first :: others).zip others
  | _ => []

/-- What a statement sets for all that comes later, or for the graph. -/
def defaultsOf (subject : Subject) : Statement → Entries
  | defaults other entries => if other = subject then entries else []
  | assign key value => if subject = .graph then [(key, value)] else []
  | _ => []

/-- What holds for all that comes behind these statements, or for the graph. -/
def defaultsAfter (subject : Subject) (statements : List Statement) : AttrMap :=
  AttrMap.ofList (statements.flatMap (defaultsOf subject))

/-- What a statement writes of a node itself. -/
def nodeEntries (label : String) : Statement → Entries
  | node other entries => if other = label then entries else []
  | _ => []

/-- What a statement writes of an edge itself. -/
def edgeEntries (pair : String × String) : Statement → Entries
  | chain _ first others entries => if pair ∈ (first :: others).zip others then entries else []
  | _ => []

/-- The same statement on another line. -/
def atLine (line : Nat) : Statement → Statement
  | chain _ first others entries => chain line first others entries
  | statement => statement

variable {label : String} {pair : String × String} {statement : Statement}

theorem nodeEntries_of_not_mem (other : label ∉ statement.labels) :
    statement.nodeEntries label = [] := by
  cases statement with
  | node mentioned entries => exact if_neg fun same => other (by simp [labels, same])
  | _ => rfl

theorem edgeEntries_of_not_mem (other : pair ∉ statement.pairs) :
    statement.edgeEntries pair = [] := by
  cases statement with
  | chain line first others entries => exact if_neg other
  | _ => rfl

end Statement

namespace Document

open Statement (defaultsAfter)

variable {doc after : Document} {attrs : AttrMap}

/-! ## Lines -/

/-- The line of a statement is kept for its fault only. -/
theorem agree_addEdge (doc : Document) (line line' : Nat) (source target : String) (attrs : AttrMap) :
    Agree (· = ·) (doc.addEdge line source target attrs) (doc.addEdge line' source target attrs) := by
  unfold addEdge
  split
  · split
    · exact rfl
    · exact trivial
  · exact rfl

theorem agree_run (doc : Document) (line : Nat) (statement : Statement) :
    Agree (· = ·) (doc.run (statement.atLine line)) (doc.run statement) := by
  cases statement with
  | defaults subject entries => cases subject <;> exact rfl
  | assign key value => exact rfl
  | node label entries => exact rfl
  | chain line' first others entries =>
    refine Agree.foldlM (Q := (· = ·)) ?_ (List.forall₂_refl _) rfl
    rintro doc _ pair _ rfl rfl
    exact agree_addEdge doc line line' _ _ _

theorem agree_ofText (strict : Bool) (name : String) (line : Nat) (statements : List Statement) :
    Agree (· = ·) (ofText ⟨strict, name, ⟨statements.map (Statement.atLine line), none⟩⟩)
      (ofText ⟨strict, name, ⟨statements, none⟩⟩) := by
  refine Agree.bind (R := (· = ·)) ?_ fun _ _ same => same
  refine Agree.foldlM (Q := fun moved statement => moved = statement.atLine line) ?_
    (List.forall₂_map_left_iff.mpr (List.forall₂_same.mpr fun _ _ => rfl)) rfl
  rintro doc _ _ statement rfl rfl
  exact agree_run doc line statement

/-! ## Tables -/

section Tables

variable {α β : Type} [BEq α] [LawfulBEq α] {key : α}

theorem lookup_eq_none_iff {table : List (α × β)} :
    table.lookup key = none ↔ key ∉ table.map Prod.fst := by
  induction table with
  | nil => simp
  | cons entry table ih =>
    obtain ⟨k, v⟩ := entry
    by_cases same : key = k
    · simp [same]
    · simp [List.lookup_cons, beq_eq_false_iff_ne.mpr same, same, ih]

theorem keysNodup_append {table : List (α × β)} (nodup : (table.map Prod.fst).Nodup)
    (fresh : table.lookup key = none) (value : β) :
    ((table ++ [(key, value)]).map Prod.fst).Nodup := by
  rw [List.map_append]
  refine nodup.append (List.nodup_singleton key) ?_
  exact List.disjoint_singleton.mpr (lookup_eq_none_iff.mp fresh)

theorem lookup_append_singleton (table : List (α × β)) (key x : α) (value : β) [Decidable (x = key)] :
    (table ++ [(key, value)]).lookup x =
      (table.lookup x).or (if x = key then some value else none) := by
  rw [List.lookup_append]
  by_cases same : x = key
  · simp [same]
  · have passed : (x == key) = false := by simpa using same
    simp [List.lookup_cons, passed, same]

theorem update_of_not_mem (change : AttrMap → AttrMap) {table : List (α × AttrMap)}
    (absent : key ∉ table.map Prod.fst) : update key change table = table := by
  rw [update, List.map_congr_left, List.map_id']
  intro entry member
  have different : entry.1 ≠ key := fun same => absent (same ▸ List.mem_map_of_mem member)
  simp [different]

omit [LawfulBEq α] in
theorem map_fst_update (key : α) (change : AttrMap → AttrMap) (table : List (α × AttrMap)) :
    (update key change table).map Prod.fst = table.map Prod.fst := by
  rw [update, List.map_map]
  refine List.map_congr_left fun entry _ => ?_
  by_cases same : (entry.1 == key) = true <;> simp [same]

theorem lookup_update (key : α) (change : AttrMap → AttrMap) (table : List (α × AttrMap)) (x : α)
    [Decidable (x = key)] :
    (update key change table).lookup x =
      (table.lookup x).map fun attrs => if x = key then change attrs else attrs := by
  induction table with
  | nil => rfl
  | cons entry table ih =>
    obtain ⟨k, attrs⟩ := entry
    rw [update, List.map_cons, ← update]
    by_cases same : x = k
    · subst same
      by_cases here : x = key <;> simp [here]
    · have passed : (x == k) = false := by simpa using same
      by_cases here : (k == key) = true <;> simp [here, List.lookup_cons, passed, ih]

end Tables

/-! ## One statement -/

theorem touch_eq (doc : Document) (label : String) :
    doc.touch label = { doc with nodes := (doc.touch label).nodes } := by
  unfold touch
  split <;> rfl

theorem lookup_touch (doc : Document) (label x : String) :
    (doc.touch label).nodes.lookup x =
      (doc.nodes.lookup x).or (if x = label then some doc.nodeDefaults else none) := by
  unfold touch
  split
  · next known =>
    by_cases same : x = label
    · obtain ⟨attrs, found⟩ := Option.isSome_iff_exists.mp known
      simp [same, found]
    · simp [same]
  · exact lookup_append_singleton doc.nodes label x doc.nodeDefaults

theorem labelsNodup_touch (nodup : (doc.nodes.map Prod.fst).Nodup) (label : String) :
    ((doc.touch label).nodes.map Prod.fst).Nodup := by
  unfold touch
  split
  · exact nodup
  · next unknown =>
    exact keysNodup_append nodup (Option.not_isSome_iff_eq_none.mp unknown) doc.nodeDefaults

theorem foldl_touch_eq (labels : List String) (doc : Document) :
    labels.foldl touch doc = { doc with nodes := (labels.foldl touch doc).nodes } := by
  induction labels generalizing doc with
  | nil => rfl
  | cons label labels ih =>
    rw [List.foldl_cons]
    refine (ih (doc.touch label)).trans ?_
    rw [touch_eq]

theorem lookup_foldl_touch (labels : List String) (doc : Document) (x : String) :
    (labels.foldl touch doc).nodes.lookup x =
      (doc.nodes.lookup x).or (if x ∈ labels then some doc.nodeDefaults else none) := by
  induction labels generalizing doc with
  | nil => simp
  | cons label labels ih =>
    have same : (doc.touch label).nodeDefaults = doc.nodeDefaults := by rw [touch_eq]
    rw [List.foldl_cons, ih, lookup_touch, same, Option.or_assoc]
    by_cases here : x = label <;> simp [here]

theorem labelsNodup_foldl_touch (nodup : (doc.nodes.map Prod.fst).Nodup) (labels : List String) :
    ((labels.foldl touch doc).nodes.map Prod.fst).Nodup := by
  induction labels generalizing doc with
  | nil => exact nodup
  | cons label labels ih => exact ih (labelsNodup_touch nodup label)

/-- A document after these edges have been added, all with the same attributes. -/
structure AddsEdges (doc : Document) (attrs : AttrMap) (pairs : List (String × String))
    (after : Document) : Prop where
  frame : after = { doc with edges := after.edges }
  lookup : ∀ pair, after.edges.lookup pair =
    if pair ∈ pairs then some (((doc.edges.lookup pair).getD .empty).override attrs)
    else doc.edges.lookup pair
  pairsNodup : (doc.edges.map Prod.fst).Nodup → (after.edges.map Prod.fst).Nodup
  single : doc.strict = false → pairs.Nodup ∧ ∀ pair ∈ pairs, doc.edges.lookup pair = none

theorem outcome_addEdge (doc : Document) (line : Nat) (pair : String × String) (attrs : AttrMap) :
    Outcome (AddsEdges doc attrs [pair])
      (fun error => doc.strict = false ∧ doc.edges.lookup pair ≠ none ∧
        ∃ line cause, error = .fault line cause) (doc.addEdge line pair.1 pair.2 attrs) := by
  obtain ⟨source, target⟩ := pair
  unfold addEdge
  split
  · next known =>
    have known : doc.edges.lookup (source, target) ≠ none := Option.isSome_iff_ne_none.mp known
    split
    · next strict =>
      refine ⟨rfl, fun x => ?_, fun nodup => ?_, fun loose => ?_⟩
      · rw [lookup_update]
        obtain ⟨old, found⟩ := Option.ne_none_iff_exists'.mp known
        by_cases same : x = (source, target) <;> simp [same, found]
      · rwa [map_fst_update]
      · rw [strict] at loose
        cases loose
    · next loose => exact ⟨Bool.eq_false_iff.mpr loose, known, line, _, rfl⟩
  · next unknown =>
    have fresh : doc.edges.lookup (source, target) = none :=
      Option.not_isSome_iff_eq_none.mp unknown
    refine ⟨rfl, fun x => ?_, fun nodup => keysNodup_append nodup fresh attrs,
      fun _ => ⟨List.nodup_singleton _, by simpa using fresh⟩⟩
    refine (lookup_append_singleton doc.edges _ x attrs).trans ?_
    by_cases same : x = (source, target) <;> simp [same, fresh]

theorem outcome_addEdges (doc : Document) (line : Nat) (pairs : List (String × String))
    (attrs : AttrMap) :
    Outcome (AddsEdges doc attrs pairs)
      (fun error => doc.strict = false ∧
        ¬(pairs.Nodup ∧ ∀ pair ∈ pairs, doc.edges.lookup pair = none) ∧
        ∃ line cause, error = .fault line cause)
      (pairs.foldlM (fun doc pair => doc.addEdge line pair.1 pair.2 attrs) doc) := by
  have start : AddsEdges doc attrs [] doc := ⟨rfl, by simp, id, by simp⟩
  refine Outcome.foldlM pairs ?_ start
  rintro seen pair rest middle split ⟨frame, lookup, pairsNodup, single⟩
  have strict : middle.strict = doc.strict := by rw [frame]
  -- An edge is known here if it was known before or is one of those just added.
  have known : middle.edges.lookup pair = none ↔ pair ∉ seen ∧ doc.edges.lookup pair = none := by
    rw [lookup]
    by_cases earlier : pair ∈ seen <;> simp [earlier]
  refine (outcome_addEdge middle line pair attrs).mono ?_ ?_
  · rintro after ⟨frame', lookup', pairsNodup', single'⟩
    refine ⟨by rw [frame', frame], fun x => ?_, fun nodup => pairsNodup' (pairsNodup nodup),
      fun loose => ?_⟩
    · -- The same attributes set twice are set.
      rw [lookup', lookup]
      by_cases here : x = pair
      · subst here
        by_cases earlier : x ∈ seen <;> simp [earlier]
      · by_cases earlier : x ∈ seen <;> simp [here, earlier]
    · obtain ⟨nodup, fresh⟩ := single loose
      obtain ⟨new, fresh'⟩ := known.mp ((single' (strict.trans loose)).2 pair List.mem_cons_self)
      refine ⟨nodup.append (List.nodup_singleton pair) (List.disjoint_singleton.mpr new), ?_⟩
      rintro x member
      rcases List.mem_append.mp member with earlier | here
      · exact fresh x earlier
      · exact List.mem_singleton.mp here ▸ fresh'
  · rintro error ⟨loose, again, fault⟩
    refine ⟨strict ▸ loose, fun ⟨nodup, fresh⟩ => again (known.mpr ⟨?_, fresh pair ?_⟩), fault⟩
    · rw [← split, List.nodup_append] at nodup
      exact fun earlier => nodup.2.2 pair earlier pair List.mem_cons_self rfl
    · simp [← split]

/-- A document after one statement. -/
structure Ran (doc : Document) (statement : Statement) (after : Document) : Prop where
  strict : after.strict = doc.strict
  name : after.name = doc.name
  graphAttrs : after.graphAttrs = doc.graphAttrs.insertAll (statement.defaultsOf .graph)
  nodeDefaults : after.nodeDefaults = doc.nodeDefaults.insertAll (statement.defaultsOf .node)
  edgeDefaults : after.edgeDefaults = doc.edgeDefaults.insertAll (statement.defaultsOf .edge)
  nodes : ∀ label, after.nodes.lookup label =
    ((doc.nodes.lookup label).or (if label ∈ statement.labels then some doc.nodeDefaults else none)).map
      (·.insertAll (statement.nodeEntries label))
  labelsNodup : (doc.nodes.map Prod.fst).Nodup → (after.nodes.map Prod.fst).Nodup
  edges : ∀ pair, after.edges.lookup pair =
    if pair ∈ statement.pairs then
      some (((doc.edges.lookup pair).getD .empty).override
        (doc.edgeDefaults.insertAll (statement.edgeEntries pair)))
    else doc.edges.lookup pair
  pairsNodup : (doc.edges.map Prod.fst).Nodup → (after.edges.map Prod.fst).Nodup
  single : doc.strict = false →
    statement.pairs.Nodup ∧ ∀ pair ∈ statement.pairs, doc.edges.lookup pair = none

theorem insertAll_nil : (fun attrs : AttrMap => attrs.insertAll []) = id := rfl

/-- A statement is carried out, unless it repeats an edge where none may be repeated. -/
theorem outcome_run (doc : Document) (statement : Statement) :
    Outcome (Ran doc statement)
      (fun error => doc.strict = false ∧
        ¬(statement.pairs.Nodup ∧ ∀ pair ∈ statement.pairs, doc.edges.lookup pair = none) ∧
        ∃ line cause, error = .fault line cause)
      (doc.run statement) := by
  cases statement with
  | defaults subject entries =>
    cases subject <;>
      exact ⟨rfl, rfl, rfl, rfl, rfl, by simp [Statement.labels, Statement.nodeEntries, insertAll_nil],
        id, by simp [Statement.pairs], id, by simp [Statement.pairs]⟩
  | assign key value =>
    exact ⟨rfl, rfl, rfl, rfl, rfl, by simp [Statement.labels, Statement.nodeEntries, insertAll_nil],
      id, by simp [Statement.pairs], id, by simp [Statement.pairs]⟩
  | node label entries =>
    have frame := touch_eq doc label
    refine ⟨by rw [frame], by rw [frame], by rw [frame]; rfl, by rw [frame]; rfl, by rw [frame]; rfl,
      fun x => ?_, fun nodup => ?_, by rw [frame]; simp [Statement.pairs], by rw [frame]; exact id,
      by simp [Statement.pairs]⟩
    · rw [lookup_update, lookup_touch, Statement.labels, Statement.nodeEntries]
      by_cases same : x = label
      · simp [same]
      · simp [same, Ne.symm same, insertAll_nil]
    · rw [map_fst_update]
      exact labelsNodup_touch nodup label
  | chain line first others entries =>
    have frame := foldl_touch_eq (first :: others) doc
    have edges : ((first :: others).foldl touch doc).edges = doc.edges := by rw [frame]
    have strict : ((first :: others).foldl touch doc).strict = doc.strict := by rw [frame]
    refine (outcome_addEdges ((first :: others).foldl touch doc) line ((first :: others).zip others)
      (doc.edgeDefaults.insertAll entries)).mono ?_ ?_
    · rintro after ⟨kept, lookup, pairsNodup, single⟩
      rw [edges] at lookup pairsNodup single
      rw [strict] at single
      refine ⟨by rw [kept, frame], by rw [kept, frame], by rw [kept, frame]; rfl,
        by rw [kept, frame]; rfl, by rw [kept, frame]; rfl, fun x => ?_, fun nodup => ?_,
        fun pair => ?_, pairsNodup, single⟩
      · rw [kept, lookup_foldl_touch]
        exact Option.map_id'.symm
      · rw [kept]
        exact labelsNodup_foldl_touch nodup _
      · rw [lookup, Statement.pairs, Statement.edgeEntries]
        by_cases mentioned : pair ∈ (first :: others).zip others
        · rw [if_pos mentioned, if_pos mentioned, if_pos mentioned]
        · rw [if_neg mentioned, if_neg mentioned]
    · rintro error ⟨loose, again, fault⟩
      rw [edges] at again
      exact ⟨strict ▸ loose, again, fault⟩

/-! ## All statements -/

/-- What statements write of a node, over the defaults in force at the first of them to mention it,
which comes behind those `before`. -/
def nodeAttrs (before statements : List Statement) (label : String) : AttrMap :=
  (defaultsAfter .node before).insertAll (statements.flatMap (Statement.nodeEntries label))

/-- What statements write of an edge, with the defaults in force at the last of them to mention it
over all of it but what that statement writes itself. -/
def edgeAttrs (before : List Statement) (last : Statement) (statements : List Statement)
    (pair : String × String) : AttrMap :=
  ((AttrMap.ofList (statements.flatMap (Statement.edgeEntries pair))).override
    (defaultsAfter .edge before)).insertAll (last.edgeEntries pair)

/-- What a document knows after these statements. -/
structure Records (strict : Bool) (name : String) (seen : List Statement) (doc : Document) :
    Prop where
  sameStrict : doc.strict = strict
  sameName : doc.name = name
  graphAttrs : doc.graphAttrs = defaultsAfter .graph seen
  nodeDefaults : doc.nodeDefaults = defaultsAfter .node seen
  edgeDefaults : doc.edgeDefaults = defaultsAfter .edge seen
  labelsNodup : (doc.nodes.map Prod.fst).Nodup
  labels : ∀ label, doc.nodes.lookup label ≠ none ↔ label ∈ seen.flatMap Statement.labels
  nodes : ∀ label attrs, doc.nodes.lookup label = some attrs → ∃ before first later,
    seen = before ++ first :: later ∧ label ∉ before.flatMap Statement.labels ∧
      label ∈ first.labels ∧ attrs = nodeAttrs before seen label
  pairsNodup : (doc.edges.map Prod.fst).Nodup
  pairs : ∀ pair, doc.edges.lookup pair ≠ none ↔ pair ∈ seen.flatMap Statement.pairs
  edges : ∀ pair attrs, doc.edges.lookup pair = some attrs → ∃ before last later,
    seen = before ++ last :: later ∧ pair ∈ last.pairs ∧
      pair ∉ later.flatMap Statement.pairs ∧ attrs = edgeAttrs before last seen pair
  single : strict = false → (seen.flatMap Statement.pairs).Nodup

theorem records_start (strict : Bool) (name : String) : Records strict name [] (start strict name) := by
  constructor <;> simp [start, defaultsAfter, AttrMap.ofList, AttrMap.insertAll]

theorem defaultsAfter_snoc (subject : Subject) (seen : List Statement) (statement : Statement) :
    defaultsAfter subject (seen ++ [statement]) =
      (defaultsAfter subject seen).insertAll (statement.defaultsOf subject) := by
  rw [defaultsAfter, List.flatMap_append, List.flatMap_singleton, AttrMap.ofList_append]
  rfl

/-- Defaults once set stay set. -/
theorem defaultsAfter_mono (subject : Subject) (before later : List Statement) (key : String)
    (set : (defaultsAfter subject before).get? key ≠ none) :
    (defaultsAfter subject (before ++ later)).get? key ≠ none := by
  rw [defaultsAfter, List.flatMap_append, AttrMap.ofList_append, AttrMap.get?_insertAll]
  intro unset
  exact set (Option.or_eq_none_iff.mp unset).2

theorem nodeEntries_of_not_mentioned {label : String} {seen : List Statement}
    (new : label ∉ seen.flatMap Statement.labels) :
    seen.flatMap (Statement.nodeEntries label) = [] := by
  rw [List.flatMap_eq_nil_iff]
  intro statement member
  exact Statement.nodeEntries_of_not_mem fun mentioned =>
    new (List.mem_flatMap.mpr ⟨statement, member, mentioned⟩)

theorem edgeEntries_of_not_mentioned {pair : String × String} {seen : List Statement}
    (new : pair ∉ seen.flatMap Statement.pairs) :
    seen.flatMap (Statement.edgeEntries pair) = [] := by
  rw [List.flatMap_eq_nil_iff]
  intro statement member
  exact Statement.edgeEntries_of_not_mem fun mentioned =>
    new (List.mem_flatMap.mpr ⟨statement, member, mentioned⟩)

/-- A node that is mentioned first. -/
theorem nodeAttrs_first {seen : List Statement} {label : String}
    (new : label ∉ seen.flatMap Statement.labels) (statement : Statement) :
    nodeAttrs seen (seen ++ [statement]) label =
      (defaultsAfter .node seen).insertAll (statement.nodeEntries label) := by
  rw [nodeAttrs, List.flatMap_append, nodeEntries_of_not_mentioned new, List.flatMap_singleton,
    List.nil_append]

/-- A node that was mentioned before. -/
theorem nodeAttrs_again (before seen : List Statement) (statement : Statement) (label : String) :
    nodeAttrs before (seen ++ [statement]) label =
      (nodeAttrs before seen label).insertAll (statement.nodeEntries label) := by
  rw [nodeAttrs, List.flatMap_append, List.flatMap_singleton, AttrMap.insertAll_append]
  rfl

/-- An edge that is mentioned first. -/
theorem edgeAttrs_first {seen : List Statement} {pair : String × String}
    (new : pair ∉ seen.flatMap Statement.pairs) (statement : Statement) :
    edgeAttrs seen statement (seen ++ [statement]) pair =
      (defaultsAfter .edge seen).insertAll (statement.edgeEntries pair) := by
  refine AttrMap.ext_get? fun key => ?_
  rw [edgeAttrs, List.flatMap_append, edgeEntries_of_not_mentioned new, List.flatMap_singleton,
    List.nil_append, AttrMap.get?_insertAll, AttrMap.get?_insertAll, AttrMap.get?_override,
    AttrMap.get?_ofList_last]
  cases (statement.edgeEntries pair).reverse.lookup key <;> simp

/-- An edge that is mentioned again. -/
theorem edgeAttrs_again {before later : List Statement} {last : Statement} {pair : String × String}
    (passed : pair ∉ later.flatMap Statement.pairs) (statement : Statement) :
    edgeAttrs (before ++ last :: later) statement (before ++ last :: later ++ [statement]) pair =
      (edgeAttrs before last (before ++ last :: later) pair).override
        ((defaultsAfter .edge (before ++ last :: later)).insertAll (statement.edgeEntries pair)) := by
  refine AttrMap.ext_get? fun key => ?_
  have set := defaultsAfter_mono .edge before (last :: later) key
  simp only [edgeAttrs, List.flatMap_append, List.flatMap_cons, List.flatMap_nil,
    edgeEntries_of_not_mentioned passed, List.append_nil, AttrMap.get?_insertAll,
    AttrMap.get?_override, AttrMap.get?_ofList_last, List.reverse_append, List.lookup_append]
  -- What neither the statement nor a default sets was not set by a default before.
  cases (statement.edgeEntries pair).reverse.lookup key with
  | some value => rfl
  | none =>
    cases now : (defaultsAfter .edge (before ++ last :: later)).get? key with
    | some value => rfl
    | none =>
      have unset : (defaultsAfter .edge before).get? key = none := by
        by_contra held
        exact set held now
      rw [unset]
      cases (last.edgeEntries pair).reverse.lookup key <;> simp

theorem Records.run {strict : Bool} {name : String} {seen : List Statement} {statement : Statement}
    (records : Records strict name seen doc) (ran : Ran doc statement after) :
    Records strict name (seen ++ [statement]) after where
  sameStrict := ran.strict.trans records.sameStrict
  sameName := ran.name.trans records.sameName
  graphAttrs := by rw [ran.graphAttrs, records.graphAttrs, defaultsAfter_snoc]
  nodeDefaults := by rw [ran.nodeDefaults, records.nodeDefaults, defaultsAfter_snoc]
  edgeDefaults := by rw [ran.edgeDefaults, records.edgeDefaults, defaultsAfter_snoc]
  labelsNodup := ran.labelsNodup records.labelsNodup
  labels label := by
    have before := records.labels label
    rw [ran.nodes, ne_eq, Option.map_eq_none_iff, Option.or_eq_none_iff, not_and_or,
      List.flatMap_append, List.mem_append]
    refine or_congr before ?_
    by_cases mentioned : label ∈ statement.labels <;> simp [mentioned]
  nodes label attrs found := by
    rw [ran.nodes] at found
    obtain ⟨old, known, rfl⟩ := Option.map_eq_some_iff.mp found
    rcases Option.or_eq_some_iff.mp known with known | ⟨unknown, new⟩
    · obtain ⟨before, first, later, rfl, new, mentioned, rfl⟩ := records.nodes label old known
      refine ⟨before, first, later ++ [statement], by simp, new, mentioned, ?_⟩
      exact (nodeAttrs_again before _ statement label).symm
    · have unmentioned : label ∉ seen.flatMap Statement.labels :=
        fun mentioned => (records.labels label).mpr mentioned unknown
      obtain ⟨mentioned, rfl⟩ : label ∈ statement.labels ∧ doc.nodeDefaults = old := by
        simpa using new
      refine ⟨seen, statement, [], rfl, unmentioned, mentioned, ?_⟩
      rw [records.nodeDefaults, nodeAttrs_first unmentioned]
  pairsNodup := ran.pairsNodup records.pairsNodup
  pairs pair := by
    have before := records.pairs pair
    rw [ran.edges, List.flatMap_append, List.mem_append, ← before]
    by_cases mentioned : pair ∈ statement.pairs <;> simp [mentioned]
  edges pair attrs found := by
    rw [ran.edges] at found
    split at found
    · next mentioned =>
      refine ⟨seen, statement, [], rfl, mentioned, by simp, ?_⟩
      rw [← Option.some.inj found, records.edgeDefaults]
      cases known : doc.edges.lookup pair with
      | none =>
        have new : pair ∉ seen.flatMap Statement.pairs :=
          fun earlier => (records.pairs pair).mpr earlier known
        rw [edgeAttrs_first new]
        simp
      | some old =>
        obtain ⟨before, last, later, rfl, -, passed, rfl⟩ := records.edges pair old known
        exact (edgeAttrs_again passed statement).symm
    · next unmentioned =>
      obtain ⟨before, last, later, rfl, mentioned, passed, rfl⟩ := records.edges pair attrs found
      refine ⟨before, last, later ++ [statement], by simp, mentioned, by simp [passed, unmentioned],
        ?_⟩
      simp [edgeAttrs, Statement.edgeEntries_of_not_mem unmentioned]
  single loose := by
    obtain ⟨nodup, fresh⟩ := ran.single (records.sameStrict.trans loose)
    rw [List.flatMap_append, List.flatMap_singleton]
    refine (records.single loose).append nodup fun pair earlier here => ?_
    exact (records.pairs pair).mpr earlier (fresh pair here)

/-- Statements are carried out, unless an edge is repeated where none may be repeated. -/
theorem outcome_ofText (strict : Bool) (name : String) (statements : List Statement) :
    Outcome (Records strict name statements)
      (fun error => strict = false ∧ ¬(statements.flatMap Statement.pairs).Nodup ∧
        ∃ line cause, error = .fault line cause)
      (ofText ⟨strict, name, ⟨statements, none⟩⟩) := by
  have start := records_start strict name
  refine Outcome.bind (Outcome.foldlM statements ?_ start) fun doc records => records
  intro seen statement rest doc split records
  refine (outcome_run doc statement).mono (fun after => records.run) ?_
  rintro error ⟨loose, again, fault⟩
  rw [records.sameStrict] at loose
  refine ⟨loose, fun nodup => again ?_, fault⟩
  rw [← split, List.flatMap_append, List.flatMap_cons, ← List.append_assoc] at nodup
  obtain ⟨-, here, apart⟩ := List.nodup_append.mp nodup.of_append_left
  refine ⟨here, fun pair mentioned => ?_⟩
  by_contra known
  exact apart pair ((records.pairs pair).mp known) pair mentioned rfl

end Document

end ControlFlow.Dot
