import ControlFlow.Proofs.Graph.Walk

/-! What a depth-first search finds. It visits every available node that can be reached from its
roots through available nodes, and none twice; it descends to every visited node from a root, each
time to a node that is left earlier. In reverse postorder therefore an edge leads to every node but
the start from a node before it, and an edge to a node before its source leads back to a node that
the search descended from. -/
namespace ControlFlow

namespace Forest

theorem postorder_perm (forest : Forest) : forest.postorder.Perm forest.preorder := by
  induction forest with
  | empty => exact .refl _
  | tree root below right belowIh rightIh =>
    exact List.perm_middle.trans ((belowIh.append rightIh).cons root)

theorem mem_postorder {forest : Forest} {id : NodeId} :
    id ∈ forest.postorder ↔ id ∈ forest.preorder :=
  forest.postorder_perm.mem_iff

/-- The first node is the root of a tree that the second one belongs to. -/
def Above : Forest → NodeId → NodeId → Prop
  | empty, _, _ => False
  | tree root below right, a, b =>
    a = root ∧ (b = root ∨ b ∈ below.preorder) ∨ below.Above a b ∨ right.Above a b

/-- A root is met before the other nodes of its tree and left after them. -/
theorem Above.order {forest : Forest} {a b : NodeId} (above : forest.Above a b) :
    a = b ∨ [a, b].Sublist forest.preorder ∧ [b, a].Sublist forest.postorder := by
  induction forest with
  | empty => exact above.elim
  | tree root below right belowIh rightIh =>
    simp only [preorder, postorder]
    rcases above with ⟨rfl, rfl | member⟩ | inside | inside
    · exact .inl rfl
    · refine .inr ⟨(List.singleton_sublist.mpr (List.mem_append_left _ member)).cons_cons a, ?_⟩
      exact (List.singleton_sublist.mpr (mem_postorder.mpr member)).append
        (List.singleton_sublist.mpr List.mem_cons_self)
    · refine (belowIh inside).imp_right fun ⟨met, left⟩ => ⟨?_, ?_⟩
      · exact (met.trans (List.sublist_append_left _ _)).cons root
      · exact left.trans (List.sublist_append_left _ _)
    · refine (rightIh inside).imp_right fun ⟨met, left⟩ => ⟨?_, ?_⟩
      · exact (met.trans (List.sublist_append_right _ _)).cons root
      · exact (left.cons root).trans (List.sublist_append_right _ _)

end Forest

/-- Control passes to an available node. -/
def Available (succs : NodeId → List NodeId) (available : List NodeId) (a b : NodeId) : Prop :=
  b ∈ succs a ∧ b ∈ available

/-- An edge leads down, to a node that is left earlier. -/
def Descends (succs : NodeId → List NodeId) (forest : Forest) (a b : NodeId) : Prop :=
  b ∈ succs a ∧ [b, a].Sublist forest.postorder

/-- The search went from one node down to another one. -/
abbrev Descended (succs : NodeId → List NodeId) (forest : Forest) : NodeId → NodeId → Prop :=
  Relation.ReflTransGen (Descends succs forest)

theorem Descended.mono {succs : NodeId → List NodeId} {part whole : Forest} {a b : NodeId}
    (sublist : part.postorder.Sublist whole.postorder) (path : Descended succs part a b) :
    Descended succs whole a b :=
  Relation.ReflTransGen.mono (fun _ _ hop => ⟨hop.1, hop.2.trans sublist⟩) _ _ path

/-- A forest and what it leaves over are the outcome of a search from some roots among the
available nodes. -/
structure Searched (succs : NodeId → List NodeId) (available roots : List NodeId)
    (forest : Forest) (rest : List NodeId) : Prop where
  /-- Nodes are either visited, once, or left over. -/
  split : (forest.preorder ++ rest).Perm available
  rootsVisited : ∀ root ∈ roots, root ∉ rest
  /-- No edge leads from a visited node to one that is left over. -/
  closed : ∀ a ∈ forest.preorder, ∀ b ∈ succs a, b ∉ rest
  reached : ∀ b ∈ forest.preorder,
    ∃ root ∈ roots, root ∈ available ∧ Relation.ReflTransGen (Available succs available) root b
  descended : ∀ b ∈ forest.preorder, ∃ root ∈ roots, Descended succs forest root b
  /-- An edge from a visited node leads to a node that is left earlier, or back to one from which
  the search went down to its source. -/
  returns : ∀ a ∈ forest.preorder, ∀ b ∈ succs a, b ∈ available →
    [b, a].Sublist forest.postorder ∨ Descended succs forest b a ∧ forest.Above b a

namespace Searched

variable {succs : NodeId → List NodeId} {available roots rest : List NodeId} {forest : Forest}

theorem nothing (available : List NodeId) : Searched succs available [] .empty available where
  split := .refl _
  rootsVisited := by simp
  closed := by simp [Forest.preorder]
  reached := by simp [Forest.preorder]
  descended := by simp [Forest.preorder]
  returns := by simp [Forest.preorder]

/-- A visited node is a root or was entered from a node that is left after it. -/
theorem entered (searched : Searched succs available roots forest rest) {b : NodeId}
    (member : b ∈ forest.preorder) :
    b ∈ roots ∨ ∃ a, b ∈ succs a ∧ [b, a].Sublist forest.postorder := by
  obtain ⟨root, isRoot, path⟩ := searched.descended b member
  cases path with
  | refl => exact .inl isRoot
  | tail _ hop => exact .inr ⟨_, hop⟩

/-- An available node is visited or left over. -/
theorem visited_of_not_mem_rest (searched : Searched succs available roots forest rest)
    {id : NodeId} (live : id ∈ available) (fresh : id ∉ rest) : id ∈ forest.preorder :=
  (List.mem_append.mp (searched.split.mem_iff.mpr live)).resolve_right fresh

theorem rest_subset (searched : Searched succs available roots forest rest) : rest ⊆ available :=
  fun _ member => searched.split.subset (List.mem_append_right _ member)

theorem length_le (searched : Searched succs available roots forest rest) :
    rest.length ≤ available.length := by
  rw [← searched.split.length_eq, List.length_append]
  exact Nat.le_add_left _ _

theorem rest_nodup (searched : Searched succs available roots forest rest)
    (nodup : available.Nodup) : rest.Nodup :=
  (searched.split.nodup_iff.mpr nodup).of_append_right

theorem preorder_nodup (searched : Searched succs available roots forest rest)
    (nodup : available.Nodup) : forest.preorder.Nodup :=
  (searched.split.nodup_iff.mpr nodup).of_append_left

/-- A root that is not available changes nothing. -/
theorem skip {root : NodeId} (searched : Searched succs available roots forest rest)
    (missing : root ∉ available) : Searched succs available (root :: roots) forest rest where
  split := searched.split
  rootsVisited other member := by
    rcases List.mem_cons.mp member with rfl | member
    · exact fun left => missing (searched.rest_subset left)
    · exact searched.rootsVisited other member
  closed := searched.closed
  reached b member := by
    obtain ⟨origin, isRoot, found⟩ := searched.reached b member
    exact ⟨origin, List.mem_cons_of_mem _ isRoot, found⟩
  descended b member := by
    obtain ⟨origin, isRoot, path⟩ := searched.descended b member
    exact ⟨origin, List.mem_cons_of_mem _ isRoot, path⟩
  returns := searched.returns

/-- From its root the search descends to every node of a tree. -/
theorem descended_tree {root : NodeId} {below : Forest} (right : Forest)
    (descent : Searched succs available (succs root) below rest) {b : NodeId}
    (member : b ∈ below.preorder) : Descended succs (.tree root below right) root b := by
  obtain ⟨child, edge, path⟩ := descent.descended b member
  have visited : child ∈ below.postorder := by
    rcases path.cases_head with rfl | ⟨next, hop, -⟩
    · exact Forest.mem_postorder.mpr member
    · exact hop.2.subset (by simp)
  have down : [child, root].Sublist (Forest.tree root below right).postorder :=
    (List.singleton_sublist.mpr visited).append (List.singleton_sublist.mpr List.mem_cons_self)
  exact .head ⟨edge, down⟩ (Descended.mono (List.sublist_append_left _ _) path)

/-- The search from an available root: first what lies below it, then the other roots. -/
theorem tree {root : NodeId} {below right : Forest} {between : List NodeId}
    (live : root ∈ available) (nodup : available.Nodup)
    (descent : Searched succs (available.erase root) (succs root) below between)
    (others : Searched succs between roots right rest) :
    Searched succs available (root :: roots) (.tree root below right) rest where
  split := by
    have inner : (below.preorder ++ (right.preorder ++ rest)).Perm (available.erase root) :=
      (others.split.append_left below.preorder).trans descent.split
    have whole := (inner.cons root).trans (List.perm_cons_erase live).symm
    simpa [Forest.preorder] using whole
  rootsVisited other member := by
    rcases List.mem_cons.mp member with rfl | member
    · exact fun left =>
        nodup.not_mem_erase (descent.rest_subset (others.rest_subset left))
    · exact others.rootsVisited other member
  closed a member b edge left := by
    have between := others.rest_subset left
    simp only [Forest.preorder, List.mem_cons, List.mem_append] at member
    rcases member with rfl | member | member
    · exact descent.rootsVisited b edge between
    · exact descent.closed a member b edge between
    · exact others.closed a member b edge left
  reached b member := by
    simp only [Forest.preorder, List.mem_cons, List.mem_append] at member
    rcases member with rfl | member | member
    · exact ⟨b, List.mem_cons_self, live, .refl⟩
    · obtain ⟨child, edge, childLive, path⟩ := descent.reached b member
      have wider : Relation.ReflTransGen (Available succs available) child b :=
        Relation.ReflTransGen.mono (fun _ _ hop => ⟨hop.1, List.mem_of_mem_erase hop.2⟩) _ _ path
      exact ⟨root, List.mem_cons_self, live,
        .head ⟨edge, List.mem_of_mem_erase childLive⟩ wider⟩
    · obtain ⟨origin, isRoot, originLive, path⟩ := others.reached b member
      have inside {id : NodeId} (member : id ∈ between) : id ∈ available :=
        List.mem_of_mem_erase (descent.rest_subset member)
      exact ⟨origin, List.mem_cons_of_mem _ isRoot, inside originLive,
        Relation.ReflTransGen.mono (fun _ _ hop => ⟨hop.1, inside hop.2⟩) _ _ path⟩
  descended b member := by
    simp only [Forest.preorder, List.mem_cons, List.mem_append] at member
    rcases member with rfl | member | member
    · exact ⟨b, List.mem_cons_self, .refl⟩
    · exact ⟨root, List.mem_cons_self, descent.descended_tree right member⟩
    · obtain ⟨origin, isRoot, path⟩ := others.descended b member
      exact ⟨origin, List.mem_cons_of_mem _ isRoot, path.mono
        ((List.sublist_cons_self _ _).trans (List.sublist_append_right _ _))⟩
  returns a member b edge target := by
    have belowOf (fresh : b ∉ between) (other : b ≠ root) : b ∈ below.postorder :=
      Forest.mem_postorder.mpr (descent.visited_of_not_mem_rest
        ((List.mem_erase_of_ne other).mpr target) fresh)
    have toRoot {c : NodeId} (first : b = root ∨ b ∈ below.postorder)
        (second : c ∈ right.postorder) :
        [b, c].Sublist (below.postorder ++ root :: right.postorder) := by
      have later := List.singleton_sublist.mpr second
      rcases first with rfl | first
      · exact (later.cons_cons b).trans (List.sublist_append_right _ _)
      · exact (List.singleton_sublist.mpr first).append (later.cons root)
    simp only [Forest.preorder, List.mem_cons, List.mem_append] at member
    rcases member with rfl | member | member
    · by_cases same : b = a
      · exact .inr ⟨same ▸ .refl, .inl ⟨same, .inl rfl⟩⟩
      · have inside := belowOf (descent.rootsVisited b edge) same
        exact .inl ((List.singleton_sublist.mpr inside).append
          (List.singleton_sublist.mpr List.mem_cons_self))
    · by_cases same : b = root
      · exact .inr ⟨same ▸ descent.descended_tree right member, .inl ⟨same, .inr member⟩⟩
      · have live : b ∈ available.erase root := (List.mem_erase_of_ne same).mpr target
        exact (descent.returns a member b edge live).imp
          (fun earlier => earlier.trans (List.sublist_append_left _ _))
          (And.imp (Descended.mono (List.sublist_append_left _ _)) fun within => .inr (.inl within))
    · have rightPart : right.postorder.Sublist (below.postorder ++ root :: right.postorder) :=
        (List.sublist_cons_self _ _).trans (List.sublist_append_right _ _)
      by_cases waiting : b ∈ between
      · exact (others.returns a member b edge waiting).imp
          (fun earlier => earlier.trans rightPart)
          (And.imp (Descended.mono rightPart) fun within => .inr (.inr within))
      · refine .inl (toRoot ?_ (Forest.mem_postorder.mpr member))
        by_cases same : b = root
        · exact .inl same
        · exact .inr (belowOf waiting same)

end Searched

private theorem searchRoots_searched {succs : NodeId → List NodeId} {depth : Nat}
    {descend : List NodeId → List NodeId → Forest × List NodeId}
    (deeper : ∀ available roots : List NodeId, available.Nodup → available.length ≤ depth →
      Searched succs available roots (descend available roots).1 (descend available roots).2)
    (roots : List NodeId) {available : List NodeId} (nodup : available.Nodup)
    (bound : available.length ≤ depth + 1) :
    Searched succs available roots (searchRoots succs descend available roots).1
      (searchRoots succs descend available roots).2 := by
  induction roots generalizing available with
  | nil => exact .nothing available
  | cons root roots ih =>
    by_cases live : root ∈ available
    · have shorter : (available.erase root).length ≤ depth := by
        rw [List.length_erase_of_mem live]
        omega
      have descent := deeper (available.erase root) (succs root) (nodup.erase root) shorter
      have others := ih (descent.rest_nodup (nodup.erase root))
        (Nat.le_trans descent.length_le (Nat.le_succ_of_le shorter))
      have contained : available.contains root = true := List.contains_iff_mem.mpr live
      simp only [searchRoots, contained, ↓reduceIte]
      exact .tree live nodup descent others
    · have missing : available.contains root = false := by simpa using live
      simp only [searchRoots, missing, Bool.false_eq_true, ↓reduceIte]
      exact (ih nodup bound).skip live

/-- A depth of the number of available nodes is enough. -/
theorem searchTo_searched {succs : NodeId → List NodeId} {depth : Nat}
    (available roots : List NodeId) (nodup : available.Nodup) (bound : available.length ≤ depth) :
    Searched succs available roots (searchTo succs depth available roots).1
      (searchTo succs depth available roots).2 := by
  induction depth generalizing available roots with
  | zero =>
    obtain rfl := List.eq_nil_of_length_eq_zero (Nat.le_zero.mp bound)
    exact ⟨.refl _, by simp [searchTo], by simp [searchTo, Forest.preorder],
      by simp [searchTo, Forest.preorder], by simp [searchTo, Forest.preorder],
      by simp [searchTo, Forest.preorder]⟩
  | succ depth ih => exact searchRoots_searched ih roots nodup bound

theorem searchFrom_searched {succs : NodeId → List NodeId} {available roots : List NodeId}
    (nodup : available.Nodup) :
    ∃ rest, Searched succs available roots (searchFrom succs available roots) rest :=
  ⟨_, searchTo_searched available roots nodup (Nat.le_refl _)⟩

/-- The visited nodes are those that can be reached from an available root. -/
theorem mem_searchFrom {succs : NodeId → List NodeId} {available roots : List NodeId}
    (nodup : available.Nodup) {b : NodeId} :
    b ∈ (searchFrom succs available roots).preorder ↔
      ∃ root ∈ roots, root ∈ available ∧
        Relation.ReflTransGen (Available succs available) root b := by
  obtain ⟨rest, searched⟩ := @searchFrom_searched succs available roots nodup
  refine ⟨searched.reached b, ?_⟩
  rintro ⟨root, isRoot, live, path⟩
  induction path with
  | refl => exact searched.visited_of_not_mem_rest live (searched.rootsVisited root isRoot)
  | tail _ hop ih => exact searched.visited_of_not_mem_rest hop.2 (searched.closed _ ih _ hop.1)

end ControlFlow
