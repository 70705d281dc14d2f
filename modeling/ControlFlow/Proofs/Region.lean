import ControlFlow.Proofs.AttrMap
import ControlFlow.Proofs.Except
import ControlFlow.Proofs.Graph.WellFormed
import ControlFlow.Region

/-! Regions and their roles. Kinds and roles are told apart by their names, so the roles of a region are
those that it is cast in, and a region is read from a kind and roles exactly if they are its own: each
kind of region asks for its roles by name, and none may be left over. -/
namespace ControlFlow

/-! ## Names -/

namespace RegionKind

theorem mem_all (kind : RegionKind) : kind ∈ all := by
  cases kind with
  | shortCircuit junction => cases junction <;> decide
  | _ => decide

theorem names_nodup : (all.map name).Nodup := by decide

theorem ofName?_eq_some_iff {text : String} {kind : RegionKind} :
    ofName? text = some kind ↔ kind.name = text := by
  rw [ofName?, FlowGraph.find?_key names_nodup, and_iff_right kind.mem_all]

end RegionKind

namespace Role

/-- The roles that are not those of the arms of a switch. -/
def fixed : List Role :=
  [entry, exit, cond, body, bodyTrue, bodyFalse, latch, follow, condA, condB]

theorem mem_fixed (role : Role) : role ∈ fixed ∨ ∃ index, role = arm index := by
  cases role with
  | arm index => exact .inr ⟨index, rfl⟩
  | _ => exact .inl (by decide)

/-- The name of an arm ends in a digit. -/
theorem name_arm_last (index : Nat) : (arm index).name.toList.getLast?.any Char.isDigit = true := by
  have digits : (toString index).toList = Nat.toDigits 10 index := Nat.toList_repr
  obtain ⟨last, ends⟩ := Option.ne_none_iff_exists'.mp
    (List.getLast?_eq_none_iff.not.mpr (Nat.toDigits_ne_nil (n := index) (b := 10)))
  have digit : last.isDigit = true :=
    Nat.isDigit_of_mem_toDigits (by decide) (by decide) (List.mem_of_getLast? ends)
  have split : (arm index).name.toList = "body_".toList ++ Nat.toDigits 10 index := by
    rw [name, String.toList_append, digits]
  rw [split, List.getLast?_append, ends, Option.some_or, Option.any_some, digit]

theorem name_fixed_last : ∀ role ∈ fixed, role.name.toList.getLast?.any Char.isDigit = false := by
  decide

theorem name_injective : Function.Injective name := by
  have apart {role : Role} (listed : role ∈ fixed) (index : Nat) : role.name ≠ (arm index).name := by
    intro same
    have last := name_arm_last index
    rw [← same, name_fixed_last role listed] at last
    cases last
  intro a b same
  rcases a.mem_fixed with left | ⟨i, rfl⟩ <;> rcases b.mem_fixed with right | ⟨j, rfl⟩
  · exact List.inj_on_of_nodup_map (f := name) (l := fixed) (by decide) left right same
  · exact absurd same (apart left j)
  · exact absurd same.symm (apart right i)
  · simp only [name, String.append_right_inj] at same
    rw [Nat.repr_inj.mp same]

end Role

namespace Region

variable {kind : RegionKind} {roles : AttrMap} {region : Region} {role : Role} {label : String}

/-! ## The roles of a region -/

theorem cast_nodup (region : Region) : (region.cast.map Prod.fst).Nodup := by
  cases region with
  | loop kind head latch follow => cases follow <;> simp [cast]
  | switch cond follow bodies =>
    have arms : ((bodies.mapIdx fun i body => (Role.arm i, body)).map Prod.fst).Nodup := by
      refine List.nodup_iff_injective_get.mpr fun i j same => Fin.ext ?_
      simpa using same
    simp only [cast, List.cons_append, List.nil_append, List.map_cons, List.nodup_cons]
    exact ⟨by simp, by simp, arms⟩
  | _ => simp [cast]

/-- The names of the roles of a region and the labels of its blocks. -/
def entries (region : Region) : List (String × String) :=
  region.cast.map fun (role, label) => (role.name, label)

theorem entries_nodup (region : Region) : (region.entries.map Prod.fst).Nodup := by
  have names : region.entries.map Prod.fst = (region.cast.map Prod.fst).map Role.name := by
    simp [entries]
  rw [names]
  exact region.cast_nodup.map Role.name_injective

theorem get?_roles_eq_some_iff {key : String} :
    region.roles.get? key = some label ↔ (key, label) ∈ region.entries := by
  have read : region.roles.get? key = region.entries.lookup key :=
    AttrMap.get?_ofList region.entries_nodup key
  rw [read, AttrMap.lookup_eq_some_iff region.entries_nodup]

theorem get?_role_eq_some_iff :
    region.roles.get? role.name = some label ↔ (role, label) ∈ region.cast := by
  rw [get?_roles_eq_some_iff, entries, List.mem_map]
  constructor
  · rintro ⟨⟨other, _⟩, member, same⟩
    obtain ⟨name, rfl⟩ := Prod.mk.inj same
    rwa [← Role.name_injective name]
  · intro member
    exact ⟨_, member, rfl⟩

theorem length_cast_le (region : Region) : region.cast.length ≤ region.roles.entries.length := by
  have inside : region.entries ⊆ region.roles.entries := fun entry member =>
    AttrMap.get?_eq_some_iff.mp (get?_roles_eq_some_iff.mpr member)
  have shorter := ((region.entries_nodup.of_map _).subperm inside).length_le
  rwa [entries, List.length_map] at shorter

/-! ## Reading what is needed -/

theorem need_eq_ok_iff : need kind roles role = .ok label ↔ roles.get? role.name = some label := by
  rw [need]
  cases roles.get? role.name <;> simp

/-- The arms that are read are those that the roles name. -/
theorem get?_of_armsFrom {index bound i : Nat} {body : String}
    (read : (armsFrom roles index bound)[i]? = some body) :
    roles.get? (Role.arm (index + i)).name = some body := by
  induction bound generalizing index i with
  | zero => simp [armsFrom] at read
  | succ bound ih =>
    rw [armsFrom] at read
    split at read
    · next first found =>
      cases i with
      | zero => simpa [found] using read
      | succ i =>
        have following : (armsFrom roles (index + 1) bound)[i]? = some body := by simpa using read
        have later := ih following
        rwa [Nat.add_assoc, Nat.add_comm 1 i] at later
    · simp at read

/-- The arms are read up to the first number that no role has. -/
theorem armsFrom_eq {index bound : Nat} {bodies : List String}
    (arms : ∀ i, roles.get? (Role.arm (index + i)).name = bodies[i]?)
    (enough : bodies.length ≤ bound) : armsFrom roles index bound = bodies := by
  induction bound generalizing index bodies with
  | zero => rw [armsFrom, List.eq_nil_of_length_eq_zero (Nat.le_zero.mp enough)]
  | succ bound ih =>
    have first := arms 0
    rw [Nat.add_zero] at first
    cases bodies with
    | nil => rw [armsFrom, first, List.getElem?_nil]
    | cons body rest =>
      rw [armsFrom, first, List.getElem?_cons_zero]
      refine congrArg (body :: ·) (ih (fun i => ?_) (Nat.le_of_succ_le_succ enough))
      have later := arms (i + 1)
      rwa [List.getElem?_cons_succ, Nat.add_comm i 1, ← Nat.add_assoc] at later

/-- A region that is read is of the kind asked for and plays roles that have been given. -/
theorem cast_of_ofNeededRoles (read : ofNeededRoles kind roles = .ok region) :
    region.kind = kind ∧ ∀ entry ∈ region.cast, roles.get? entry.1.name = some entry.2 := by
  have loop {kind : RegionKind} {loopKind : LoopKind}
      (read : loopOfRoles kind loopKind roles = .ok region) :
      region.kind = loopKind.regionKind ∧
        ∀ entry ∈ region.cast, roles.get? entry.1.name = some entry.2 := by
    simp only [loopOfRoles, bind_eq_ok_iff, need_eq_ok_iff, pure, Except.pure, Except.ok.injEq]
      at read
    obtain ⟨head, headRead, latch, latchRead, rfl⟩ := read
    refine ⟨rfl, ?_⟩
    cases followRead : roles.get? Role.follow.name <;>
      simp [cast, headRead, latchRead, followRead]
  cases kind <;>
    simp only [ofNeededRoles, bind_eq_ok_iff, need_eq_ok_iff, pure, Except.pure, Except.ok.injEq]
      at read
  case seq =>
    obtain ⟨entry, entryRead, exit, exitRead, rfl⟩ := read
    simp [Region.kind, cast, entryRead, exitRead]
  case ifThen | ifReturn =>
    obtain ⟨cond, condRead, body, bodyRead, exit, exitRead, rfl⟩ := read
    simp [Region.kind, cast, condRead, bodyRead, exitRead]
  case ifElse =>
    obtain ⟨cond, condRead, bodyTrue, trueRead, bodyFalse, falseRead, exit, exitRead, rfl⟩ := read
    simp [Region.kind, cast, condRead, trueRead, falseRead, exitRead]
  case preLoop =>
    split at read
    · exact loop read
    · simp only [bind_eq_ok_iff, need_eq_ok_iff, Except.ok.injEq] at read
      obtain ⟨cond, condRead, body, bodyRead, exit, exitRead, rfl⟩ := read
      simp [Region.kind, cast, condRead, bodyRead, exitRead]
  case postLoop =>
    split at read
    · exact loop read
    · simp only [bind_eq_ok_iff, need_eq_ok_iff, Except.ok.injEq] at read
      obtain ⟨cond, condRead, exit, exitRead, rfl⟩ := read
      simp [Region.kind, cast, condRead, exitRead]
  case endlessLoop => exact loop read
  case switch =>
    obtain ⟨cond, condRead, follow, followRead, rfl⟩ := read
    refine ⟨rfl, fun entry member => ?_⟩
    simp only [cast, List.cons_append, List.nil_append, List.mem_cons] at member
    rcases member with rfl | rfl | member
    · exact condRead
    · exact followRead
    · obtain ⟨i, inside, rfl⟩ := List.mem_mapIdx.mp member
      have read := get?_of_armsFrom (List.getElem?_eq_getElem inside)
      rwa [Nat.zero_add] at read
  case shortCircuit junction =>
    obtain ⟨condA, aRead, condB, bRead, bodyTrue, trueRead, bodyFalse, falseRead, rfl⟩ := read
    simp [Region.kind, cast, aRead, bRead, trueRead, falseRead]

/-- A region is read from its own roles. -/
theorem ofNeededRoles_roles (region : Region) :
    ofNeededRoles region.kind region.roles = .ok region := by
  have given : ∀ entry ∈ region.cast, region.roles.get? entry.1.name = some entry.2 :=
    fun _ member => get?_role_eq_some_iff.mpr member
  have missing (role : Role) (absent : ∀ entry ∈ region.cast, entry.1 ≠ role) :
      region.roles.get? role.name = none :=
    Option.eq_none_iff_forall_ne_some.mpr fun label found =>
      absent _ (get?_role_eq_some_iff.mp found) rfl
  cases region with
  | loop kind head latch follow =>
    have named : (loop kind head latch follow).roles.get? Role.follow.name = follow := by
      cases follow with
      | none => exact missing .follow (by simp [cast])
      | some label => exact given (.follow, label) (by simp [cast])
    obtain ⟨headRead, latchRead, -⟩ := by
      simpa only [cast, List.cons_append, List.forall_mem_cons] using given
    have read : loopOfRoles kind.regionKind kind (loop kind head latch follow).roles =
        .ok (loop kind head latch follow) := by
      simp only [loopOfRoles, need, headRead, latchRead, named]
      rfl
    cases kind <;>
      simpa [ofNeededRoles, Region.kind, LoopKind.regionKind, latchRead] using read
  | preLoop cond body exit | postLoop cond exit =>
    have latch := missing .latch (by simp [cast])
    simp only [cast, List.forall_mem_cons] at given
    simp [ofNeededRoles, Region.kind, need, given, latch]
    rfl
  | switch cond follow bodies =>
    obtain ⟨condRead, followRead, armsRead⟩ := by
      simpa only [cast, List.cons_append, List.forall_mem_cons] using given
    have arms (i : Nat) :
        (switch cond follow bodies).roles.get? (Role.arm (0 + i)).name = bodies[i]? := by
      rw [Nat.zero_add]
      refine Option.ext fun label => ?_
      rw [get?_role_eq_some_iff, List.getElem?_eq_some_iff]
      simp [cast]
    have enough : bodies.length ≤ (switch cond follow bodies).roles.entries.length := by
      refine Nat.le_trans ?_ (length_cast_le _)
      simp only [cast, List.length_append, List.length_mapIdx]
      exact Nat.le_add_left _ _
    simp only [ofNeededRoles, Region.kind, need, condRead, followRead, armsFrom_eq arms enough]
    rfl
  | _ =>
    simp only [cast, List.forall_mem_cons] at given
    simp [ofNeededRoles, Region.kind, need, given]
    rfl

/-- The roles that make a region of a kind are those of the region, without exception. -/
theorem ofRoles_eq_ok_iff :
    ofRoles kind roles = .ok region ↔ region.kind = kind ∧ region.roles = roles := by
  simp only [ofRoles, bind_eq_ok_iff]
  constructor
  · rintro ⟨made, read, rest⟩
    obtain ⟨sameKind, played⟩ := cast_of_ofNeededRoles read
    split at rest
    · cases rest
    · next leftOver =>
      cases rest
      refine ⟨sameKind, AttrMap.ext_get? fun key => Option.ext fun label => ?_⟩
      have own {label : String} (named : region.roles.get? key = some label) :
          roles.get? key = some label := by
        obtain ⟨entry, member, same⟩ := List.mem_map.mp (get?_roles_eq_some_iff.mp named)
        cases same
        exact played entry member
      refine ⟨own, fun named => ?_⟩
      have known := List.find?_eq_none.mp leftOver _ (AttrMap.get?_eq_some_iff.mp named)
      obtain ⟨other, found⟩ := Option.ne_none_iff_exists'.mp (by simpa using known)
      rw [found, ← own found, named]
  · rintro ⟨rfl, rfl⟩
    refine ⟨region, region.ofNeededRoles_roles, ?_⟩
    rw [List.find?_eq_none.mpr]
    · rfl
    · rintro ⟨role, label⟩ member
      have named : region.roles.get? role = some label := AttrMap.get?_eq_some_iff.mpr member
      simp [named]

end Region

end ControlFlow
