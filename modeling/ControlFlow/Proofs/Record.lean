import ControlFlow.Proofs.Json.Reading
import ControlFlow.Proofs.Region
import ControlFlow.Record

/-! Records stand for their regions, one for one: a record is accepted only if it is the one that is
written for the region it makes, whatever it says and leaves out, and a list of regions is read back
from its text. -/
namespace ControlFlow

open Json

namespace Record

variable {record : Record} {region : Region}

/-- The record that makes a region is the one written for it. -/
theorem toRegion_eq_ok_iff : record.toRegion = .ok region ↔ record = ofRegion region := by
  rw [toRegion]
  constructor
  · intro made
    split at made
    · cases made
    · next kind known =>
      obtain ⟨read, roles, rest⟩ := bind_eq_ok_iff.mp made
      obtain ⟨sameKind, sameRoles⟩ := Region.ofRoles_eq_ok_iff.mp (mapError_eq_ok_iff.mp roles)
      split at rest
      · cases rest
      · next sameEntry =>
        split at rest
        · cases rest
        · next sameExit =>
          cases rest
          have prim := RegionKind.ofName?_eq_some_iff.mp known
          simp only [bne_iff_ne, ne_eq, not_not] at sameEntry sameExit
          cases record
          simp_all [ofRegion]
  · rintro rfl
    have known : RegionKind.ofName? (ofRegion region).prim = some region.kind :=
      RegionKind.ofName?_eq_some_iff.mpr rfl
    have roles : Region.ofRoles region.kind (ofRegion region).nodes = .ok region :=
      Region.ofRoles_eq_ok_iff.mpr ⟨rfl, rfl⟩
    rw [known]
    simp only [roles, Except.mapError, ok_bind]
    simp [ofRegion, pure, Except.pure]

/-! ## Reading a printed record -/

theorem readField_printed {reader : Reading α} {text : List Char} {value : α}
    (reads : Reads reader text value) (name : String) (store : α → Draft) (rest : List Char) :
    readField name none reader store (':' :: ([' '] ++ (text ++ rest))) =
      .ok (store value, rest) := by
  rw [readField]
  simp only [Option.isSome_none, Bool.false_eq_true, if_false]
  rw [closing_solid rfl, ok_bind]
  simp only
  rw [reads blank_space, ok_bind]
  rfl

/-- One more member of a record. -/
theorem readMembersWithin_member (first : Bool) {indent : List Char} (indented : Blank indent)
    (name text : String) (bound : Nat) (draft : Draft) (rest : List Char) :
    readMembersWithin (bound + 1) first draft
        (separator first ++
          (indent ++ ((stringText name ++ ": " ++ text).toList ++ rest))) =
      readMember draft name (':' :: ([' '] ++ (text.toList ++ rest))) >>= fun (draft, rest) =>
        readMembersWithin bound false draft rest := by
  rw [member_append, readMembersWithin, nextKey_layout first indented, ok_bind]
  simp only [if_true]
  rw [readString_escaped]
  rfl

theorem reads_readNodes (nodes : AttrMap) (depth : Nat) :
    Reads readNodes
      ((Value.object (nodes.entries.map fun (role, label) => (role, .string label))).textAt
        depth).toList nodes := by
  intro blanks blank rest
  rw [readNodes, reads_readMap nodes.entries depth blank rest, ok_bind]
  exact congrArg (fun read => Except.ok (read, rest)) nodes.ofList_entries

/-- The texts of the members that every record has. -/
def requiredTexts (depth : Nat) (record : Record) : List String :=
  memberTexts depth
    [("prim", .string record.prim),
      ("nodes", .object (record.nodes.entries.map fun (role, label) => (role, .string label))),
      ("entry", .string record.entry)]

theorem readMembersWithin_required (record : Record) {indent : List Char} (indented : Blank indent)
    (depth bound : Nat) (more : List (List Char)) (rest : List Char) :
    readMembersWithin (bound + 3) true ⟨none, none, none, none⟩
        (layout indent true ((requiredTexts depth record).map String.toList ++ more) ++ rest) =
      readMembersWithin bound false ⟨some record.prim, some record.nodes, some record.entry, none⟩
        (layout indent false more ++ rest) := by
  simp only [requiredTexts, memberTexts, List.map_cons, List.map_nil, List.cons_append,
    List.nil_append, layout, List.append_assoc]
  rw [readMembersWithin_member true indented, readMember, Value.textAt,
    readField_printed (reads_readText record.prim), ok_bind]
  simp only
  rw [readMembersWithin_member false indented, readMember,
    readField_printed (reads_readNodes record.nodes depth), ok_bind]
  simp only
  rw [readMembersWithin_member false indented, readMember, Value.textAt,
    readField_printed (reads_readText record.entry), ok_bind]

/-- The text of the member that a record has only if it names an exit. -/
def exitTexts (depth : Nat) (record : Record) : List String :=
  memberTexts depth (record.exit.map fun exit => ("exit", Value.string exit)).toList

theorem readMembersWithin_exit (record : Record) (draft : Draft) (unset : draft.exit = none)
    {indent outdent : List Char} (indented : Blank indent) (outdented : Blank outdent)
    (depth bound : Nat) (rest : List Char) :
    readMembersWithin (bound + 1 + record.exit.toList.length) false draft
        (layout indent false ((exitTexts depth record).map String.toList) ++
          (outdent ++ '\x7d' :: rest)) =
      .ok ({ draft with exit := record.exit.map some }, '\x7d' :: rest) := by
  have stop (draft : Draft) : readMembersWithin (bound + 1) false draft (outdent ++ '\x7d' :: rest) =
      .ok (draft, '\x7d' :: rest) := by
    rw [readMembersWithin, nextKey_closing false outdented]
    rfl
  -- A record without an exit has no member for it, which is read as an exit that is not set.
  cases named : record.exit with
  | none =>
    simp only [exitTexts, named, Option.map_none, Option.toList_none, memberTexts, List.map_nil,
      layout, List.nil_append, List.length_nil, Nat.add_zero]
    rw [stop, ← unset]
  | some exit =>
    simp only [exitTexts, named, Option.map_some, Option.toList_some, memberTexts, List.map_cons,
      List.map_nil, layout, List.append_assoc, List.nil_append, List.length_singleton]
    rw [readMembersWithin_member false indented, readMember, unset, Value.textAt,
      readField_printed (reads_readText? exit), ok_bind]
    exact stop _

theorem memberTexts_append (depth : Nat) (members more : List (String × Value)) :
    memberTexts depth (members ++ more) = memberTexts depth members ++ memberTexts depth more := by
  induction members with
  | nil => rfl
  | cons member members ih => rw [List.cons_append, memberTexts, memberTexts, ih, List.cons_append]

theorem toValue_append (record : Record) (depth : Nat) :
    ∃ outdent, Blank outdent ∧ ∀ rest, (record.toValue.textAt depth).toList ++ rest =
      '\x7b' :: (layout (newline (depth + 1)).toList true
        ((requiredTexts (depth + 1) record ++ exitTexts (depth + 1) record).map String.toList) ++
          (outdent ++ '\x7d' :: rest)) := by
  rw [toValue, Value.textAt, memberTexts_append]
  exact bracketed_append "\x7b" "\x7d" depth
    (requiredTexts (depth + 1) record ++ exitTexts (depth + 1) record)

/-- A printed record is read back. -/
theorem reads_read (record : Record) (depth : Nat) :
    Reads read (record.toValue.textAt depth).toList record := by
  intro blanks blank rest
  obtain ⟨outdent, outdented, split⟩ := toValue_append record depth
  have enough := length_lt_layout (newline (depth + 1)).toList outdent rest
    ((requiredTexts (depth + 1) record ++ exitTexts (depth + 1) record).map String.toList) '\x7d'
  rw [split, read, peek_blank blank rfl, ok_bind]
  simp only [beq_self_eq_true, if_true]
  generalize (layout _ _ _ ++ _).length + 1 = bound at enough ⊢
  have count : (exitTexts (depth + 1) record).length = record.exit.toList.length := by
    rw [exitTexts]
    cases record.exit <;> rfl
  obtain ⟨spare, rfl⟩ : ∃ spare, bound = spare + 1 + record.exit.toList.length + 3 := by
    rw [List.length_map, List.length_append, count] at enough
    refine ⟨bound - 4 - record.exit.toList.length, ?_⟩
    simp [requiredTexts, memberTexts] at enough
    omega
  rw [List.map_append, readMembersWithin_required record (blank_newline (depth + 1)),
    readMembersWithin_exit record _ rfl (blank_newline (depth + 1)) outdented, ok_bind]
  simp only [Draft.finish, ok_bind, closing_solid (c := '\x7d') rfl]
  cases record with
  | mk prim nodes entry exit => cases exit <;> rfl

/-! ## Regions -/

theorem readsItem_readRegion (region : Region) (depth : Nat) :
    ReadsItem readRegion ((ofRegion region).toValue.textAt depth).toList region where
  reads := by
    intro blanks blank rest
    have accepted : (ofRegion region).accept = .ok region :=
      mapError_eq_ok_iff.mpr (toRegion_eq_ok_iff.mpr rfl)
    rw [readRegion, reads_read (ofRegion region) depth blank rest, ok_bind]
    simp only [accepted]
    rfl
  opens := by
    obtain ⟨outdent, -, split⟩ := toValue_append (ofRegion region) depth
    exact ⟨'\x7b', _, by simpa using split [], rfl, by decide⟩

end Record

namespace Region

/-- A list of regions is read back from its text. -/
theorem readList_listText (regions : List Region) : readList (listText regions) = .ok regions := by
  have texts (values : List Value) : itemTexts 1 values = values.map (Value.textAt 1) := by
    induction values with
    | nil => rfl
    | cons value values ih => rw [itemTexts, ih, List.map_cons]
  have items : List.Forall₂ (ReadsItem Record.readRegion)
      ((regions.map fun region => (Record.ofRegion region).toValue.textAt 1).map String.toList)
      regions := by
    rw [List.map_map, List.forall₂_map_left_iff, List.forall₂_same]
    exact fun region _ => Record.readsItem_readRegion region 1
  have whole := reads_readSequence items 0 blank_nil []
  rw [List.nil_append, List.append_nil] at whole
  rw [readList, readAll, listText, Value.text, Value.textAt, texts, List.map_map]
  simp only [Function.comp_def, whole, ok_bind]
  rfl

/-- The codec is a bijection between regions and what it accepts: kinds with roles, records, and, for
whole lists, texts that it has written. -/
theorem codec_bijective :
    (∀ kind roles region,
      ofRoles kind roles = .ok region ↔ region.kind = kind ∧ region.roles = roles) ∧
    (∀ (record : Record) region,
      record.toRegion = .ok region ↔ record = Record.ofRegion region) ∧
    ∀ regions, readList (listText regions) = .ok regions :=
  ⟨fun _ _ _ => ofRoles_eq_ok_iff, fun _ _ => Record.toRegion_eq_ok_iff, readList_listText⟩

end Region

end ControlFlow
