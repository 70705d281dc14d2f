import Mathlib
import ControlFlow.AttrMap

/-! What is read from an attribute map: after a change, and of a map that is made of a list. A map is
known by what is read from it. -/
namespace ControlFlow.AttrMap

private theorem lookup_insertEntry (key value : String) (entries : List (String × String)) :
    (insertEntry key value entries).lookup key = some value := by
  induction entries with
  | nil => simp [insertEntry]
  | cons head rest ih =>
    obtain ⟨k, v⟩ := head
    simp only [insertEntry]
    split
    · simp
    · split
      · simp
      · next other =>
        have passed : (key == k) = false := by simpa using other
        rw [List.lookup_cons, passed]
        exact ih

private theorem lookup_insertEntry_of_ne {key other : String} (different : other ≠ key)
    (value : String) (entries : List (String × String)) :
    (insertEntry key value entries).lookup other = entries.lookup other := by
  have passed : (other == key) = false := by simpa using different
  induction entries with
  | nil => simp [insertEntry, passed]
  | cons head rest ih =>
    obtain ⟨k, v⟩ := head
    simp only [insertEntry]
    split
    · simp only [List.lookup_cons, passed]
    · split
      · next same =>
        simp only [← same, List.lookup_cons, passed]
      · simp only [List.lookup_cons, ih]

@[simp] theorem get?_insert_self (attrs : AttrMap) (key value : String) :
    (attrs.insert key value).get? key = some value :=
  lookup_insertEntry key value attrs.entries

theorem get?_insert_of_ne (attrs : AttrMap) {key other : String} (different : other ≠ key)
    (value : String) : (attrs.insert key value).get? other = attrs.get? other :=
  lookup_insertEntry_of_ne different value attrs.entries

/-- Only the keys of a list are set. -/
theorem get?_insertAll_of_not_mem (attrs : AttrMap) {key : String}
    {entries : List (String × String)} (missing : ∀ entry ∈ entries, entry.1 ≠ key) :
    (attrs.insertAll entries).get? key = attrs.get? key := by
  induction entries generalizing attrs with
  | nil => rfl
  | cons entry rest ih =>
    obtain ⟨other, missing⟩ := List.forall_mem_cons.mp missing
    have later : ((attrs.insert entry.1 entry.2).insertAll rest).get? key = _ := ih _ missing
    exact later.trans (attrs.get?_insert_of_ne other.symm entry.2)

@[simp] theorem get?_erase_self (attrs : AttrMap) (key : String) :
    (attrs.erase key).get? key = none := by
  refine List.lookup_eq_none_iff.mpr fun entry member => ?_
  have kept := (List.mem_filter.mp member).2
  have different : entry.1 ≠ key := by simpa using kept
  simpa using different.symm

/-! ## A map and its entries -/

variable {key value : String} {entries : List (String × String)}

theorem keys_nodup (attrs : AttrMap) : (attrs.entries.map Prod.fst).Nodup :=
  List.pairwise_map.mpr (attrs.sorted.imp fun {p q} (less : p.1 < q.1) (same : p.1 = q.1) =>
    String.lt_irrefl q.1 (same ▸ less))

/-- Where no key stands twice, the value of a key is that of its entry. -/
theorem lookup_eq_some_iff {α β : Type} [BEq α] [LawfulBEq α] {table : List (α × β)} {key : α}
    {value : β} (nodup : (table.map Prod.fst).Nodup) :
    table.lookup key = some value ↔ (key, value) ∈ table := by
  induction table with
  | nil => simp
  | cons entry rest ih =>
    obtain ⟨k, v⟩ := entry
    obtain ⟨new, nodup⟩ := List.nodup_cons.mp nodup
    by_cases same : key = k
    · subst same
      have absent : (key, value) ∉ rest := fun member =>
        new (List.mem_map.mpr ⟨(key, value), member, rfl⟩)
      simp [absent, eq_comm]
    · have passed : (key == k) = false := by simpa using same
      simp [List.lookup_cons, passed, same, ih nodup]

theorem get?_eq_some_iff {attrs : AttrMap} :
    attrs.get? key = some value ↔ (key, value) ∈ attrs.entries :=
  lookup_eq_some_iff attrs.keys_nodup

/-- A map is known by the values of its keys. -/
theorem ext_get? {attrs other : AttrMap} (same : ∀ key, attrs.get? key = other.get? key) :
    attrs = other := by
  have nodup (attrs : AttrMap) : attrs.entries.Nodup := attrs.keys_nodup.of_map _
  have perm : attrs.entries.Perm other.entries := by
    refine (List.perm_ext_iff_of_nodup (nodup attrs) (nodup other)).mpr ?_
    rintro ⟨key, value⟩
    rw [← get?_eq_some_iff, ← get?_eq_some_iff, same]
  have equal : attrs.entries = other.entries :=
    perm.eq_of_pairwise (fun _ _ _ _ less greater => absurd less (String.lt_asymm greater))
      attrs.sorted other.sorted
  cases attrs
  cases other
  cases equal
  rfl

theorem get?_erase_of_ne (attrs : AttrMap) {other : String} (different : other ≠ key) :
    (attrs.erase key).get? other = attrs.get? other := by
  refine Option.ext fun value => ?_
  rw [get?_eq_some_iff, get?_eq_some_iff, erase, List.mem_filter]
  simp [different]

/-- Setting a key to the value that it has changes nothing. -/
theorem insert_of_get? {attrs : AttrMap} (found : attrs.get? key = some value) :
    attrs.insert key value = attrs := by
  refine ext_get? fun other => ?_
  by_cases same : other = key
  · rw [same, get?_insert_self, found]
  · exact attrs.get?_insert_of_ne same value

/-- Only where a key has no value nothing is lost with it. -/
theorem erase_eq_self_iff {attrs : AttrMap} : attrs.erase key = attrs ↔ attrs.get? key = none := by
  constructor
  · intro same
    rw [← same, get?_erase_self]
  · intro missing
    refine ext_get? fun other => ?_
    by_cases same : other = key
    · rw [same, get?_erase_self, missing]
    · exact attrs.get?_erase_of_ne same

/-- Keys that are set one after the other have the values that they are set to last. -/
theorem get?_insertAll (attrs : AttrMap) (entries : List (String × String)) (key : String) :
    (attrs.insertAll entries).get? key = (entries.reverse.lookup key).or (attrs.get? key) := by
  induction entries generalizing attrs with
  | nil => rfl
  | cons entry rest ih =>
    obtain ⟨k, v⟩ := entry
    have later : ((attrs.insert k v).insertAll rest).get? key = _ := ih _
    refine later.trans ?_
    rw [List.reverse_cons, List.lookup_append, Option.or_assoc]
    by_cases same : key = k
    · subst same
      simp
    · have passed : (key == k) = false := by simpa using same
      rw [List.lookup_cons, passed, get?_insert_of_ne attrs same]
      rfl

theorem get?_ofList_last (entries : List (String × String)) (key : String) :
    (ofList entries).get? key = entries.reverse.lookup key := by
  have empty : empty.get? key = none := rfl
  rw [ofList, get?_insertAll, empty, Option.or_none]

/-- Where no key stands twice, the order of entries does not matter. -/
theorem lookup_reverse (nodup : (entries.map Prod.fst).Nodup) (key : String) :
    entries.reverse.lookup key = entries.lookup key := by
  have nodup' : (entries.reverse.map Prod.fst).Nodup := by
    rw [List.map_reverse]
    exact List.nodup_reverse.mpr nodup
  refine Option.ext fun value => ?_
  rw [lookup_eq_some_iff nodup', lookup_eq_some_iff nodup, List.mem_reverse]

theorem get?_ofList (nodup : (entries.map Prod.fst).Nodup) (key : String) :
    (ofList entries).get? key = entries.lookup key :=
  (get?_ofList_last entries key).trans (lookup_reverse nodup key)

theorem get?_override (attrs other : AttrMap) (key : String) :
    (attrs.override other).get? key = (other.get? key).or (attrs.get? key) := by
  rw [override, get?_insertAll, lookup_reverse other.keys_nodup]
  rfl

@[simp] theorem ofList_entries (attrs : AttrMap) : ofList attrs.entries = attrs :=
  ext_get? fun key => get?_ofList attrs.keys_nodup key

theorem insertAll_append (attrs : AttrMap) (entries more : List (String × String)) :
    attrs.insertAll (entries ++ more) = (attrs.insertAll entries).insertAll more :=
  List.foldl_append

theorem ofList_append (entries more : List (String × String)) :
    ofList (entries ++ more) = (ofList entries).insertAll more :=
  insertAll_append empty entries more

/-- Setting the same keys again changes nothing. -/
@[simp] theorem override_override (attrs other : AttrMap) :
    (attrs.override other).override other = attrs.override other := by
  refine ext_get? fun key => ?_
  rw [get?_override, get?_override, ← Option.or_assoc, Option.or_self]

@[simp] theorem empty_override (other : AttrMap) : empty.override other = other :=
  ofList_entries other

end ControlFlow.AttrMap
