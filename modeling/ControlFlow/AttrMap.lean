/-! Attribute maps: strings by key, listed in the order of their keys. A map holds a key at most
once, so two maps with the same entries are equal. -/
namespace ControlFlow

/-- A map from keys to values, its entries in increasing order of the keys. -/
structure AttrMap where
  entries : List (String × String)
  sorted : entries.Pairwise (·.1 < ·.1)
deriving DecidableEq

namespace AttrMap

/-- Puts an entry where its key belongs, in place of an entry with that key. -/
def insertEntry (key value : String) : List (String × String) → List (String × String)
  | [] => [(key, value)]
  | (k, v) :: rest =>
    if key < k then (key, value) :: (k, v) :: rest
    else if key = k then (key, value) :: rest
    else (k, v) :: insertEntry key value rest

theorem mem_insertEntry {key value : String} {entries : List (String × String)}
    {p : String × String} (h : p ∈ insertEntry key value entries) :
    p = (key, value) ∨ p ∈ entries := by
  induction entries with
  | nil => simpa [insertEntry] using h
  | cons head rest ih =>
    obtain ⟨k, v⟩ := head
    simp only [insertEntry] at h
    split at h
    · simpa using h
    · split at h
      · simp only [List.mem_cons] at h ⊢
        exact h.imp_right .inr
      · simp only [List.mem_cons] at h ⊢
        rcases h with h | h
        · exact .inr (.inl h)
        · exact (ih h).imp_right .inr

theorem sorted_insertEntry (key value : String) {entries : List (String × String)}
    (h : entries.Pairwise (·.1 < ·.1)) : (insertEntry key value entries).Pairwise (·.1 < ·.1) := by
  induction entries with
  | nil => simp [insertEntry]
  | cons head rest ih =>
    obtain ⟨k, v⟩ := head
    rw [List.pairwise_cons] at h
    simp only [insertEntry]
    split
    · rename_i below
      refine List.pairwise_cons.2 ⟨fun p mem => ?_, List.pairwise_cons.2 h⟩
      rcases List.mem_cons.1 mem with rfl | mem
      · exact below
      · exact String.lt_trans below (h.1 p mem)
    · split
      · rename_i same
        exact List.pairwise_cons.2 ⟨fun p mem => same ▸ h.1 p mem, h.2⟩
      · rename_i notBelow notSame
        refine List.pairwise_cons.2 ⟨fun p mem => ?_, ih h.2⟩
        rcases mem_insertEntry mem with rfl | mem
        · exact String.not_le.1 fun reverse =>
            notSame (String.le_antisymm reverse (String.not_lt.1 notBelow))
        · exact h.1 p mem

/-- The map without entries. -/
def empty : AttrMap := ⟨[], .nil⟩

instance : Inhabited AttrMap := ⟨empty⟩

/-- Sets the value of a key. -/
def insert (attrs : AttrMap) (key value : String) : AttrMap :=
  ⟨insertEntry key value attrs.entries, sorted_insertEntry key value attrs.sorted⟩

/-- Drops a key and its value. -/
def erase (attrs : AttrMap) (key : String) : AttrMap :=
  ⟨attrs.entries.filter (·.1 != key), attrs.sorted.sublist List.filter_sublist⟩

/-- The value of a key, if it has one. -/
def get? (attrs : AttrMap) (key : String) : Option String := attrs.entries.lookup key

/-- Sets the keys of a list one after the other; of two values for a key the later one stays. -/
def insertAll (attrs : AttrMap) (entries : List (String × String)) : AttrMap :=
  entries.foldl (fun attrs (key, value) => attrs.insert key value) attrs

/-- Sets every key that `other` has. -/
def override (attrs other : AttrMap) : AttrMap := attrs.insertAll other.entries

/-- The map of a list; of two values for a key the later one stays. -/
def ofList (entries : List (String × String)) : AttrMap := empty.insertAll entries

/-- Whether there is no entry. -/
def isEmpty (attrs : AttrMap) : Bool := attrs.entries.isEmpty

end AttrMap

end ControlFlow
