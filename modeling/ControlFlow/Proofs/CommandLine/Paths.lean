import Mathlib
import ControlFlow.CommandLine.Path

/-! What can be read off a path. The name of a file has no slash, and so neither has what its outputs
are named after. A directory that is part of a path does not end in a slash, unless it is the root; so
the path of a file in it tells the directory and the name of the file. -/
namespace ControlFlow.CommandLine

variable {path name part directory : String} {parts : List String}

/-! ## Names -/

theorem not_mem_of_mem_splitOn {c : Char} {cs piece : List Char} (member : piece ∈ cs.splitOn c) :
    c ∉ piece := by
  induction cs generalizing piece with
  | nil => simp_all
  | cons d cs ih =>
    obtain ⟨first, others, split⟩ := List.exists_cons_of_ne_nil (List.splitOn_ne_nil c cs)
    rw [List.splitOn_cons_eq_if_modifyHead, split] at member
    rw [split] at ih
    split at member
    · rcases List.mem_cons.mp member with rfl | member
      · exact List.not_mem_nil
      · exact ih member
    · next other =>
      rcases List.mem_cons.mp member with rfl | member
      · rw [List.mem_cons, not_or]
        exact ⟨fun same => other (by simp [same]), ih List.mem_cons_self⟩
      · exact ih (List.mem_cons_of_mem _ member)

theorem noSlash_of_mem_parts (member : part ∈ CommandLine.parts path) : '/' ∉ part.toList := by
  obtain ⟨chars, piece, rfl⟩ := List.mem_map.mp member
  rw [String.toList_ofList]
  exact not_mem_of_mem_splitOn piece

theorem mem_of_mem_trimParts (member : part ∈ trimParts parts) : part ∈ parts := by
  fun_induction trimParts parts with
  | case1 last first rest _ ih => exact List.mem_cons_of_mem _ (ih member)
  | case2 => exact member
  | case3 => exact member

theorem noSlash_of_mem_partsBack (member : part ∈ partsBack path) : '/' ∉ part.toList :=
  noSlash_of_mem_parts (List.mem_reverse.mp (mem_of_mem_trimParts member))

theorem fileName?_noSlash (named : fileName? path = some name) : '/' ∉ name.toList := by
  rw [fileName?] at named
  split at named
  · cases named
  · next last _ split =>
    split at named
    · cases named
    · cases named
      exact noSlash_of_mem_partsBack (split ▸ List.mem_cons_self)

/-- A name without its extension is part of the name. -/
theorem mem_of_mem_stemOf {c : Char} (member : c ∈ (stemOf name).toList) : c ∈ name.toList := by
  rw [stemOf] at member
  split at member
  · exact member
  · simp only at member
    split at member
    · exact member
    · exact member
    · next rest _ split =>
      rw [String.toList_ofList, List.mem_reverse] at member
      have dropped : c ∈ name.toList.reverse.dropWhile (· != '.') :=
        split ▸ List.mem_cons_of_mem _ member
      exact List.mem_reverse.mp ((List.dropWhile_sublist _).mem dropped)

theorem stem_noSlash (path : String) : '/' ∉ (stem path).toList := by
  rw [stem]
  cases named : fileName? path with
  | none => simp
  | some name => exact fun member => fileName?_noSlash named (mem_of_mem_stemOf member)

/-! ## Directories -/

/-- A file stands in its directory behind the same text, whatever it is called. -/
theorem joinPath_eq (directory name : String) :
    joinPath directory name = joinPath directory "" ++ name := by
  unfold joinPath
  split
  · simp
  · split <;> simp

theorem joinPath_empty_or (directory : String) :
    joinPath directory "" = "" ∨ ∃ front, (joinPath directory "").toList = front ++ ['/'] := by
  unfold joinPath
  split
  · exact .inl rfl
  · split
    · next ends =>
      obtain ⟨front, split⟩ := List.getLast?_eq_some_iff.mp (beq_iff_eq.mp ends)
      exact .inr ⟨front, by simp [split]⟩
    · exact .inr ⟨directory.toList, by simp⟩

/-- A directory whose path does not end in a slash, unless it is the root. -/
def Trimmed (directory : String) : Prop := directory.toList.getLast? = some '/' → directory = "/"

/-- Such a directory can be read off the text in front of its files. -/
theorem Trimmed.eq_of_joinPath (trimmed : Trimmed directory) :
    directory = if joinPath directory "" = "/" then "/"
      else String.ofList (joinPath directory "").toList.dropLast := by
  by_cases here : directory = ""
  · subst here
    rfl
  by_cases slash : directory.toList.getLast? = some '/'
  · rw [trimmed slash]
    rfl
  have text : joinPath directory "" = directory ++ "/" := by
    simp [joinPath, here, slash]
  have notRoot : directory ++ "/" ≠ "/" := fun root => here (by simpa using root)
  rw [text, if_neg notRoot]
  simp

theorem Trimmed.joinPath_injective {other : String} (trimmed : Trimmed directory)
    (trimmed' : Trimmed other) (same : joinPath directory "" = joinPath other "") :
    directory = other := by
  rw [trimmed.eq_of_joinPath, trimmed'.eq_of_joinPath, same]

/-- The last part of a path that has more than one counts for something. -/
theorem trimParts_head {first : String} {rest : List String}
    (trimmed : trimParts parts = part :: first :: rest) : part ≠ "" := by
  fun_induction trimParts parts with
  | case1 last first rest _ ih => exact ih trimmed
  | case2 last first' rest' counts =>
    obtain ⟨rfl, -⟩ := List.cons.inj trimmed
    rintro rfl
    exact counts rfl
  | case3 parts few => exact absurd trimmed (few _ _ _)

theorem exists_front_intercalate (part : String) (others : List String) : ∃ front,
    ("/".intercalate (part :: others).reverse).toList = front ++ part.toList := by
  by_cases alone : others = []
  · exact ⟨[], by simp [alone]⟩
  · refine ⟨("/".intercalate others.reverse).toList ++ ['/'], ?_⟩
    rw [List.reverse_cons, String.intercalate_append_of_ne_nil]
    · simp
    all_goals simp [alone]

/-- The path of trimmed parts does not end in a slash. -/
theorem getLast?_intercalate_trimParts (noSlash : ∀ part ∈ parts, '/' ∉ part.toList) :
    ("/".intercalate (trimParts parts).reverse).toList.getLast? ≠ some '/' := by
  cases trimmed : trimParts parts with
  | nil => simp
  | cons part others =>
    have member : part ∈ parts := mem_of_mem_trimParts (trimmed ▸ List.mem_cons_self)
    by_cases empty : part = ""
    · cases others with
      | nil => simp [empty]
      | cons first rest => exact absurd empty (trimParts_head trimmed)
    · have filled : part.toList ≠ [] := by simpa using empty
      obtain ⟨front, text⟩ := exists_front_intercalate part others
      rw [text, List.getLast?_append_of_ne_nil _ filled]
      exact fun ends => noSlash part member (List.mem_of_getLast? ends)

theorem trimmed_of_parent? {parent : String} (found : parent? path = some parent) :
    Trimmed parent := by
  intro ends
  rw [parent?] at found
  split at found
  · cases found
  · cases found
  · next last rest _ split =>
    have noSlash : ∀ part ∈ rest, '/' ∉ part.toList := fun part member =>
      noSlash_of_mem_partsBack (split ▸ List.mem_cons_of_mem _ member)
    rw [Option.some.injEq] at found
    split at found
    · subst found
      cases ends
    · rw [ofPartsBack] at found
      split at found
      · exact found.symm
      · exact absurd (found ▸ ends) (getLast?_intercalate_trimParts noSlash)

theorem trimmed_parent (path : String) : Trimmed ((parent? path).getD "") := by
  cases found : parent? path with
  | none => simp [Trimmed]
  | some parent => exact trimmed_of_parent? found

/-- The last place of a character in a text splits the text. -/
theorem append_cons_inj {c : Char} {cs cs' word word' : List Char} (alone : c ∉ word)
    (alone' : c ∉ word') (same : cs ++ c :: word = cs' ++ c :: word') : cs = cs' ∧ word = word' := by
  have only {front word word' : List Char} (alone : c ∉ word)
      (same : c :: word = front ++ c :: word') : front = [] := by
    cases front with
    | nil => rfl
    | cons d front =>
      rw [(List.cons.inj same).2] at alone
      exact absurd (by simp) alone
  rcases List.append_eq_append_iff.mp same with ⟨front, rfl, split⟩ | ⟨front, rfl, split⟩
  · obtain rfl := only alone split
    exact ⟨by simp, (List.cons.inj split).2⟩
  · obtain rfl := only alone' split
    exact ⟨by simp, (List.cons.inj split).2.symm⟩

/-- The path of a file in a directory tells what stands in front of its name, and the name. -/
theorem joinPath_inj {directory' name' : String} (noSlash : '/' ∉ name.toList)
    (noSlash' : '/' ∉ name'.toList) (same : joinPath directory name = joinPath directory' name') :
    joinPath directory "" = joinPath directory' "" ∧ name = name' := by
  rw [joinPath_eq directory name, joinPath_eq directory' name'] at same
  have texts := congrArg String.toList same
  rw [String.toList_append, String.toList_append] at texts
  rcases joinPath_empty_or directory with here | ⟨front, text⟩ <;>
    rcases joinPath_empty_or directory' with here' | ⟨front', text'⟩
  · rw [here, here'] at same ⊢
    exact ⟨rfl, by simpa using same⟩
  · rw [here, text'] at texts
    exact absurd (by simpa using texts) fun names : name.toList = _ => noSlash (by simp [names])
  · rw [text, here'] at texts
    exact absurd (by simpa using texts.symm) fun names : name'.toList = _ => noSlash' (by simp [names])
  · rw [text, text', List.append_assoc, List.append_assoc] at texts
    obtain ⟨fronts, names⟩ := append_cons_inj noSlash noSlash' texts
    refine ⟨String.toList_injective ?_, String.toList_injective names⟩
    rw [text, text', fronts]

end ControlFlow.CommandLine
