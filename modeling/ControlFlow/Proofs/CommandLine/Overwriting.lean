import ControlFlow.CommandLine.Disk
import ControlFlow.Proofs.CommandLine.Outputs
import ControlFlow.Proofs.Except

/-! Outputs that overwrite each other. Outputs for different files have different paths exactly if no
two of the files share both the directory that their outputs land in and what they are called without
an extension. On a disk paths that differ can still lead to one place, as they do with a point in one
of them; there two outputs are one file exactly if their directories are one place, their files are
called the same, and both are the same output. -/
namespace ControlFlow.CommandLine

variable {disk : Disk} {directory name : String} {place place' : List String}

theorem parts_of_noSlash (noSlash : '/' ∉ name.toList) : parts name = [name] := by
  simp [parts, List.splitOn_eq_singleton noSlash]

theorem parts_append_slash (front : String) (noSlash : '/' ∉ name.toList) :
    parts (front ++ "/" ++ name) = parts front ++ [name] := by
  have text : (front ++ "/" ++ name).toList = front.toList ++ '/' :: name.toList := by simp
  simp [parts, text, List.splitOn_append_cons_self, List.splitOn_eq_singleton noSlash]

namespace Disk

theorem walk_append (disk : Disk) (place front behind : List String) :
    disk.walk place (front ++ behind) =
      disk.walk place front >>= fun reached => disk.walk reached behind := by
  induction front generalizing place with
  | nil => rfl
  | cons part front ih =>
    rw [List.cons_append, walk, walk]
    split
    · rfl
    · rfl
    · split
      · exact ih place
      · split
        · exact ih place.dropLast
        · exact ih (place ++ [part])

/-- A part that is nothing but a name leads one step down from a directory. -/
theorem walk_name (there : disk.item? place = some .directory) (ordinary : name ∉ ["", ".", ".."]) :
    disk.walk place [name] = .ok (place ++ [name]) := by
  simp only [List.mem_cons, List.not_mem_nil, or_false, not_or] at ordinary
  obtain ⟨filled, notHere, notUp⟩ := ordinary
  simp [walk, there, filled, notHere, notUp]

/-- A path leads to a directory of the disk. -/
def Holds (disk : Disk) (directory : String) (place : List String) : Prop :=
  disk.locate directory = .ok place ∧ disk.item? place = some .directory

/-- Where a path ends in a slash, the slash leads nowhere. -/
theorem walk_empty (there : disk.walk place [""] = .ok place') : place = place' := by
  rw [walk] at there
  split at there
  · cases there
  · cases there
  · cases there
    rfl

/-- A file lies in the place of its directory under its own name. -/
theorem locate_joinPath (holds : disk.Holds directory place) (noSlash : '/' ∉ name.toList)
    (ordinary : name ∉ ["", ".", ".."]) :
    disk.locate (joinPath directory name) = .ok (place ++ [name]) := by
  obtain ⟨located, there⟩ := holds
  have below (front : String) (reached : disk.walk [] (parts front) = .ok place) :
      disk.locate (front ++ "/" ++ name) = .ok (place ++ [name]) := by
    rw [locate, parts_append_slash front noSlash, walk_append, reached, ok_bind,
      walk_name there ordinary]
  unfold joinPath
  split
  · next here =>
    rw [beq_iff_eq.mp here, locate, parts_of_noSlash (by simp)] at located
    obtain rfl := walk_empty located
    rw [locate, parts_of_noSlash noSlash, walk_name there ordinary, List.nil_append]
  · split
    · next ends =>
      obtain ⟨front, split⟩ := List.getLast?_eq_some_iff.mp (beq_iff_eq.mp ends)
      obtain rfl : directory = String.ofList front ++ "/" ++ "" := by
        rw [← String.toList_inj, split]
        simp
      rw [locate, parts_append_slash _ (by simp), walk_append] at located
      obtain ⟨reached, above, step⟩ := bind_eq_ok_iff.mp located
      obtain rfl := walk_empty step
      simpa using below _ above
    · exact below directory located

end Disk

namespace Output

variable {output other : Output} {setting : Option String} {file file' : String}

theorem name_ordinary (output : Output) (file : String) :
    stem file ++ "." ++ output.ending ∉ ["", ".", ".."] := by
  have long : 4 ≤ (stem file ++ "." ++ output.ending).toList.length := by
    simp [ending]
    omega
  intro short
  simp only [List.mem_cons, List.not_mem_nil, or_false] at short
  rcases short with same | same | same <;> rw [same] at long <;> simp at long

/-- An output lies in the place of its directory under its own name. -/
theorem locate_pathFor (holds : disk.Holds (outputDirectory setting file) place) :
    disk.locate (output.pathFor setting file) = .ok (place ++ [stem file ++ "." ++ output.ending]) :=
  Disk.locate_joinPath holds (output.name_noSlash file) (output.name_ordinary file)

theorem locate_pathFor_eq_iff (holds : disk.Holds (outputDirectory setting file) place)
    (holds' : disk.Holds (outputDirectory setting file') place') :
    disk.locate (output.pathFor setting file) = disk.locate (other.pathFor setting file') ↔
      place = place' ∧ stem file = stem file' ∧ output = other := by
  rw [locate_pathFor holds, locate_pathFor holds', Except.ok.injEq]
  constructor
  · intro same
    obtain ⟨places, names⟩ := List.append_inj' same rfl
    exact ⟨places, name_injective (List.cons.inj names).1⟩
  · rintro ⟨rfl, stems, rfl⟩
    rw [stems]

end Output

/-! ## Outputs of several files -/

/-- No output for a file has the path of an output for another one. -/
def OutputsApart (directory : Option String) (files : List String) : Prop :=
  files.Pairwise fun file file' => ∀ output other : Output,
    output.pathFor directory file ≠ other.pathFor directory file'

theorem outputsApart_iff {directory : Option String} {files : List String} :
    OutputsApart directory files ↔
      (files.map fun file => (outputDirectory directory file, stem file)).Nodup := by
  rw [OutputsApart, List.Nodup, List.pairwise_map]
  refine List.Pairwise.iff fun file file' => ⟨fun apart same => ?_, fun apart output other same => ?_⟩
  · obtain ⟨directories, stems⟩ := Prod.mk.inj same
    exact apart .structured .structured (Output.pathFor_eq_iff.mpr ⟨directories, stems, rfl⟩)
  · obtain ⟨directories, stems, -⟩ := Output.pathFor_eq_iff.mp same
    exact apart (Prod.ext directories stems)

/-- A run writes the outputs for its files and nothing else, and what it does for one file writes the
outputs for that file only. Those for different files have different paths exactly if no two of the
files share both the directory that their outputs land in and what they are called without an
extension; and on a disk they are one file exactly if these directories are one place, the files are
called the same, and both are the same output. -/
theorem runStructure_outputs_apart_iff (verbose : Bool) (request : StructureRequest) :
    WritesOnly (fun host => runStructure host verbose request)
      {target | ∃ file ∈ request.paths, target ∈ outputs request file} ∧
    (∀ file g, WritesOnly (fun host => structureFile host verbose request file g)
      (outputs request file)) ∧
    (OutputsApart request.outputDir request.paths ↔
      (request.paths.map fun file => (outputDirectory request.outputDir file, stem file)).Nodup) ∧
    ∀ (disk : Disk) (file file' : String) (place place' : List String) (output other : Output),
      disk.Holds (outputDirectory request.outputDir file) place →
      disk.Holds (outputDirectory request.outputDir file') place' →
      (disk.locate (output.pathFor request.outputDir file) =
        disk.locate (other.pathFor request.outputDir file') ↔
          place = place' ∧ stem file = stem file' ∧ output = other) :=
  ⟨runStructure_writesOnly verbose request,
    fun _ g _ _ _ _ same => structureFile_withWrites same g, outputsApart_iff,
    fun _ _ _ _ _ _ _ holds holds' => Output.locate_pathFor_eq_iff holds holds'⟩

/-- Two files beside each other, one of them by a path with a point in it. Their outputs have
different paths and are one file. -/
theorem outputs_one_file : (⟨[]⟩ : Disk).Holds "" [] ∧ (⟨[]⟩ : Disk).Holds "." [] ∧
    OutputsApart none ["f.dot", "./f.gv"] ∧
    (⟨[]⟩ : Disk).locate (Output.structured.pathFor none "f.dot") =
      (⟨[]⟩ : Disk).locate (Output.structured.pathFor none "./f.gv") := by
  have here : (⟨[]⟩ : Disk).Holds "" [] := ⟨rfl, rfl⟩
  have point : (⟨[]⟩ : Disk).Holds "." [] := ⟨rfl, rfl⟩
  obtain ⟨-, -, apart_iff, one_iff⟩ :=
    runStructure_outputs_apart_iff false ⟨["f.dot", "./f.gv"], .hammock, none, true, false⟩
  exact ⟨here, point, apart_iff.mpr (by decide +kernel),
    (one_iff ⟨[]⟩ "f.dot" "./f.gv" [] [] .structured .structured here point).mpr ⟨rfl, rfl, rfl⟩⟩

/-- The files that a run of the program leaves on a disk, as far as they were not there before. -/
def written (files : List (String × String)) (arguments : List String) : List (String × String) :=
  let before := Disk.ofFiles files
  let after := ((runProgram Host.inMemory arguments).run ⟨before, ""⟩).2.disk
  after.changesSince before

/-- Different files can share their outputs, in one directory as well as beside themselves. Of two
graphs that are structured by one run only the second one is left then. -/
theorem same_name_overwritten :
    (["a/f.dot", "b/f.dot"].Nodup ∧ ¬OutputsApart (some "out") ["a/f.dot", "b/f.dot"]) ∧
    (["f.dot", "f.gv"].Nodup ∧ ¬OutputsApart none ["f.dot", "f.gv"]) ∧
    written [("a/f.dot", "digraph\x7bA[entry=true]\x7d"), ("b/f.dot", "digraph\x7bB[entry=true]\x7d")]
        ["structure", "--dot", "-o", "out", "a/f.dot", "b/f.dot"] =
      [("out/f.structured.dot", "digraph f \x7b\n    B [entry=true];\n\x7d\n")] := by
  refine ⟨⟨by decide, fun apart => ?_⟩, ⟨by decide, fun apart => ?_⟩, by decide +kernel⟩
  · exact (List.pairwise_pair.mp apart) .structured .structured rfl
  · exact (List.pairwise_pair.mp apart) .structured .structured rfl

end ControlFlow.CommandLine
