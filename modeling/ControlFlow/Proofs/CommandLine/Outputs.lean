import ControlFlow.CommandLine.Program
import ControlFlow.Proofs.CommandLine.Paths

/-! The outputs of a run. A run writes nothing but the outputs that it is asked for. The path of each
is made of the directory that it lands in, of what its file is called without an extension, and of
which output it is, and all three can be read off the path again. -/
namespace ControlFlow.CommandLine

/-- What is written for a file: the structured graph, or the graph after a merge. -/
inductive Output where
  | structured
  | step (number : Nat)

namespace Output

/-- What the name of an output says about it. -/
def word : Output → String
  | structured => "structured"
  | step number => "step" ++ toString number

/-- How the name of an output ends. -/
def ending (output : Output) : String := output.word ++ ".dot"

/-- Whether an output is asked for. -/
def Asked (request : StructureRequest) : Output → Prop
  | structured => request.dot = true
  | step _ => request.steps = true

/-- The path of an output for a file. -/
def pathFor (output : Output) (directory : Option String) (file : String) : String :=
  outputPath file directory output.ending

variable {output other : Output} {directory : Option String} {file file' : String}

theorem toList_word_step (number : Nat) :
    (step number).word.toList = ['s', 't', 'e', 'p'] ++ Nat.toDigits 10 number := by
  have digits : (toString number).toList = Nat.toDigits 10 number := Nat.toList_repr
  rw [word, String.toList_append, digits]
  simp

theorem word_chars (output : Output) : ∀ c ∈ output.word.toList, c ≠ '.' ∧ c ≠ '/' := by
  cases output with
  | structured => simp [word]
  | step number =>
    intro c member
    rw [toList_word_step, List.mem_append] at member
    rcases member with letter | digit
    · revert c
      simp
    · have digit : c.isDigit = true := Nat.isDigit_of_mem_toDigits (by decide) (by decide) digit
      constructor <;> rintro rfl <;> cases digit

theorem word_injective (same : output.word = other.word) : output = other := by
  have apart (number : Nat) : structured.word ≠ (step number).word := by
    intro same
    have texts := congrArg String.toList same
    rw [toList_word_step] at texts
    simp [word] at texts
  cases output <;> cases other
  case structured.structured => rfl
  case structured.step => exact absurd same (apart _)
  case step.structured => exact absurd same.symm (apart _)
  case step.step => exact congrArg step (Nat.repr_injective ((String.append_right_inj "step").mp same))

/-- The name of an output tells what its file is called and which output it is. -/
theorem name_injective {stem stem' : String}
    (same : stem ++ "." ++ output.ending = stem' ++ "." ++ other.ending) :
    stem = stem' ∧ output = other := by
  have regroup (stem : String) (output : Output) : (stem ++ "." ++ output.ending).toList =
      (stem.toList ++ '.' :: output.word.toList) ++ ".dot".toList := by
    simp [ending]
  have texts := congrArg String.toList same
  rw [regroup, regroup] at texts
  obtain ⟨stems, words⟩ := append_cons_inj (fun point => (word_chars output _ point).1 rfl)
    (fun point => (word_chars other _ point).1 rfl) (List.append_cancel_right texts)
  exact ⟨String.toList_injective stems, word_injective (String.toList_injective words)⟩

theorem name_noSlash (output : Output) (file : String) :
    '/' ∉ (stem file ++ "." ++ output.ending).toList := by
  have noSlash : '/' ∉ output.word.toList := fun slash => (word_chars output _ slash).2 rfl
  simp [ending, stem_noSlash, noSlash]

end Output

/-- The directory that the outputs for a file land in. -/
def outputDirectory (directory : Option String) (file : String) : String :=
  (directory.or (parent? file)).getD ""

namespace Output

variable {output other : Output} {directory : Option String} {file file' : String}

/-- The path of an output tells where it lands, what its file is called and which output it is. -/
theorem pathFor_eq_iff : output.pathFor directory file = other.pathFor directory file' ↔
    outputDirectory directory file = outputDirectory directory file' ∧ stem file = stem file' ∧
      output = other := by
  constructor
  · intro same
    obtain ⟨fronts, names⟩ := joinPath_inj (output.name_noSlash file) (other.name_noSlash file') same
    refine ⟨?_, name_injective names⟩
    cases directory with
    | some directory => rfl
    | none => exact (trimmed_parent file).joinPath_injective (trimmed_parent file') fronts
  · rintro ⟨directories, stems, rfl⟩
    rw [pathFor, pathFor, outputPath, outputPath, ← outputDirectory, ← outputDirectory, directories,
      stems]

end Output

/-! ## Writes -/

/-- The paths of the outputs that are asked for a file. -/
def outputs (request : StructureRequest) (file : String) : Set String :=
  {target | ∃ output : Output, output.Asked request ∧
    target = output.pathFor request.outputDir file}

/-- The same system but for what writing does. -/
def Host.withWrites {m : Type → Type} (host : Host m)
    (write : String → String → m (Except SystemError Unit)) : Host m :=
  { host with writeFile := write }

/-- A run that writes at some paths only: on a system that does the same there, whatever it does when
other paths are written, the run is the same. -/
def WritesOnly {α : Type} (run : ∀ {m : Type → Type} [Monad m], Host m → Run m α)
    (targets : Set String) : Prop :=
  ∀ {m : Type → Type} [Monad m] (host : Host m)
    (write : String → String → m (Except SystemError Unit)),
    (∀ target ∈ targets, ∀ content, write target content = host.writeFile target content) →
      run (host.withWrites write) = run host

theorem mapM_congr_of_mem {m : Type → Type} [Monad m] {α β : Type} {f f' : α → m β} {l : List α}
    (same : ∀ a ∈ l, f a = f' a) : l.mapM f = l.mapM f' := by
  have loops (made : List β) : List.mapM.loop f l made = List.mapM.loop f' l made := by
    induction l generalizing made with
    | nil => rfl
    | cons a l ih =>
      obtain ⟨first, others⟩ := List.forall_mem_cons.mp same
      simp only [List.mapM.loop, first, ih others]
  exact loops []

section

variable {m : Type → Type} [Monad m] {host : Host m} {verbose : Bool} {request : StructureRequest}
  {file : String} {write : String → String → m (Except SystemError Unit)}

theorem createDirectories_withWrites (path : String) :
    (host.withWrites write).createDirectories path = host.createDirectories path := by
  have within (bound : Nat) (path : String) :
      (host.withWrites write).createWithin bound path = host.createWithin bound path := by
    induction bound generalizing path with
    | zero => rfl
    | succ bound ih =>
      unfold Host.createWithin
      simp only [ih]
      rfl
  exact within _ path

theorem saveGraph_withWrites {path : String}
    (same : ∀ content, write path content = host.writeFile path content) (g : FlowGraph) :
    saveGraph (host.withWrites write) path g = saveGraph host path g :=
  congrArg (CommandLine.request ("failed to write " ++ path)) (same (Dot.write g))

section

variable (same : ∀ target ∈ outputs request file, ∀ content,
  write target content = host.writeFile target content)

include same

theorem stepObserver_withWrites (graph : String) :
    stepObserver (host.withWrites write) verbose request file graph =
      stepObserver host verbose request file graph := by
  unfold stepObserver
  congr
  funext g region
  by_cases steps : request.steps = true
  · have saved (number : Nat) : saveGraph (host.withWrites write)
        (outputPath file request.outputDir ("step" ++ toString number ++ ".dot")) g =
          saveGraph host
            (outputPath file request.outputDir ("step" ++ toString number ++ ".dot")) g :=
      saveGraph_withWrites (same _ ⟨.step number, steps, rfl⟩) g
    simp only [steps, if_true, saved]
    rfl
  · simp only [steps]
    rfl

theorem finish_withWrites (analysis : Analysis) (g : FlowGraph) :
    finish (host.withWrites write) verbose request file analysis g =
      finish host verbose request file analysis g := by
  unfold finish
  by_cases dot : request.dot = true
  · have saved (g : FlowGraph) : saveGraph (host.withWrites write)
        (outputPath file request.outputDir "structured.dot") g =
          saveGraph host (outputPath file request.outputDir "structured.dot") g :=
      saveGraph_withWrites (same _ ⟨.structured, dot, rfl⟩) g
    simp only [dot, if_true, saved]
    rfl
  · simp only [dot]
    rfl

theorem structureFile_withWrites (g : FlowGraph) :
    structureFile (host.withWrites write) verbose request file g =
      structureFile host verbose request file g := by
  unfold structureFile structureOne
  simp only [stepObserver_withWrites same, finish_withWrites same]

end

theorem structureFiles_withWrites (same : ∀ file ∈ request.paths, ∀ target ∈ outputs request file,
    ∀ content, write target content = host.writeFile target content) (graphs : List FlowGraph) :
    structureFiles (host.withWrites write) verbose request graphs =
      structureFiles host verbose request graphs := by
  refine mapM_congr_of_mem ?_
  rintro ⟨file, g⟩ member
  exact structureFile_withWrites (same file (List.of_mem_zip member).1) g

end

theorem runStructure_writesOnly (verbose : Bool) (request : StructureRequest) :
    WritesOnly (fun host => runStructure host verbose request)
      {target | ∃ file ∈ request.paths, target ∈ outputs request file} := by
  intro m _ host write same
  have files (graphs : List FlowGraph) : structureFiles (host.withWrites write) verbose request
      graphs = structureFiles host verbose request graphs :=
    structureFiles_withWrites (fun file listed target written =>
      same target ⟨file, listed, written⟩) graphs
  unfold runStructure
  simp only [createDirectories_withWrites, files]
  rfl

end ControlFlow.CommandLine
