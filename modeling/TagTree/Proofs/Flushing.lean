import TagTree.Database.File
import TagTree.Proofs.Cursor
import TagTree.Proofs.Exhaustion
import TagTree.Proofs.Forgetting

/-!
# Flushing

A database is flushed in steps: the string table is written into the image, the file is cut, and
the image is written to it. All that can go wrong goes wrong before the first step that changes the
file. So a flush leaves either the whole image in the file or the file as it was.
-/

namespace TagTree

/-! ## The file of a database -/

/-- An action leaves the database with the file it has, also where it fails. -/
def Action.KeepsFile {α : Type} (action : Action α) : Prop :=
  ∀ before, (reached (action.run before)).file = before.file

namespace Action.KeepsFile

variable {α β : Type}

theorem done (answer : α) : Action.KeepsFile (pure answer) := fun _ => rfl

theorem failed (cause : Error) : Action.KeepsFile (α := α) (throw cause) := fun _ => rfl

theorem look : Action.KeepsFile get := fun _ => rfl

theorem change {update : Database → Database}
    (same : ∀ database, (update database).file = database.file) :
    Action.KeepsFile (modify update) := same

theorem seq {action : Action α} {next : α → Action β} (first : action.KeepsFile)
    (second : ∀ answer, (next answer).KeepsFile) : (action >>= next).KeepsFile := by
  intro before
  have kept := first before
  rw [EStateM.run_bind]
  cases ran : action.run before with
  | ok answer between =>
      rw [ran] at kept
      exact (second answer between).trans kept
  | error cause after =>
      rw [ran] at kept
      exact kept

theorem forM {action : α → Action PUnit} (values : List α)
    (each : ∀ value, (action value).KeepsFile) : Action.KeepsFile (values.forM action) := by
  induction values with
  | nil => exact done PUnit.unit
  | cons value rest ih => exact (each value).seq fun _ => ih

end Action.KeepsFile

namespace Database

theorem keepsFile_requireKind (tag : Tag) (kind : Kind) : (requireKind tag kind).KeepsFile := by
  rw [requireKind]
  split
  · exact .done ()
  · exact .failed _

theorem keepsFile_appendBytes (bytes : List UInt8) : (appendBytes bytes).KeepsFile := by
  intro before
  by_cases room : before.image.HasRoom bytes.length
  · rw [appendBytes_of_room room]
    rfl
  · rw [appendBytes_of_noRoom room]
    rfl

theorem keepsFile_patchNumber (offset width value : Nat) :
    (patchNumber offset width value).KeepsFile := by
  intro before
  by_cases inside : offset + width ≤ before.image.size
  · have ran : (patchNumber offset width value).run before = .ok () _ := if_pos inside
    rw [ran]
    rfl
  · have ran : (patchNumber offset width value).run before = .error _ before := if_neg inside
    rw [ran]
    rfl

theorem keepsFile_appendSized (tag : Tag) (payload : List UInt8) :
    (appendSized tag payload).KeepsFile := by
  by_cases small : payload.length < sizeLimit
  · rw [appendSized_of_lt small]
    exact (keepsFile_appendBytes _).seq fun _ => (keepsFile_appendBytes _).seq fun _ =>
      keepsFile_appendBytes payload
  · intro before
    rw [appendSized_of_le (Nat.not_lt.mp small)]
    rfl

theorem keepsFile_writeString (tag : Tag) (text : String) : (writeString tag text).KeepsFile := by
  apply (keepsFile_requireKind tag _).seq
  intro _
  apply Action.KeepsFile.seq
  · rw [requireNoZero]
    split
    · exact .failed _
    · exact .done ()
  · exact fun _ => keepsFile_appendSized tag _

theorem keepsFile_beginList (tag : Tag) : (beginList tag).KeepsFile := by
  apply (keepsFile_requireKind tag _).seq
  intro _
  apply Action.KeepsFile.look.seq
  intro before
  apply (keepsFile_appendBytes _).seq
  intro _
  apply (keepsFile_appendBytes _).seq
  intro _
  apply Action.KeepsFile.seq
  · exact .change fun _ => rfl
  · exact fun _ => .done _

theorem keepsFile_endList (id : Nat) : (endList id).KeepsFile := by
  apply Action.KeepsFile.look.seq
  intro before
  apply (keepsFile_requireKind _ _).seq
  intro _
  apply Action.KeepsFile.look.seq
  intro before'
  dsimp only
  split
  · exact (keepsFile_patchNumber _ _ _).seq fun _ => .change fun _ => rfl
  · exact .failed _

/-- Writing the string table leaves the database with its file. -/
theorem keepsFile_commitStringTable : commitStringTable.KeepsFile := by
  intro before
  by_cases noTexts : before.pool.texts = []
  · rw [commitStringTable_of_nil noTexts]
    rfl
  · cases opened : before.openLists with
    | cons list others =>
        rw [commitStringTable_of_open noTexts opened]
        rfl
    | nil =>
        have table : Action.KeepsFile (beginList .stringTable >>= fun table =>
            before.pool.texts.forM (writeString .stringTableItem) >>= fun _ =>
              endList table >>= fun _ => do
                modify fun database => { database with stringTable := some table }
                return some table) := by
          apply (keepsFile_beginList _).seq
          intro table
          apply Action.KeepsFile.seq
          · exact .forM _ fun text => keepsFile_writeString _ text
          intro _
          apply (keepsFile_endList table).seq
          intro _
          apply Action.KeepsFile.seq
          · exact .change fun _ => rfl
          · exact fun _ => .done _
        rw [commitStringTable_eq noTexts opened]
        exact table _

/-! ## In steps -/

/-- Flush a database step by step. What was done to the directory before a failure stays done. -/
def flushing (database : Database) (directory : Directory) :
    EStateM.Result Error Directory Unit :=
  match commitStringTable.run database with
  | .error cause _ => .error cause directory
  | .ok _ last =>
      match last.file with
      | none => .error (.notFound .backingFile) directory
      | some handle =>
          match (FileAction.writeAll last.image.toList).run ⟨directory, handle⟩ with
          | .ok _ opened => .ok () opened.directory
          | .error cause opened => .error cause opened.directory

variable {database last : Database} {answer : Option Nat} {directory : Directory}
  {names : List Segment} {contents : List UInt8} {handle : Handle}

theorem file_of_commit (ran : commitStringTable.run database = .ok answer last) :
    last.file = database.file := by
  have kept := keepsFile_commitStringTable database
  rw [ran] at kept
  exact kept

/-- With the string table written and a file that may be written, the file gets the image. -/
theorem closeAndFlush_of_writable (ran : commitStringTable.run database = .ok answer last)
    (hasFile : database.file = some handle)
    (stands : Opened.StandsAt ⟨directory, handle⟩ names contents)
    (writable : handle.writable = true) :
    database.closeAndFlush directory =
        .ok (directory.insert names (.file last.image.toList)) ∧
      database.flushing directory =
        .ok () (directory.insert names (.file last.image.toList)) := by
  have hasFileThen := (file_of_commit ran).trans hasFile
  constructor
  · simp only [closeAndFlush, ran, hasFileThen, stands.writeAll writable]
    rfl
  · simp only [flushing, ran, hasFileThen, FileAction.writeAll_run stands writable]

theorem closeAndFlush_of_readOnly (ran : commitStringTable.run database = .ok answer last)
    (hasFile : database.file = some handle) (readOnly : handle.writable = false) :
    database.closeAndFlush directory = .error (.file (.readOnly handle.path)) ∧
      database.flushing directory = .error (.file (.readOnly handle.path)) directory := by
  have hasFileThen := (file_of_commit ran).trans hasFile
  constructor
  · simp only [closeAndFlush, ran, hasFileThen, Handle.writeAll_of_readOnly readOnly]
    rfl
  · simp only [flushing, ran, hasFileThen]
    rw [FileAction.writeAll_run_of_readOnly readOnly]

theorem closeAndFlush_of_none (ran : commitStringTable.run database = .ok answer last)
    (noFile : database.file = none) (directory : Directory) :
    database.closeAndFlush directory = .error (.notFound .backingFile) ∧
      database.flushing directory = .error (.notFound .backingFile) directory := by
  have noFileThen := (file_of_commit ran).trans noFile
  constructor
  · simp only [closeAndFlush, ran, noFileThen]
  · simp only [flushing, ran, noFileThen]

theorem closeAndFlush_of_error {cause : Error}
    (failed : commitStringTable.run database = .error cause last) (directory : Directory) :
    database.closeAndFlush directory = .error cause ∧
      database.flushing directory = .error cause directory := by
  constructor
  · simp only [closeAndFlush, failed]
  · simp only [flushing, failed]

end Database

end TagTree
