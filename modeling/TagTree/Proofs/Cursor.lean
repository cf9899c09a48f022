import TagTree.Directory.Handle
import TagTree.Proofs.Loading
import TagTree.Proofs.Sequence

/-!
# Open files step by step

A file that is open is read and written in steps: the cursor is put somewhere, bytes are read or
written there, the file is cut. Each step leaves the cursor and the bytes changed for the next one,
also when that one fails. Reading a whole file, reading its beginning and writing all of it are such
steps one after the other, and come to what the handle does at once.
-/

namespace TagTree

/-- A directory and a file in it that is open. -/
structure Opened where
  directory : Directory
  handle : Handle

/-- What is done with an open file, one step after the other. -/
abbrev FileAction := EStateM Error Opened

namespace FileAction

/-! ## Single steps -/

/-- All bytes of the file. -/
def contents : FileAction (List UInt8) := do
  let opened ← get
  ofExcept (opened.handle.contents opened.directory)

/-- Let the file have other bytes. -/
def store (bytes : List UInt8) : FileAction Unit := do
  let opened ← get
  match opened.handle.location with
  | .below names =>
      set { opened with directory := opened.directory.insert names (.file bytes) }
  | _ => throw (.file .noSuchFile)

/-- Put the cursor somewhere. -/
def seek (offset : Nat) : FileAction Unit :=
  modify fun opened => { opened with handle := opened.handle.seek offset }

/-- Read up to so many bytes at the cursor, which is put behind them. -/
def read (count : Nat) : FileAction (List UInt8) := do
  let bytes ← contents
  let opened ← get
  let (found, handle) := opened.handle.read bytes count
  set { opened with handle }
  return found

/-- Cut the file to so many bytes, or fill it up with zeros. The cursor stays. -/
def setLength (length : Nat) : FileAction Unit := do
  let bytes ← contents
  store (bytes.take length ++ List.replicate (length - bytes.length) 0)

/-- Write bytes at the cursor, which is put behind them. -/
def write (added : List UInt8) : FileAction Unit := do
  let bytes ← contents
  let opened ← get
  let (changed, handle) := opened.handle.write bytes added
  store changed
  modify fun opened => { opened with handle }

/-! ## Steps one after the other -/

/-- Read from the beginning to the end. -/
def readAll : FileAction (List UInt8) := do
  let size := (← contents).length
  if sizeLimit ≤ size then throw (.format (.fileTooLarge size))
  seek 0
  read size

/-- Read up to so many bytes from the beginning. -/
def readPrefix (count : Nat) : FileAction (List UInt8) := do
  seek 0
  read count

/-- Cut the file to nothing and write from the beginning, unless it may only be read. -/
def writeAll (bytes : List UInt8) : FileAction Unit := do
  let opened ← get
  if !opened.handle.writable then throw (.file (.readOnly opened.handle.path))
  setLength 0
  seek 0
  write bytes

end FileAction

/-- What is asked of an open file. -/
inductive Use where
  | readAll
  | readPrefix (count : Nat)
  | writeAll (bytes : List UInt8)

/-- A use in steps. -/
def Use.action : Use → FileAction Reply
  | .readAll => do return .bytes (← FileAction.readAll)
  | .readPrefix count => do return .bytes (← FileAction.readPrefix count)
  | .writeAll bytes => do
      FileAction.writeAll bytes
      return .done

namespace Opened

/-- What a handle does when it is used. A use that is refused leaves everything as it is. -/
def perform (opened : Opened) : Use → Outcome Opened
  | .readAll => read opened (opened.handle.readAll opened.directory)
  | .readPrefix count => read opened (opened.handle.readPrefix opened.directory count)
  | .writeAll bytes =>
      match opened.handle.writeAll opened.directory bytes with
      | .ok (directory, handle) => (.ok .done, ⟨directory, handle⟩)
      | .error cause => (.error cause, opened)
where
  read (opened : Opened) : Except Error (List UInt8 × Handle) → Outcome Opened
    | .ok (bytes, handle) => (.ok (.bytes bytes), { opened with handle })
    | .error cause => (.error cause, opened)

/-- The open file has certain bytes and stands at certain names. -/
structure StandsAt (opened : Opened) (names : List Segment) (contents : List UInt8) : Prop where
  location : opened.handle.location = .below names
  entry : opened.directory.lookup names = some (.file contents)

variable {opened : Opened} {names : List Segment} {contents : List UInt8}

theorem StandsAt.contents_eq (stands : opened.StandsAt names contents) :
    opened.handle.contents opened.directory = .ok contents := by
  rw [Handle.contents, stands.location, Directory.entryAt?, stands.entry]

/-- It does so wherever the cursor is put. -/
theorem StandsAt.seek (stands : opened.StandsAt names contents) (offset : Nat) :
    StandsAt { opened with handle := opened.handle.seek offset } names contents :=
  ⟨stands.location, stands.entry⟩

theorem StandsAt.store (stands : opened.StandsAt names contents) (bytes : List UInt8) :
    StandsAt { opened with directory := opened.directory.insert names (.file bytes) } names bytes :=
  ⟨stands.location, Directory.lookup_insert_self _ _ _⟩

/-- The file is read as a whole, wherever the cursor was. -/
theorem StandsAt.readAll (stands : opened.StandsAt names contents)
    (small : contents.length < sizeLimit) :
    opened.handle.readAll opened.directory =
      .ok (contents, opened.handle.seek contents.length) := by
  have fits : ¬sizeLimit ≤ contents.length := Nat.not_le.mpr small
  simp [Handle.readAll, stands.contents_eq, fits, Handle.read, Handle.seek, bind, Except.bind,
    pure, Except.pure]

theorem StandsAt.readAll_of_le (stands : opened.StandsAt names contents)
    (large : sizeLimit ≤ contents.length) :
    opened.handle.readAll opened.directory =
      .error (.format (.fileTooLarge contents.length)) := by
  simp [Handle.readAll, stands.contents_eq, large, bind, Except.bind, throw, throwThe,
    MonadExceptOf.throw]

/-- Its beginning is read from the beginning, wherever the cursor was. -/
theorem StandsAt.readPrefix (stands : opened.StandsAt names contents) (count : Nat) :
    opened.handle.readPrefix opened.directory count =
      .ok (contents.take count, opened.handle.seek (contents.take count).length) := by
  by_cases nothing : count = 0
  · simp [Handle.readPrefix, nothing, Handle.seek, pure, Except.pure]
  · simp [Handle.readPrefix, nothing, stands.contents_eq, Handle.read, Handle.seek, bind,
      Except.bind, pure, Except.pure]

/-- What is written is all that the file has then, wherever the cursor was and whatever it had. -/
theorem StandsAt.writeAll (stands : opened.StandsAt names contents)
    (writable : opened.handle.writable = true) (bytes : List UInt8) :
    opened.handle.writeAll opened.directory bytes =
      .ok (opened.directory.insert names (.file bytes), opened.handle.seek bytes.length) := by
  simp [Handle.writeAll, writable, stands.location, Handle.write, Handle.seek, pure, Except.pure]

end Opened

theorem Handle.writeAll_of_readOnly {handle : Handle} (readOnly : handle.writable = false)
    (directory : Directory) (bytes : List UInt8) :
    handle.writeAll directory bytes = .error (.file (.readOnly handle.path)) := by
  simp [Handle.writeAll, readOnly, bind, Except.bind, throw, throwThe, MonadExceptOf.throw]

/-- A use moves the cursor. It changes the file if it is a write that succeeds, and in no other
case. -/
theorem Opened.StandsAt.perform_cases {opened : Opened} {names : List Segment}
    {contents : List UInt8} (stands : opened.StandsAt names contents) (use : Use) :
    ∃ cursor, (opened.perform use).2.handle = opened.handle.seek cursor ∧
      ((opened.perform use).2.directory = opened.directory ∧
          (∀ bytes, use = .writeAll bytes →
            (opened.perform use).1 = .error (.file (.readOnly opened.handle.path))) ∨
        ∃ bytes, use = .writeAll bytes ∧ (opened.perform use).1 = .ok .done ∧
          (opened.perform use).2.directory = opened.directory.insert names (.file bytes)) := by
  have stay : opened.handle = opened.handle.seek opened.handle.cursor := rfl
  cases use with
  | readAll =>
      by_cases large : sizeLimit ≤ contents.length
      · rw [perform, stands.readAll_of_le large]
        exact ⟨_, stay, .inl ⟨rfl, nofun⟩⟩
      · rw [perform, stands.readAll (Nat.not_le.mp large)]
        exact ⟨_, rfl, .inl ⟨rfl, nofun⟩⟩
  | readPrefix count =>
      rw [perform, stands.readPrefix]
      exact ⟨_, rfl, .inl ⟨rfl, nofun⟩⟩
  | writeAll bytes =>
      cases writable : opened.handle.writable with
      | true =>
          rw [perform, stands.writeAll writable]
          exact ⟨_, rfl, .inr ⟨bytes, rfl, rfl, rfl⟩⟩
      | false =>
          rw [perform, Handle.writeAll_of_readOnly writable]
          exact ⟨_, stay, .inl ⟨rfl, fun _ _ => rfl⟩⟩

/-- What is put somewhere last is all that is there. -/
theorem Directory.insert_insert (directory : Directory) (names : List Segment)
    (first second : Entry) :
    (directory.insert names first).insert names second = directory.insert names second := by
  simp [insert, List.filter_filter]

/-! ## Steps come to uses -/

namespace FileAction

variable {opened : Opened} {names : List Segment} {bytes : List UInt8}

theorem contents_run (stands : opened.StandsAt names bytes) :
    contents.run opened = .ok bytes opened := by
  rw [contents, EStateM.run_bind, EStateM.run_get]
  simp only [stands.contents_eq]
  rfl

theorem store_run (location : opened.handle.location = .below names) (bytes : List UInt8) :
    (store bytes).run opened =
      .ok () { opened with directory := opened.directory.insert names (.file bytes) } := by
  rw [store, EStateM.run_bind, EStateM.run_get]
  simp only [location]
  rfl

theorem seek_run (opened : Opened) (offset : Nat) :
    (seek offset).run opened = .ok () { opened with handle := opened.handle.seek offset } :=
  rfl

theorem read_run (stands : opened.StandsAt names bytes) (count : Nat) :
    (read count).run opened =
      .ok (opened.handle.read bytes count).1
        { opened with handle := (opened.handle.read bytes count).2 } := by
  rw [read, EStateM.run_bind, contents_run stands]
  rfl

theorem setLength_run (stands : opened.StandsAt names bytes) (length : Nat) :
    (setLength length).run opened =
      .ok () { opened with
        directory := opened.directory.insert names
          (.file (bytes.take length ++ List.replicate (length - bytes.length) 0)) } := by
  rw [setLength, EStateM.run_bind, contents_run stands]
  exact store_run stands.location _

theorem write_run (stands : opened.StandsAt names bytes) (added : List UInt8) :
    (write added).run opened =
      .ok () ⟨opened.directory.insert names (.file (opened.handle.write bytes added).1),
        (opened.handle.write bytes added).2⟩ := by
  rw [write, EStateM.run_bind, contents_run stands]
  simp only [EStateM.run_bind, EStateM.run_get]
  rw [store_run stands.location]
  rfl

theorem readAll_run (stands : opened.StandsAt names bytes) (small : bytes.length < sizeLimit) :
    readAll.run opened =
      .ok bytes { opened with handle := opened.handle.seek bytes.length } := by
  have fits : ¬sizeLimit ≤ bytes.length := Nat.not_le.mpr small
  rw [readAll, EStateM.run_bind, contents_run stands]
  simp only [fits, if_false, EStateM.run_bind, seek_run, read_run (stands.seek 0)]
  simp [Handle.read, Handle.seek]

theorem readAll_run_of_le (stands : opened.StandsAt names bytes)
    (large : sizeLimit ≤ bytes.length) :
    readAll.run opened = .error (.format (.fileTooLarge bytes.length)) opened := by
  rw [readAll, EStateM.run_bind, contents_run stands]
  simp only [large, if_true, EStateM.run_bind]
  rfl

theorem readPrefix_run (stands : opened.StandsAt names bytes) (count : Nat) :
    (readPrefix count).run opened =
      .ok (bytes.take count)
        { opened with handle := opened.handle.seek (bytes.take count).length } := by
  rw [readPrefix, EStateM.run_bind, seek_run]
  simp only [read_run (stands.seek 0)]
  simp [Handle.read, Handle.seek]

theorem writeAll_run (stands : opened.StandsAt names bytes)
    (writable : opened.handle.writable = true) (added : List UInt8) :
    (writeAll added).run opened =
      .ok () ⟨opened.directory.insert names (.file added), opened.handle.seek added.length⟩ := by
  have cut := stands.store []
  rw [writeAll, EStateM.run_bind, EStateM.run_get]
  simp only [writable, Bool.not_true, Bool.false_eq_true, if_false, EStateM.run_bind,
    setLength_run stands, seek_run]
  rw [List.take_zero, Nat.zero_sub, List.replicate_zero, List.append_nil, write_run (cut.seek 0)]
  simp [Handle.write, Handle.seek, Directory.insert_insert]

theorem writeAll_run_of_readOnly (readOnly : opened.handle.writable = false)
    (added : List UInt8) :
    (writeAll added).run opened = .error (.file (.readOnly opened.handle.path)) opened := by
  rw [writeAll, EStateM.run_bind, EStateM.run_get]
  simp only [readOnly, Bool.not_false, if_true, EStateM.run_bind]
  rfl

end FileAction

/-- An outcome as the result of an action. -/
def Outcome.result {σ : Type} : Outcome σ → EStateM.Result Error σ Reply
  | (.ok reply, state) => .ok reply state
  | (.error cause, state) => .error cause state

/-- The steps of a use come to what the handle does at once. -/
theorem Opened.StandsAt.action_run {opened : Opened} {names : List Segment} {bytes : List UInt8}
    (stands : opened.StandsAt names bytes) (use : Use) :
    use.action.run opened = (opened.perform use).result := by
  cases use with
  | readAll =>
      rw [Use.action, EStateM.run_bind]
      by_cases large : sizeLimit ≤ bytes.length
      · rw [FileAction.readAll_run_of_le stands large, perform, stands.readAll_of_le large]
        rfl
      · have small := Nat.not_le.mp large
        rw [FileAction.readAll_run stands small, perform, stands.readAll small]
        rfl
  | readPrefix count =>
      rw [Use.action, EStateM.run_bind, FileAction.readPrefix_run stands, perform,
        stands.readPrefix]
      rfl
  | writeAll added =>
      rw [Use.action, EStateM.run_bind]
      cases writable : opened.handle.writable with
      | true =>
          rw [FileAction.writeAll_run stands writable, perform, stands.writeAll writable]
          rfl
      | false =>
          rw [FileAction.writeAll_run_of_readOnly writable, perform,
            Handle.writeAll_of_readOnly writable]
          rfl

end TagTree
