import TagTree.Proofs.Flushing

/-!
# Backing files

A file is opened at the end of a path as often as one likes, to be made anew or only to be read, and
each handle may be used at any time. Whatever happens, the file has what was last written to it, or
nothing if it was made anew since. A database that is flushed into it leaves its whole image there,
or the file as it was.
-/

namespace TagTree

/-! ## Handles on one path -/

/-- How a file is opened: it is made or emptied, or it is only read. -/
inductive Mode where
  | create
  | openRead
  deriving DecidableEq, Repr

/-- What happens to a file: it is opened, or a handle is used. Handles are numbered as they come. -/
inductive FileEvent where
  | start (mode : Mode)
  | use (number : Nat) (use : Use)

/-- A directory and the handles that were opened in it at the end of one path. -/
structure Handles where
  directory : Directory
  opened : List Handle

/-- An event with what is answered. -/
abbrev Answered : Type :=
  FileEvent × Except Error Reply

namespace Handles

/-- What an event does. One that is refused leaves everything as it is. -/
def perform (handles : Handles) (path : Path) : FileEvent → Outcome Handles
  | .start .create =>
      match Handle.create handles.directory path with
      | .ok (directory, handle) => (.ok .done, ⟨directory, handles.opened ++ [handle]⟩)
      | .error cause => (.error cause, handles)
  | .start .openRead =>
      match Handle.openRead handles.directory path with
      | .ok handle => (.ok .done, ⟨handles.directory, handles.opened ++ [handle]⟩)
      | .error cause => (.error cause, handles)
  | .use number use =>
      match handles.opened[number]? with
      | some handle =>
          let (answer, after) := Opened.perform ⟨handles.directory, handle⟩ use
          (answer, ⟨after.directory, handles.opened.set number after.handle⟩)
      | none => (.error (.notFound .backingFile), handles)

/-- Events one after the other with what is answered, and what there is then. -/
def performAll (handles : Handles) (path : Path) : List FileEvent → List Answered × Handles
  | [] => ([], handles)
  | event :: rest =>
      let (answer, next) := handles.perform path event
      let (later, last) := next.performAll path rest
      ((event, answer) :: later, last)

end Handles

/-- The bytes that an event leaves in the file: all that was written, or none where it was made. -/
def Answered.left? : Answered → Option (List UInt8)
  | (.start .create, .ok _) => some []
  | (.use _ (.writeAll bytes), .ok _) => some bytes
  | _ => none

/-- The way in which an event opened a file. -/
def Answered.mode? : Answered → Option Mode
  | (.start mode, .ok _) => some mode
  | _ => none

/-- What should be in the file after certain events: what the last write left that succeeded, or
nothing if the file was made since. If it never was, it has what it had at the beginning. -/
def lastWritten (initial : Option (List UInt8)) (events : List Answered) : Option (List UInt8) :=
  (events.filterMap Answered.left?).getLast?.or initial

/-- The ways in which the handles were opened. -/
def modes (events : List Answered) : List Mode :=
  events.filterMap Answered.mode?

theorem lastWritten_cons (initial : Option (List UInt8)) (event : Answered)
    (rest : List Answered) :
    lastWritten initial (event :: rest) = lastWritten (event.left?.or initial) rest := by
  rw [lastWritten, lastWritten]
  cases left : event.left? with
  | none => rw [List.filterMap_cons_none left, Option.none_or]
  | some bytes =>
      rw [List.filterMap_cons_some left, List.getLast?_cons, Option.some_or]
      cases (rest.filterMap Answered.left?).getLast? <;> rfl

theorem modes_cons (event : Answered) (rest : List Answered) :
    modes (event :: rest) = event.mode?.toList ++ modes rest := by
  rw [modes, modes]
  cases mode : event.mode? with
  | none => rw [List.filterMap_cons_none mode, Option.toList_none, List.nil_append]
  | some opened =>
      rw [List.filterMap_cons_some mode, Option.toList_some, List.singleton_append]

/-! ## Where the path leads -/

namespace Directory

/-- A path leads to certain names, where there is a file with certain contents or nothing. -/
structure LeadsTo (directory : Directory) (path : Path) (names : List Segment)
    (contents : Option (List UInt8)) : Prop where
  resolved : directory.resolve path = .ok (.below names, contents.map .file)
  noSlash : endsInSlash path = false

variable {directory : Directory} {path : Path} {names : List Segment}
  {contents : Option (List UInt8)} {bytes : List UInt8}

namespace LeadsTo

theorem lookup (leads : directory.LeadsTo path names contents) :
    directory.lookup names = contents.map .file :=
  (entry_of_resolve leads.resolved).symm

/-- It leads there still when other contents are put there. -/
theorem insert (leads : directory.LeadsTo path names contents) (bytes : List UInt8) :
    (directory.insert names (.file bytes)).LeadsTo path names (some bytes) where
  resolved := by
    have noFolder : directory.lookup names ≠ some .folder := by
      rw [leads.lookup]
      cases contents <;> simp
    exact resolve_insert bytes noFolder leads.resolved
  noSlash := leads.noSlash

theorem create (leads : directory.LeadsTo path names contents) :
    Handle.create directory path =
      .ok (directory.insert names (.file []), ⟨path, .below names, true, 0⟩) := by
  have noSlash := leads.noSlash
  cases contents <;>
    simp [Handle.create, Directory.create, leads.resolved, noSlash, bind, Except.bind, pure,
      Except.pure]

theorem find (leads : directory.LeadsTo path names (some bytes)) :
    directory.find path = .ok (.below names, .file bytes) := by
  simp [Directory.find, leads.resolved, leads.noSlash, bind, Except.bind, pure, Except.pure]

theorem openRead (leads : directory.LeadsTo path names (some bytes)) :
    Handle.openRead directory path = .ok ⟨path, .below names, false, 0⟩ := by
  rw [Handle.openRead, leads.find]

theorem openRead_of_none (leads : directory.LeadsTo path names none) :
    Handle.openRead directory path = .error (.file .noSuchFile) := by
  simp [Handle.openRead, Directory.find, leads.resolved, bind, Except.bind, throw, throwThe,
    MonadExceptOf.throw]

theorem read (leads : directory.LeadsTo path names (some bytes)) :
    directory.read path = .ok bytes := by
  simp [Directory.read, leads.find, bind, Except.bind, pure, Except.pure]

theorem toOption_read (leads : directory.LeadsTo path names contents) :
    (directory.read path).toOption = contents := by
  cases contents with
  | some bytes =>
      rw [leads.read]
      rfl
  | none =>
      simp [Directory.read, Directory.find, leads.resolved, bind, Except.bind, throw, throwThe,
        MonadExceptOf.throw, Except.toOption]

end LeadsTo

/-- Where a file can be made, a path leads to one already or to nothing. -/
theorem exists_leadsTo {made : Directory} {location : Location}
    (created : directory.create path = .ok (made, location)) :
    ∃ names contents, directory.LeadsTo path names contents := by
  obtain ⟨names, entry, -, -, resolved, noFolder, noSlash⟩ := create_eq created
  have isEntry : entry = directory.lookup names := entry_of_resolve resolved
  cases entry with
  | none => exact ⟨names, none, resolved, noSlash⟩
  | some entry =>
      cases entry with
      | file bytes => exact ⟨names, some bytes, resolved, noSlash⟩
      | folder => exact absurd isEntry.symm noFolder

end Directory

/-! ## What every event keeps -/

/-- A handle that was just opened at the end of a path that leads to certain names. -/
def Mode.handle (mode : Mode) (path : Path) (names : List Segment) : Handle :=
  ⟨path, .below names, decide (mode = .create), 0⟩

namespace Handles

/-- The path leads to certain names and contents, and the handles were opened there in certain ways.
Where one was, there is a file. -/
structure Serve (handles : Handles) (path : Path) (names : List Segment) (modes : List Mode)
    (contents : Option (List UInt8)) : Prop where
  leads : handles.directory.LeadsTo path names contents
  opened : handles.opened.map (·.seek 0) = modes.map (·.handle path names)
  present : contents = none → modes = []

variable {handles : Handles} {path : Path} {names : List Segment}
  {modes : List Mode} {contents : Option (List UInt8)} {number : Nat} {mode : Mode}

theorem perform_use {handle : Handle} (isHandle : handles.opened[number]? = some handle)
    (path : Path) (use : Use) :
    handles.perform path (.use number use) =
      ((Opened.perform ⟨handles.directory, handle⟩ use).1,
        ⟨(Opened.perform ⟨handles.directory, handle⟩ use).2.directory,
          handles.opened.set number
            (Opened.perform ⟨handles.directory, handle⟩ use).2.handle⟩) := by
  simp only [perform, isHandle]

theorem perform_use_of_none (noHandle : handles.opened[number]? = none) (path : Path) (use : Use) :
    handles.perform path (.use number use) = (.error (.notFound .backingFile), handles) := by
  simp only [perform, noHandle]

namespace Serve

theorem length (serve : handles.Serve path names modes contents) :
    handles.opened.length = modes.length := by
  simpa using congrArg List.length serve.opened

theorem opened_eq_none (serve : handles.Serve path names modes contents)
    (noMode : modes[number]? = none) : handles.opened[number]? = none := by
  rw [List.getElem?_eq_none_iff] at noMode ⊢
  rwa [serve.length]

/-- A handle stands at the file and may be written as it was opened. -/
theorem exists_handle (serve : handles.Serve path names modes contents)
    (isMode : modes[number]? = some mode) :
    ∃ handle bytes, handles.opened[number]? = some handle ∧ contents = some bytes ∧
      handle.seek 0 = mode.handle path names ∧
        Opened.StandsAt ⟨handles.directory, handle⟩ names bytes := by
  have same := congrArg (·[number]?) serve.opened
  simp only [List.getElem?_map, isMode, Option.map_some, Option.map_eq_some_iff] at same
  obtain ⟨handle, isHandle, fresh⟩ := same
  cases contents with
  | none =>
      rw [serve.present rfl] at isMode
      cases isMode
  | some bytes =>
      have location : handle.location = .below names := congrArg Handle.location fresh
      exact ⟨handle, bytes, isHandle, rfl, fresh, location, serve.leads.lookup⟩

/-- One more handle is opened at a file. -/
theorem started {bytes : List UInt8} (serve : handles.Serve path names modes (some bytes))
    (mode : Mode) :
    Serve ⟨handles.directory, handles.opened ++ [mode.handle path names]⟩ path names
      (modes ++ [mode]) (some bytes) where
  leads := serve.leads
  opened := by
    rw [List.map_append, List.map_append, serve.opened]
    rfl
  present := nofun

/-- Moving the cursor of a handle changes nothing. -/
theorem moved {handle : Handle} (serve : handles.Serve path names modes contents)
    (isHandle : handles.opened[number]? = some handle) (offset : Nat) :
    Serve ⟨handles.directory, handles.opened.set number (handle.seek offset)⟩ path names modes
      contents where
  leads := serve.leads
  opened := by
    obtain ⟨inside, rfl⟩ := List.getElem?_eq_some_iff.mp isHandle
    rw [List.map_set, ← serve.opened]
    apply List.ext_getElem?
    intro other
    by_cases same : number = other
    · subst same
      simp [inside, Handle.seek]
    · simp [List.getElem?_set_ne same]
  present := serve.present

/-- Other contents are there for all handles. -/
theorem stored (serve : handles.Serve path names modes contents) (bytes : List UInt8) :
    Serve ⟨handles.directory.insert names (.file bytes), handles.opened⟩ path names modes
      (some bytes) where
  leads := serve.leads.insert bytes
  opened := serve.opened
  present := nofun

theorem perform_create (serve : handles.Serve path names modes contents) :
    handles.perform path (.start .create) =
      (.ok .done, ⟨handles.directory.insert names (.file []),
        handles.opened ++ [⟨path, .below names, true, 0⟩]⟩) := by
  rw [perform, serve.leads.create]

theorem perform_openRead {bytes : List UInt8}
    (serve : handles.Serve path names modes (some bytes)) :
    handles.perform path (.start .openRead) =
      (.ok .done, ⟨handles.directory, handles.opened ++ [⟨path, .below names, false, 0⟩]⟩) := by
  rw [perform, serve.leads.openRead]

theorem perform_openRead_of_none (serve : handles.Serve path names modes none) :
    handles.perform path (.start .openRead) = (.error (.file .noSuchFile), handles) := by
  rw [perform, serve.leads.openRead_of_none]

/-- Using a handle changes the contents for all of them if it is a write that succeeds. -/
theorem used (serve : handles.Serve path names modes contents) (number : Nat) (use : Use) :
    (handles.perform path (.use number use)).2.Serve path names modes
      ((Answered.left? (.use number use, (handles.perform path (.use number use)).1)).or
        contents) := by
  cases isMode : modes[number]? with
  | none =>
      rw [perform_use_of_none (serve.opened_eq_none isMode)]
      cases use <;> exact serve
  | some mode =>
      obtain ⟨handle, bytes, isHandle, isSome, -, stands⟩ := serve.exists_handle isMode
      subst isSome
      obtain ⟨cursor, moves, ⟨same, refused⟩ | ⟨added, rfl, done, changed⟩⟩ :=
        stands.perform_cases use
      · rw [perform_use isHandle, moves, same]
        have nothing : Answered.left? (.use number use,
            (Opened.perform ⟨handles.directory, handle⟩ use).1) = none := by
          cases use with
          | writeAll added => rw [refused added rfl]; rfl
          | readAll => rfl
          | readPrefix count => rfl
        rw [nothing]
        exact serve.moved isHandle cursor
      · rw [perform_use isHandle, moves, changed, done]
        exact (serve.moved isHandle cursor).stored added

/-- Every event leaves in the file what it should. -/
theorem perform (serve : handles.Serve path names modes contents) (event : FileEvent) :
    (handles.perform path event).2.Serve path names
      (modes ++ (Answered.mode? (event, (handles.perform path event).1)).toList)
      ((Answered.left? (event, (handles.perform path event).1)).or contents) := by
  cases event with
  | start mode =>
      cases mode with
      | create =>
          rw [serve.perform_create]
          exact (serve.stored []).started .create
      | openRead =>
          cases contents with
          | none =>
              rw [serve.perform_openRead_of_none]
              simpa [Answered.mode?, Answered.left?] using serve
          | some bytes =>
              rw [serve.perform_openRead]
              exact serve.started .openRead
  | use number use =>
      have noMode : Answered.mode? (.use number use,
          (handles.perform path (.use number use)).1) = none := rfl
      rw [noMode, Option.toList_none, List.append_nil]
      exact serve.used number use

/-- And so do many. -/
theorem performAll (serve : handles.Serve path names modes contents) (events : List FileEvent) :
    (handles.performAll path events).2.Serve path names
      (modes ++ TagTree.modes (handles.performAll path events).1)
      (lastWritten contents (handles.performAll path events).1) := by
  -- What the events before have left is the beginning for those that follow.
  induction events generalizing handles modes contents with
  | nil => simpa [Handles.performAll, TagTree.modes, lastWritten] using serve
  | cons event rest ih =>
      have later := ih (serve.perform event)
      rw [Handles.performAll, modes_cons, lastWritten_cons, ← List.append_assoc]
      exact later

end Serve

/-! ## What a handle answers -/

/-- The handle with a certain number was opened in a certain way, and its file has certain bytes. -/
structure Gives (handles : Handles) (path : Path) (number : Nat) (mode : Mode)
    (bytes : List UInt8) : Prop where
  readAll : bytes.length < 2 ^ 32 →
    (handles.perform path (.use number .readAll)).1 = .ok (.bytes bytes)
  readPrefix : ∀ count, (handles.perform path (.use number (.readPrefix count))).1 =
    .ok (.bytes (bytes.take (min count bytes.length)))
  written : mode = .create → ∀ added,
    (handles.perform path (.use number (.writeAll added))).1 = .ok .done
  refused : mode = .openRead → ∀ added,
    handles.perform path (.use number (.writeAll added)) =
      (.error (.file (.readOnly path)), handles)
  stepwise : ∃ handle, handles.opened[number]? = some handle ∧ ∀ use : Use,
    use.action.run ⟨handles.directory, handle⟩ =
      (Opened.perform ⟨handles.directory, handle⟩ use).result

theorem Serve.gives (serve : handles.Serve path names modes contents)
    (isMode : modes[number]? = some mode) :
    ∃ bytes, contents = some bytes ∧ handles.Gives path number mode bytes := by
  obtain ⟨handle, bytes, isHandle, isSome, fresh, stands⟩ := serve.exists_handle isMode
  have writable : handle.writable = decide (mode = .create) := congrArg Handle.writable fresh
  have hasPath : handle.path = path := congrArg Handle.path fresh
  refine ⟨bytes, isSome, ?_, ?_, ?_, ?_, handle, isHandle, stands.action_run⟩
  · intro small
    rw [perform_use isHandle, Opened.perform, stands.readAll small]
    rfl
  · intro count
    rw [perform_use isHandle, Opened.perform, stands.readPrefix, List.take_eq_take_min]
    rfl
  · rintro rfl added
    rw [perform_use isHandle, Opened.perform, stands.writeAll writable]
  · rintro rfl added
    obtain ⟨inside, rfl⟩ := List.getElem?_eq_some_iff.mp isHandle
    rw [perform_use isHandle, Opened.perform, Handle.writeAll_of_readOnly writable, hasPath,
      List.set_getElem_self]

/-! ## What a database leaves -/

/-- What comes of flushing a database whose file is that behind the handle with a certain number, or
none if there is no such handle. -/
structure Flushes (handles : Handles) (path : Path) (number : Nat) (mode : Option Mode)
    (database : Database) : Prop where
  /-- In steps it comes to the same, and whatever fails leaves the directory as it was. -/
  stepwise : database.flushing handles.directory =
    match database.closeAndFlush handles.directory with
    | .ok after => .ok () after
    | .error cause => .error cause handles.directory
  /-- With the string table written, all of the image is written through the handle. -/
  written : mode = some .create → ∀ answer last,
    Database.commitStringTable.run database = .ok answer last →
      database.closeAndFlush handles.directory =
          .ok (handles.perform path (.use number (.writeAll last.image.toList))).2.directory ∧
        (handles.perform path (.use number (.writeAll last.image.toList))).2.directory.read path =
          .ok last.image.toList
  uncommitted : ∀ cause last, Database.commitStringTable.run database = .error cause last →
    database.closeAndFlush handles.directory = .error cause
  listOpen : ∀ list others, database.pool.texts ≠ [] → database.openLists = list :: others →
    database.closeAndFlush handles.directory = .error (.format (.listOpen list))
  noFile : mode = none → ∀ answer last,
    Database.commitStringTable.run database = .ok answer last →
      database.closeAndFlush handles.directory = .error (.notFound .backingFile)
  readOnly : mode = some .openRead → ∀ answer last,
    Database.commitStringTable.run database = .ok answer last →
      database.closeAndFlush handles.directory = .error (.file (.readOnly path))

namespace Serve

variable {database last : Database} {answer : Option Nat}

theorem flush_create (serve : handles.Serve path names modes contents)
    (hasFile : database.file = handles.opened[number]?) (isMode : modes[number]? = some .create)
    (ran : Database.commitStringTable.run database = .ok answer last) :
    ∃ after, database.closeAndFlush handles.directory = .ok after ∧
      database.flushing handles.directory = .ok () after ∧
      (handles.perform path (.use number (.writeAll last.image.toList))).2.directory = after ∧
      after.read path = .ok last.image.toList := by
  obtain ⟨handle, bytes, isHandle, rfl, fresh, stands⟩ := serve.exists_handle isMode
  have writable : handle.writable = true := congrArg Handle.writable fresh
  obtain ⟨flushed, steps⟩ :=
    Database.closeAndFlush_of_writable ran (hasFile.trans isHandle) stands writable
  refine ⟨_, flushed, steps, ?_, (serve.leads.insert last.image.toList).read⟩
  rw [perform_use isHandle, Opened.perform, stands.writeAll writable]

theorem flush_openRead (serve : handles.Serve path names modes contents)
    (hasFile : database.file = handles.opened[number]?) (isMode : modes[number]? = some .openRead)
    (ran : Database.commitStringTable.run database = .ok answer last) :
    database.closeAndFlush handles.directory = .error (.file (.readOnly path)) ∧
      database.flushing handles.directory =
        .error (.file (.readOnly path)) handles.directory := by
  obtain ⟨handle, bytes, isHandle, rfl, fresh, stands⟩ := serve.exists_handle isMode
  have readOnly : handle.writable = false := congrArg Handle.writable fresh
  have hasPath : handle.path = path := congrArg Handle.path fresh
  rw [← hasPath]
  exact Database.closeAndFlush_of_readOnly ran (hasFile.trans isHandle) readOnly

theorem flushes (serve : handles.Serve path names modes contents)
    (hasFile : database.file = handles.opened[number]?) :
    handles.Flushes path number modes[number]? database where
  stepwise := by
    cases ran : Database.commitStringTable.run database with
    | error cause last =>
        obtain ⟨flushed, steps⟩ := Database.closeAndFlush_of_error ran handles.directory
        rw [flushed, steps]
    | ok answer last =>
        match isMode : modes[number]? with
        | none =>
            have noFile := hasFile.trans (serve.opened_eq_none isMode)
            obtain ⟨flushed, steps⟩ := Database.closeAndFlush_of_none ran noFile handles.directory
            rw [flushed, steps]
        | some .create =>
            obtain ⟨after, flushed, steps, -⟩ := serve.flush_create hasFile isMode ran
            rw [flushed, steps]
        | some .openRead =>
            obtain ⟨flushed, steps⟩ := serve.flush_openRead hasFile isMode ran
            rw [flushed, steps]
  written := by
    intro isMode answer last ran
    obtain ⟨_, flushed, -, rfl, stored⟩ := serve.flush_create hasFile isMode ran
    exact ⟨flushed, stored⟩
  uncommitted := by
    intro cause last failed
    exact (Database.closeAndFlush_of_error failed handles.directory).1
  listOpen := by
    intro list others someTexts isOpen
    have failed := Database.commitStringTable_of_open someTexts isOpen
    exact (Database.closeAndFlush_of_error failed handles.directory).1
  noFile := by
    intro isNone answer last ran
    have noFile := hasFile.trans (serve.opened_eq_none isNone)
    exact (Database.closeAndFlush_of_none ran noFile handles.directory).1
  readOnly := by
    intro isMode answer last ran
    exact (serve.flush_openRead hasFile isMode ran).1

end Serve

/-! ## What the file has -/

/-- All handles that were opened in certain ways give certain contents, and so does the path. -/
structure Hold (handles : Handles) (path : Path) (modes : List Mode)
    (contents : Option (List UInt8)) : Prop where
  stored : (handles.directory.read path).toOption = contents
  create : (handles.perform path (.start .create)).1 = .ok .done
  openRead : (handles.perform path (.start .openRead)).1 =
    if contents.isSome then .ok .done else .error (.file .noSuchFile)
  gives : ∀ number mode, modes[number]? = some mode →
    ∃ bytes, contents = some bytes ∧ handles.Gives path number mode bytes
  flushes : ∀ number database, database.file = handles.opened[number]? →
    handles.Flushes path number modes[number]? database

theorem Serve.hold (serve : handles.Serve path names modes contents) :
    handles.Hold path modes contents where
  stored := serve.leads.toOption_read
  create := by rw [serve.perform_create]
  openRead := by
    cases contents with
    | none => rw [serve.perform_openRead_of_none]; rfl
    | some bytes => rw [serve.perform_openRead]; rfl
  gives := fun _ _ isMode => serve.gives isMode
  flushes := fun _ _ hasFile => serve.flushes hasFile

end Handles

/-- Whatever is done with a file that can be made at the end of a path, and through however many
handles, it always has what was last written to it. -/
theorem Directory.holds_lastWritten {start made : Directory} {path : Path} {location : Location}
    (created : start.create path = .ok (made, location)) (events : List FileEvent) :
    (Handles.performAll ⟨start, []⟩ path events).2.Hold path
      (modes (Handles.performAll ⟨start, []⟩ path events).1)
      (lastWritten (start.read path).toOption
        (Handles.performAll ⟨start, []⟩ path events).1) := by
  obtain ⟨names, initial, leads⟩ := exists_leadsTo created
  rw [leads.toOption_read]
  have serve : Handles.Serve ⟨start, []⟩ path names [] initial := ⟨leads, rfl, fun _ => rfl⟩
  exact (serve.performAll events).hold

/-- A file is read, made anew under the handle that reads it, written and written again shorter,
with the cursor left in the middle in between. The first handle is refused to write. -/
def Handles.sampleEvents : List FileEvent :=
  [.start .openRead, .use 0 .readAll, .start .create, .use 1 (.writeAll [4, 5, 6, 7]),
    .use 1 (.readPrefix 2), .use 1 (.writeAll [8, 9]), .use 0 (.writeAll [0]),
    .use 0 (.readPrefix 1)]

theorem Directory.holds_lastWritten_sampleEvents :
    let path : Path := ⟨[0x66]⟩
    let start : Directory := ⟨[([[0x66]], .file [1, 2, 3])]⟩
    start.create path = .ok (start.insert [[0x66]] (.file []), .below [[0x66]]) ∧
      (Handles.performAll ⟨start, []⟩ path Handles.sampleEvents).2.Hold path
        [.openRead, .create] (some [8, 9]) := by
  intro path start
  have created : start.create path = .ok (start.insert [[0x66]] (.file []), .below [[0x66]]) :=
    rfl
  exact ⟨created, holds_lastWritten created Handles.sampleEvents⟩

end TagTree
