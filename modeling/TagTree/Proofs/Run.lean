import TagTree.Proofs.Draft
import TagTree.Proofs.Walk

/-!
# Runs

A run is any sequence of calls on a new database, whatever each of them answers, as long as only
lists are closed that were answered before and no call runs out of 32-bit places halfway. Its calls
stand in a list, the latest first, each with the database before and after it. Every state of a run
is the last one of some run, so what is said of the last state holds in all of them.

The draft of a run follows from its calls, and the database is always as the draft says.
-/

namespace TagTree

/-- A call with the database before it, what came of it, and the database after it. -/
structure Event where
  call : Call
  before : Database
  outcome : Except Error (Option Nat)
  after : Database

namespace Call

/-- Make a call. -/
def event (call : Call) (before : Database) : Event :=
  match call.action.run before with
  | .ok answer after => ⟨call, before, .ok answer, after⟩
  | .error cause after => ⟨call, before, .error cause, after⟩

end Call

theorem Call.event_call (call : Call) (before : Database) : (call.event before).call = call := by
  rw [Call.event]
  split <;> rfl

namespace Event

/-- Whether the call had no room for something. -/
def outOfRoom (event : Event) : Bool :=
  match event.outcome with
  | .error (.outOfRange ..) => true
  | _ => false

/-- The call succeeded. -/
def Succeeded (event : Event) : Prop :=
  ∃ answer, event.outcome = .ok answer

theorem succeeded_of_isOk {event : Event} (isOk : event.outcome.isOk = true) :
    event.Succeeded := by
  cases outcome : event.outcome with
  | ok answer => exact ⟨answer, outcome⟩
  | error cause =>
      rw [outcome] at isOk
      cases isOk

/-- The list that the call answered. -/
def answer? (event : Event) : Option Nat :=
  match event.outcome with
  | .ok answer => answer
  | .error _ => none

/-- The records that the call added. -/
def added (event : Event) : List Record :=
  match event.outcome with
  | .ok _ => event.call.added event.before.pool.texts
  | .error _ => []

/-- The places at which the call added a record, and so its tag. -/
def starts (event : Event) : List Nat :=
  Layout.places event.before.image.size event.added

end Event

/-- The lists that calls answered. -/
def answers (events : List Event) : List Nat :=
  events.filterMap Event.answer?

/-- The places at which calls added records. -/
def starts (events : List Event) : List Nat :=
  events.flatMap Event.starts

theorem mem_starts_cons {id : Nat} {event : Event} {earlier : List Event} :
    id ∈ starts (event :: earlier) ↔ id ∈ event.starts ∨ id ∈ starts earlier := by
  rw [starts, List.flatMap_cons, List.mem_append, starts]

/-- A run of calls from a new database on to some state. -/
inductive Run (config : Config) : List Event → Database → Prop where
  | start : Run config [] (.inMemory config)
  | step {events : List Event} {database : Database} (run : Run config events database)
      (call : Call) (known : ∀ id ∈ call.closed?, id ∈ answers events)
      (room : (call.event database).outOfRoom = true → (call.event database).after = database) :
      Run config (call.event database :: events) (call.event database).after

/-- The events and the last state of some calls, of which the latest stands first. -/
def play (config : Config) : List Call → List Event × Database
  | [] => ([], .inMemory config)
  | call :: earlier =>
      let event := call.event (play config earlier).2
      (event :: (play config earlier).1, event.after)

/-- The calls make up a run. -/
def Playable (config : Config) : List Call → Prop
  | [] => True
  | call :: earlier =>
      Playable config earlier ∧ (∀ id ∈ call.closed?, id ∈ answers (play config earlier).1) ∧
        (call.event (play config earlier).2).outOfRoom = false

instance decidablePlayable (config : Config) : (calls : List Call) →
    Decidable (Playable config calls)
  | [] => inferInstanceAs (Decidable True)
  | _ :: earlier =>
      have := decidablePlayable config earlier
      inferInstanceAs (Decidable (_ ∧ _ ∧ _))

theorem run_play {config : Config} {calls : List Call} (playable : Playable config calls) :
    Run config (play config calls).1 (play config calls).2 := by
  induction calls with
  | nil => exact .start
  | cons call earlier ih =>
      apply (ih playable.1).step call playable.2.1
      intro noRoom
      rw [playable.2.2] at noRoom
      cases noRoom

/-- Each of the calls was made on the database that the earlier ones left. -/
theorem mem_play (config : Config) (later : List Call) (call : Call) (earlier : List Call) :
    call.event (play config earlier).2 ∈ (play config (later ++ call :: earlier)).1 := by
  induction later with
  | nil => exact List.mem_cons_self ..
  | cons next later ih => exact List.mem_cons_of_mem _ ih

/-- A short run: the outer of two lists is closed first, a third one is dropped, and the table is
refused before the inner list is closed. The bytes of the binary record look like a tag. -/
def sampleCalls : List Call := [
  .write ⟨0x1001⟩ .null, .commit, .endList 24, .commit, .write ⟨0x8001⟩ (.string "é"),
  .dropList 38, .beginList ⟨0x7002⟩, .endList 12, .write ⟨0x9001⟩ (.binary [0x07, 0x70]),
  .beginList .exe, .writeInterned .name "ab", .beginList .database]

theorem playable_sampleCalls : Playable {} sampleCalls := by
  decide +kernel

namespace Draft

open Layout

/-- The draft of the calls made so far. -/
def ofEvents : List Event → Draft
  | [] => empty
  | event :: earlier =>
      match event.outcome with
      | .ok _ => (ofEvents earlier).revise event.call
      | .error _ => ofEvents earlier

@[simp] theorem ofEvents_done (call : Call) (before : Database) (answer : Option Nat)
    (after : Database) (events : List Event) :
    ofEvents (⟨call, before, .ok answer, after⟩ :: events) = (ofEvents events).revise call := rfl

/-- A database is as the draft says. -/
structure Describes (draft : Draft) (config : Config) (database : Database) : Prop where
  bytes : database.image.toList = config.header.encode ++ Layout.bytes draft.records
  header : database.header = config.header
  texts : database.pool.texts = draft.texts
  table : database.stringTable = draft.table
  openLists : database.openLists = draft.openLists

variable {config : Config} {draft : Draft} {before : Database} {call : Call}

theorem describes_inMemory (config : Config) : empty.Describes config (.inMemory config) where
  bytes := by simp [empty]
  header := rfl
  texts := rfl
  table := rfl
  openLists := rfl

theorem Describes.laidOut (describes : draft.Describes config before) :
    before.image.LaidOut draft.records :=
  ⟨_, config.header.length_encode, describes.bytes⟩

theorem Describes.size_eq (describes : draft.Describes config before) :
    before.image.size = draft.size :=
  describes.laidOut.size_eq

theorem Describes.add {image : Image} (records : List Record)
    (describes : draft.Describes config before)
    (added : image.toList = before.image.toList ++ Layout.bytes records) :
    (draft.add records).Describes config { before with image } where
  bytes := by rw [added, describes.bytes, List.append_assoc, ← bytes_append]; rfl
  header := describes.header
  texts := describes.texts
  table := describes.table
  openLists := describes.openLists

/-- What can come of a call where the database is as a draft says. -/
inductive Reaction (config : Config) (draft : Draft) (before : Database) (call : Call) : Prop where
  | noRoom {cause : Error} {after : Database}
      (ran : call.action.run before = .error cause after) (isNoRoom : cause.NoRoom)
  | refused {cause : Error} (ran : call.action.run before = .error cause before)
  | done {after : Database} (allowed : draft.Allows call)
      (ran : call.action.run before = .ok (draft.answer call) after)
      (describes : (draft.revise call).Describes config after)

/-! ## One call -/

theorem run_answering_ok {action : Action Unit} {after : Database}
    (ran : action.run before = .ok () after) (answer : Option Nat) :
    (action >>= fun _ => pure answer).run before = .ok answer after := by
  rw [EStateM.run_bind, ran]
  rfl

theorem run_answering_error {action : Action Unit} {cause : Error} {after : Database}
    (ran : action.run before = .error cause after) (answer : Option Nat) :
    (action >>= fun _ => pure answer).run before = .error cause after := by
  rw [EStateM.run_bind, ran]

/-- A call that adds one record by an action of which that is known. -/
theorem Describes.react_appends {action : Action Unit} {record : Record}
    (describes : draft.Describes config before) (allowed : draft.Allows call)
    (appends : action.Appends record.encode)
    (runs : call.action = action >>= fun _ => pure none)
    (unanswered : draft.answer call = none) (revised : draft.revise call = draft.add [record]) :
    Reaction config draft before call := by
  by_cases room : before.image.HasRoom record.encode.length
  · obtain ⟨after, ran, image, rfl, added⟩ := appends.done before room
    apply Reaction.done allowed
    · rw [runs, unanswered]
      exact run_answering_ok ran none
    · rw [revised]
      apply describes.add
      rw [added, bytes_cons, bytes_nil, List.append_nil]
  · obtain ⟨cause, after, ran, isNoRoom⟩ := appends.refused before room
    have failed : call.action.run before = .error cause after := by
      rw [runs]
      exact run_answering_error ran none
    exact .noRoom failed isNoRoom

theorem Describes.react_write (describes : draft.Describes config before) (tag : Tag)
    (content : Leaf) : Reaction config draft before (.write tag content) := by
  by_cases sound : (Record.leaf tag content).Sound
  · exact describes.react_appends sound (Leaf.appends_write sound) rfl rfl rfl
  · obtain ⟨cause, ran, -⟩ := Leaf.write_of_not_sound sound before
    exact .refused (run_answering_error ran none)

theorem Describes.react_writeFile (describes : draft.Describes config before) (tag : Tag)
    (directory : Directory) (path : Path) :
    Reaction config draft before (.writeFile tag directory path) := by
  by_cases fits : tag.kind? = some .binary
  · cases contents : directory.read path with
    | ok bytes =>
        have sound : (Record.leaf tag (.binary bytes)).Sound := ⟨fits, trivial⟩
        have allowed : draft.Allows (.writeFile tag directory path) := ⟨fits, bytes, contents⟩
        apply describes.react_appends allowed (Leaf.appends_write sound)
        · simp only [Call.action, Database.writeBinaryFile, contents]
          rfl
        · rfl
        · rw [revise, Call.added, contents]
    | error fault =>
        have refusal : (Database.writeBinaryFile tag directory path).run before =
            .error (.file fault) before := by
          simp only [Database.writeBinaryFile, Database.requireKind_of_eq fits, pure_bind, contents]
          rfl
        exact .refused (run_answering_error refusal none)
  · have refusal : (Database.writeBinaryFile tag directory path).run before =
        .error (.typeMismatch tag .binary) before := by
      rw [Database.writeBinaryFile, Database.requireKind_of_ne fits]
      rfl
    exact .refused (run_answering_error refusal none)

theorem Describes.react_writeInterned (describes : draft.Describes config before) (tag : Tag)
    (text : String) : Reaction config draft before (.writeInterned tag text) := by
  by_cases fits : tag.kind? = some .stringRef ∧ before.stringTable = none ∧ '\x00' ∉ text.toList
  · obtain ⟨kind, noTable, clean⟩ := fits
    by_cases room : before.pool.Accepts text ∧
      before.image.HasRoom (Database.reference tag before.pool.texts text).size
    · obtain ⟨image, ran, added⟩ := Database.writeInterned_run kind noTable clean room.1 room.2
      apply Reaction.done
      · exact ⟨kind, describes.table ▸ noTable, clean⟩
      · exact run_answering_ok ran none
      · have grown := describes.add ((Call.writeInterned tag text).added draft.texts)
          (added.trans (by simp [Call.added, describes.texts]))
        exact {
          bytes := grown.bytes
          header := grown.header
          texts := congrArg (addText · text) describes.texts
          table := grown.table
          openLists := grown.openLists }
    · obtain ⟨cause, after, ran, isNoRoom⟩ :=
        Database.writeInterned_noRoom kind noTable clean room
      exact .noRoom (run_answering_error ran none) isNoRoom
  · obtain ⟨cause, ran, -⟩ := Database.writeInterned_refused fits
    exact .refused (run_answering_error ran none)

theorem Describes.react_beginList (describes : draft.Describes config before) (tag : Tag) :
    Reaction config draft before (.beginList tag) := by
  by_cases fits : tag.kind? = some .list
  · by_cases room : before.image.HasRoom Image.listHeaderSize
    · obtain ⟨image, ran, added⟩ := Database.beginList_run fits room
      apply Reaction.done
      · exact fits
      · rw [Call.action, EStateM.run_bind, ran, answer, ← describes.size_eq]
        rfl
      · have grown := describes.add [.list tag 0] (added.trans (by simp))
        exact {
          bytes := grown.bytes
          header := grown.header
          texts := grown.texts
          table := grown.table
          openLists := by
            rw [describes.size_eq, describes.openLists]
            rfl }
    · obtain ⟨cause, after, ran, isNoRoom⟩ := Database.beginList_noRoom fits room
      have failed : (Call.beginList tag).action.run before = .error cause after := by
        rw [Call.action, EStateM.run_bind, ran]
      exact .noRoom failed isNoRoom
  · have refusal : (Call.beginList tag).action.run before =
        .error (.typeMismatch tag .list) before := by
      rw [Call.action, EStateM.run_bind, Database.beginList_of_ne fits]
    exact .refused refusal

theorem Describes.react_dropList (describes : draft.Describes config before) (id : Nat) :
    Reaction config draft before (.dropList id) :=
  .done trivial rfl {
    bytes := describes.bytes
    header := describes.header
    texts := describes.texts
    table := describes.table
    openLists := congrArg (List.erase · id) describes.openLists }

/-- Closing a list that stands somewhere succeeds. -/
theorem Describes.react_endList {id : Nat} (describes : draft.Describes config before)
    (proper : draft.Proper) (listAt : draft.ListAt id) :
    Reaction config draft before (.endList id) := by
  obtain ⟨tag, old, member⟩ := listAt
  obtain ⟨front, back, split, place⟩ := exists_split_of_mem_placed member
  have fits : tag.kind? = some .list := proper.sound _ (mem_of_mem_placed member)
  have bytes : before.image.toList =
      (config.header.encode ++ Layout.bytes front) ++ (Record.list tag old).encode ++
        Layout.bytes back := by
    rw [describes.bytes, split]
    simp
  have length : (config.header.encode ++ Layout.bytes front).length = id := by
    rw [List.length_append, Header.length_encode, length_bytes, place]
  have claimed : draft.size - id - Image.listHeaderSize = Layout.size back := by
    rw [size, split, size_append, size_cons, Record.size_list]
    omega
  obtain ⟨image, ran, patched⟩ := Database.endList_run before bytes length fits
  apply Reaction.done
  · exact ⟨tag, old, member⟩
  · exact run_answering_ok ran none
  · exact {
      bytes := by
        rw [revise, close, claimed, split, ← place, relength_split, patched, length_bytes]
        simp
      header := describes.header
      texts := describes.texts
      table := describes.table
      openLists := congrArg (List.erase · id) describes.openLists }

theorem Describes.react_commit (describes : draft.Describes config before)
    (proper : draft.Proper) : Reaction config draft before .commit := by
  by_cases noTexts : before.pool.texts = []
  · have pending : draft.texts = [] := describes.texts ▸ noTexts
    apply Reaction.done
    · exact .inl pending
    · rw [answer, if_pos pending]
      exact Database.commitStringTable_of_nil noTexts
    · rw [revise, if_pos pending]
      exact describes
  · cases openLists : before.openLists with
    | cons list others =>
        exact .refused (Database.commitStringTable_of_open noTexts openLists)
    | nil =>
        have clean := proper.clean
        rw [← describes.texts] at clean
        by_cases room : before.image.HasRoom
            (Layout.size (Database.tableRecords before.pool.texts))
        · obtain ⟨image, ran, added⟩ :=
            Database.commitStringTable_run noTexts openLists clean room
          rw [describes.texts] at noTexts
          apply Reaction.done
          · exact .inr (describes.openLists ▸ openLists)
          · rw [answer, if_neg noTexts, ← describes.size_eq]
            exact ran
          · have grown := describes.add (Call.commit.added draft.texts)
              (added.trans (by rw [Call.added, if_neg noTexts, describes.texts]))
            rw [revise, if_neg noTexts]
            exact {
              bytes := grown.bytes
              header := grown.header
              texts := rfl
              table := congrArg some describes.size_eq
              openLists := grown.openLists }
        · obtain ⟨cause, after, ran, isNoRoom⟩ :=
            Database.commitStringTable_noRoom noTexts openLists clean room
          exact .noRoom ran isNoRoom

/-- Every call does what the draft says of it, or is refused and changes nothing, or runs out of
room. -/
theorem Describes.react (describes : draft.Describes config before) (proper : draft.Proper)
    (known : ∀ id ∈ call.closed?, draft.ListAt id) :
    Reaction config draft before call := by
  cases call with
  | write tag content => exact describes.react_write tag content
  | writeFile tag directory path => exact describes.react_writeFile tag directory path
  | writeInterned tag text => exact describes.react_writeInterned tag text
  | beginList tag => exact describes.react_beginList tag
  | endList id => exact describes.react_endList proper (known id rfl)
  | dropList id => exact describes.react_dropList id
  | commit => exact describes.react_commit proper

end Draft

/-! ## All calls -/

/-- A run as its draft sees it: a call is refused, or it is allowed and does what the draft says. -/
inductive Traced (config : Config) : List Event → Database → Prop where
  | start : Traced config [] (.inMemory config)
  | refused {events : List Event} {database : Database} (traced : Traced config events database)
      (call : Call) (cause : Error) :
      Traced config (⟨call, database, .error cause, database⟩ :: events) database
  | done {events : List Event} {database after : Database} (traced : Traced config events database)
      (call : Call) (known : ∀ id ∈ call.closed?, id ∈ answers events)
      (allowed : (Draft.ofEvents events).Allows call)
      (describes : ((Draft.ofEvents events).revise call).Describes config after) :
      Traced config (⟨call, database, .ok ((Draft.ofEvents events).answer call), after⟩ :: events)
        after

namespace Traced

open Layout

variable {config : Config} {events : List Event} {database : Database} {event : Event} {id : Nat}
  {tag : Tag} {content : Leaf}

theorem describes (traced : Traced config events database) :
    (Draft.ofEvents events).Describes config database := by
  induction traced with
  | start => exact Draft.describes_inMemory config
  | refused _ _ _ ih => exact ih
  | done _ _ _ _ describes => exact describes

theorem proper (traced : Traced config events database) : (Draft.ofEvents events).Proper := by
  induction traced with
  | start => exact Draft.proper_empty
  | refused _ _ _ ih => exact ih
  | done _ _ _ allowed _ ih => exact ih.revise allowed

/-- Every answered list stands where it was said to stand. -/
theorem listAt (traced : Traced config events database) (answered : id ∈ answers events) :
    (Draft.ofEvents events).ListAt id := by
  induction traced with
  | start => cases answered
  | refused _ _ _ ih => exact ih answered
  | @done events _ _ _ call _ _ _ ih =>
      rw [answers, List.filterMap_cons, Event.answer?] at answered
      cases new : (Draft.ofEvents events).answer call with
      | none =>
          rw [new] at answered
          exact (ih answered).revise
      | some newId =>
          rw [new] at answered
          rcases List.mem_cons.mp answered with rfl | earlier
          · exact Draft.listAt_of_answer new
          · exact (ih earlier).revise

theorem written (traced : Traced config events database) :
    database.image.Written (Draft.ofEvents events).records where
  laidOut := traced.describes.laidOut
  sound := traced.proper.sound
  aligned := traced.proper.aligned

/-- The records stand at just the places at which calls added them. -/
theorem mem_starts (traced : Traced config events database) :
    id ∈ places Header.size (Draft.ofEvents events).records ↔ id ∈ starts events := by
  induction traced with
  | start => rfl
  | refused traced call cause ih =>
      rw [mem_starts_cons]
      exact ih.trans (or_iff_right List.not_mem_nil).symm
  | done traced call known allowed after ih =>
      rw [Draft.ofEvents_done, Draft.places_revise, List.mem_append, ih, mem_starts_cons, or_comm]
      simp only [Event.starts, Event.added, traced.describes.size_eq, traced.describes.texts]

/-- Every call was made at the end of an earlier run, and changed nothing or did what the draft of
that run says. -/
theorem exists_of_mem (traced : Traced config events database) (member : event ∈ events) :
    ∃ earlier, Traced config earlier event.before ∧
      ((∃ cause, event.outcome = .error cause ∧ event.after = event.before) ∨
        ((Draft.ofEvents earlier).Allows event.call ∧
          event.outcome = .ok ((Draft.ofEvents earlier).answer event.call) ∧
            ((Draft.ofEvents earlier).revise event.call).Describes config event.after)) := by
  induction traced with
  | start => cases member
  | @refused events database traced call cause ih =>
      rcases List.mem_cons.mp member with rfl | earlier
      · exact ⟨events, traced, .inl ⟨cause, rfl, rfl⟩⟩
      · exact ih earlier
  | @done events database after traced call known allowed describes ih =>
      rcases List.mem_cons.mp member with rfl | earlier
      · exact ⟨events, traced, .inr ⟨allowed, rfl, describes⟩⟩
      · exact ih earlier

/-- An image grows by just what a call adds. -/
theorem size_after (traced : Traced config events database) (member : event ∈ events) :
    event.after.image.size = event.before.image.size + Layout.size event.added := by
  obtain ⟨earlier, before, refused | done⟩ := traced.exists_of_mem member
  · obtain ⟨cause, failed, unchanged⟩ := refused
    simp only [Event.added, failed, unchanged, size_nil, Nat.add_zero]
  · obtain ⟨-, succeeded, describes⟩ := done
    simp only [Event.added, succeeded]
    rw [describes.size_eq, Draft.size_revise, before.describes.size_eq, before.describes.texts]

/-- Every list is answered as the place where the image ended before. -/
theorem eq_size_of_answer (traced : Traced config events database) (member : event ∈ events)
    (answered : event.answer? = some id) : id = event.before.image.size := by
  rw [Event.answer?] at answered
  obtain ⟨earlier, before, refused | done⟩ := traced.exists_of_mem member
  · obtain ⟨cause, failed, -⟩ := refused
    rw [failed] at answered
    cases answered
  · obtain ⟨-, succeeded, -⟩ := done
    rw [succeeded] at answered
    exact (Draft.eq_size_of_answer answered).trans before.describes.size_eq.symm

/-- A file could be read where a call wrote it. -/
theorem exists_contents (traced : Traced config events database) (member : event ∈ events)
    (succeeded : event.Succeeded) {directory : Directory} {path : Path}
    (isFile : event.call = .writeFile tag directory path) :
    ∃ bytes, directory.read path = .ok bytes := by
  obtain ⟨earlier, before, refused | done⟩ := traced.exists_of_mem member
  · obtain ⟨answer, isOk⟩ := succeeded
    obtain ⟨cause, failed, -⟩ := refused
    rw [isOk] at failed
    cases failed
  · obtain ⟨allowed, -⟩ := done
    rw [isFile] at allowed
    exact allowed.2

/-- A record without children that a call added stands where it was put ever after. -/
theorem mem_placed_of_added (traced : Traced config events database) (member : event ∈ events)
    (added : (id, .leaf tag content) ∈ Layout.placed event.before.image.size event.added) :
    (id, .leaf tag content) ∈ (Draft.ofEvents events).placed := by
  induction traced with
  | start => cases member
  | refused traced call cause ih =>
      rcases List.mem_cons.mp member with rfl | earlier
      · cases added
      · exact ih earlier
  | done traced call known allowed after ih =>
      rcases List.mem_cons.mp member with rfl | earlier
      · simp only [Event.added] at added
        rw [traced.describes.size_eq, traced.describes.texts] at added
        exact Draft.mem_placed_revise_added added
      · exact Draft.leaf_mem_placed_revise (ih earlier)

end Traced

/-- The draft follows every run. -/
theorem Run.traced {config : Config} {events : List Event} {database : Database}
    (run : Run config events database) : Traced config events database := by
  induction run with
  | start => exact .start
  | @step events database _ call known room ih =>
      have reaction := ih.describes.react ih.proper fun id closes => ih.listAt (known id closes)
      cases reaction with
      | @noRoom cause after ran isNoRoom =>
          obtain ⟨offset, length, size, rfl⟩ := isNoRoom
          have failed : call.event database =
              ⟨call, database, .error (.outOfRange offset length size), after⟩ := by
            rw [Call.event, ran]
          rw [failed] at room ⊢
          have unchanged : after = database := room rfl
          subst unchanged
          exact ih.refused call _
      | @refused cause ran =>
          have unchanged : call.event database = ⟨call, database, .error cause, database⟩ := by
            rw [Call.event, ran]
          rw [unchanged]
          exact ih.refused call cause
      | @done after allowed ran describes =>
          have revised : call.event database =
              ⟨call, database, .ok ((Draft.ofEvents events).answer call), after⟩ := by
            rw [Call.event, ran]
          rw [revised]
          exact ih.done call known allowed describes

end TagTree
