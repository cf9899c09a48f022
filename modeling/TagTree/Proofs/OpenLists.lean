import TagTree.Proofs.Table

/-!
# Open lists

At any point of a run the open lists are those that were begun and not closed since, the latest
first. Lists may be closed in any order and more than once, and a list that was ended or dropped is
never open again. As long as a list is open it claims nothing. Writing the string table is refused
just while a list is open, and as nothing comes of a refusal, a run is the same without it.
-/

namespace TagTree

open Layout

section Events

variable {events : List Event} {event : Event} {id : Nat}

theorem begun_of_none (begins : event.begun? = none) : begun (event :: events) = begun events :=
  List.filterMap_cons_none begins

theorem begun_of_some (begins : event.begun? = some id) :
    begun (event :: events) = id :: begun events :=
  List.filterMap_cons_some begins

theorem closed_of_none (closes : event.closed? = none) : closed (event :: events) = closed events :=
  List.filterMap_cons_none closes

theorem closed_of_some (closes : event.closed? = some id) :
    closed (event :: events) = id :: closed events :=
  List.filterMap_cons_some closes

end Events

/-! ## In a draft -/

/-- The open lists of a draft are those that some calls began and did not close, the latest first,
and they claim nothing. -/
structure Draft.Tracks (draft : Draft) (events : List Event) : Prop where
  openLists : draft.openLists = (begun events).filter (· ∉ closed events)
  descending : draft.openLists.Pairwise (· > ·)
  unfilled : ∀ id ∈ draft.openLists, ∃ tag, (id, .list tag 0) ∈ draft.placed

namespace Draft

variable {draft revised : Draft} {events : List Event} {event : Event} {id : Nat}
  {added : List Record}

theorem ListAt.lt_size (listAt : draft.ListAt id) : id < draft.size :=
  Nat.lt_of_lt_of_le (Nat.lt_add_of_pos_right (by decide)) listAt.end_le

theorem tracks_empty : empty.Tracks [] where
  openLists := rfl
  descending := .nil
  unfilled := by
    intro id isOpen
    cases isOpen

theorem Tracks.nodup (tracks : draft.Tracks events) : draft.openLists.Nodup :=
  tracks.descending.imp Nat.ne_of_gt

/-- An open list stays as it is when records are added. -/
theorem Tracks.unfilled_add (tracks : draft.Tracks events)
    (records : revised.records = draft.records ++ added) (isOpen : id ∈ draft.openLists) :
    ∃ tag, (id, .list tag 0) ∈ revised.placed := by
  obtain ⟨tag, member⟩ := tracks.unfilled id isOpen
  rw [placed, records]
  exact ⟨tag, mem_placed_append_left added member⟩

/-- What neither begins nor closes a list leaves the open ones as they are. -/
theorem Tracks.keep (tracks : draft.Tracks events)
    (records : revised.records = draft.records ++ added)
    (openLists : revised.openLists = draft.openLists) (begins : event.begun? = none)
    (closes : event.closed? = none) : revised.Tracks (event :: events) where
  openLists := by
    rw [openLists, begun_of_none begins, closed_of_none closes]
    exact tracks.openLists
  descending := by
    rw [openLists]
    exact tracks.descending
  unfilled id isOpen := by
    rw [openLists] at isOpen
    exact tracks.unfilled_add records isOpen

/-- A list that begins behind all others becomes the first of the open ones. -/
theorem Tracks.begin (tracks : draft.Tracks events) (tag : Tag)
    (before : ∀ id ∈ closed events, id < draft.size) (begins : event.begun? = some draft.size)
    (closes : event.closed? = none) :
    (draft.revise (.beginList tag)).Tracks (event :: events) where
  openLists := by
    have notClosed : draft.size ∉ closed events := fun isClosed =>
      Nat.lt_irrefl _ (before _ isClosed)
    rw [begun_of_some begins, closed_of_none closes, List.filter_cons,
      if_pos (decide_eq_true notClosed)]
    exact congrArg (draft.size :: ·) tracks.openLists
  descending := by
    refine List.pairwise_cons.mpr ⟨?_, tracks.descending⟩
    intro id isOpen
    obtain ⟨tag, member⟩ := tracks.unfilled id isOpen
    exact ListAt.lt_size ⟨tag, 0, member⟩
  unfilled id isOpen := by
    rcases List.mem_cons.mp isOpen with rfl | wasOpen
    · exact ⟨tag, mem_placed_revise_added (List.mem_singleton.mpr rfl)⟩
    · exact tracks.unfilled_add (by rfl) wasOpen

/-- A list that is closed is not open any more, whether it was or not. -/
theorem Tracks.erase (tracks : draft.Tracks events)
    (openLists : revised.openLists = draft.openLists.erase id)
    (others : ∀ other tag, other ≠ id → (other, .list tag 0) ∈ draft.placed →
      (other, .list tag 0) ∈ revised.placed)
    (begins : event.begun? = none) (closes : event.closed? = some id) :
    revised.Tracks (event :: events) where
  openLists := by
    rw [openLists, tracks.nodup.erase_eq_filter, tracks.openLists, List.filter_filter,
      begun_of_none begins, closed_of_some closes]
    apply List.filter_congr
    intro other _
    rw [Bool.eq_iff_iff]
    simp
  descending := by
    rw [openLists]
    exact tracks.descending.sublist List.erase_sublist
  unfilled other isOpen := by
    rw [openLists, tracks.nodup.mem_erase_iff] at isOpen
    obtain ⟨tag, member⟩ := tracks.unfilled other isOpen.2
    exact ⟨tag, others other tag isOpen.1 member⟩

/-- Closing a list leaves every other record as it is. -/
theorem mem_placed_close {other : Nat} {record : Record} (different : other ≠ id)
    (member : (other, record) ∈ draft.placed) : (other, record) ∈ (draft.close id).placed := by
  rw [placed, close, placed_relength]
  refine List.mem_map.mpr ⟨(other, record), member, ?_⟩
  simp only [different, if_false]

end Draft

/-! ## In a run -/

section Run

variable {config : Config} {events : List Event} {database : Database} {event : Event} {id : Nat}

/-- Only lists that were answered are closed. -/
theorem Traced.mem_answers_of_closed (traced : Traced config events database)
    (isClosed : id ∈ closed events) : id ∈ answers events := by
  induction traced with
  | start => cases isClosed
  | refused _ call cause ih => exact ih isClosed
  | @done events _ _ _ call known _ _ ih =>
      have earlier : id ∈ answers events := by
        rcases mem_closed_cons.mp isClosed with now | before
        · exact known id now
        · exact ih before
      rw [answers, List.filterMap_cons]
      split
      · exact earlier
      · exact List.mem_cons_of_mem _ earlier

theorem Traced.tracks (traced : Traced config events database) :
    (Draft.ofEvents events).Tracks events := by
  induction traced with
  | start => exact Draft.tracks_empty
  | refused _ call cause ih =>
      apply ih.keep (List.append_nil _).symm rfl _ rfl
      cases call
      all_goals rfl
  | @done events _ _ traced call _ _ _ ih =>
      rw [Draft.ofEvents_done]
      cases call with
      | beginList tag =>
          apply ih.begin tag _ rfl rfl
          intro id isClosed
          exact (traced.listAt (traced.mem_answers_of_closed isClosed)).lt_size
      | endList id =>
          exact ih.erase rfl (fun _ _ different => Draft.mem_placed_close different) rfl rfl
      | dropList id => exact ih.erase rfl (fun _ _ _ member => member) rfl rfl
      | commit =>
          rcases (Draft.ofEvents events).records_revise .commit with appended | ⟨_, isEnd, _⟩
          · exact ih.keep appended (Draft.openLists_revise_commit _) rfl rfl
          · cases isEnd
      | _ => exact ih.keep rfl rfl rfl rfl

end Run

/-! ## In a database -/

/-- The open lists of a database are those that some calls began and did not close, the latest
first. Each stands in the image with a length of zero, and the first of them is the reason why
pending texts cannot be written. -/
structure Database.TracksOpen (database : Database) (events : List Event) : Prop where
  openLists : database.openLists = (begun events).filter (· ∉ closed events)
  descending : database.openLists.Pairwise (· > ·)
  isList : ∀ id ∈ database.openLists, (database.image.tagAt id).kind? = some .list
  unfilled : ∀ id ∈ database.openLists, database.image.number (id + Image.tagSize) 4 = .ok 0
  refusal : database.pool.texts ≠ [] → ∀ list after,
    (Database.commitStringTable.run database = .error (.format (.listOpen list)) after ↔
      database.openLists.head? = some list ∧ after = database)

/-- The table was refused. -/
def Event.refusedTable (event : Event) : Bool :=
  match event.call, event.outcome with
  | .commit, .error _ => true
  | _, _ => false

section Run

variable {config : Config} {events : List Event} {database : Database} {event : Event} {id : Nat}

/-- Only an open list is a reason to refuse the table for its form. -/
theorem Database.commit_listOpen_iff (someTexts : database.pool.texts ≠ [])
    (clean : ∀ text ∈ database.pool.texts, '\x00' ∉ text.toList) (list : Nat) (after : Database) :
    commitStringTable.run database = .error (.format (.listOpen list)) after ↔
      database.openLists.head? = some list ∧ after = database := by
  cases isOpen : database.openLists with
  | cons first others =>
      rw [commitStringTable_of_open someTexts isOpen]
      constructor
      · intro refused
        cases refused
        exact ⟨rfl, rfl⟩
      · rintro ⟨isFirst, rfl⟩
        cases isFirst
        rfl
  | nil =>
      constructor
      · intro refused
        by_cases room : database.image.HasRoom (Layout.size (tableRecords database.pool.texts))
        · obtain ⟨image, ran, -⟩ := commitStringTable_run someTexts isOpen clean room
          rw [ran] at refused
          cases refused
        · obtain ⟨cause, left, ran, _, _, _, rfl⟩ :=
            commitStringTable_noRoom someTexts isOpen clean room
          rw [ran] at refused
          cases refused
      · rintro ⟨isFirst, -⟩
        cases isFirst

theorem Traced.tracksOpen (traced : Traced config events database) :
    database.TracksOpen events := by
  have tracks := traced.tracks
  have openLists := traced.describes.openLists
  constructor
  · rw [openLists]
    exact tracks.openLists
  · rw [openLists]
    exact tracks.descending
  · intro id isOpen
    rw [openLists] at isOpen
    obtain ⟨tag, member⟩ := tracks.unfilled id isOpen
    rw [traced.written.tagAt member]
    exact traced.written.sound_of_placed member
  · intro id isOpen
    rw [openLists] at isOpen
    obtain ⟨tag, member⟩ := tracks.unfilled id isOpen
    have length := (traced.written.laidOut.holds member).right
    rw [LittleEndian.length_encode] at length
    exact length.number (by decide)
  · intro someTexts
    apply Database.commit_listOpen_iff someTexts
    rw [traced.describes.texts]
    exact traced.proper.clean

theorem Event.answer?_of_refusedTable (refused : event.refusedTable = true) :
    event.answer? = none := by
  rw [Event.refusedTable] at refused
  split at refused
  · next failed => rw [Event.answer?, failed]
  · cases refused

theorem answers_filter_refusedTable (events : List Event) :
    answers (events.filter (!·.refusedTable)) = answers events := by
  rw [answers, answers, List.filterMap_filter]
  congr 1
  funext event
  cases refused : event.refusedTable with
  | false => rfl
  | true => exact (Event.answer?_of_refusedTable refused).symm

/-- Nothing comes of a refusal of the table. -/
theorem Traced.after_of_refusedTable (traced : Traced config events database)
    (member : event ∈ events) (refused : event.refusedTable = true) :
    event.after = event.before := by
  rw [Event.refusedTable] at refused
  split at refused
  · next failed =>
      obtain ⟨_, _, ⟨_, _, unchanged⟩ | ⟨_, succeeded, _⟩⟩ := traced.exists_of_mem member
      · exact unchanged
      · rw [failed] at succeeded
        cases succeeded
  · cases refused

theorem Call.event_before (call : Call) (before : Database) :
    (call.event before).before = before := by
  rw [Call.event]
  split <;> rfl

/-- Refusals of the table can be left out of a run. -/
theorem Run.filter_refusedTable (run : Run config events database) :
    Run config (events.filter (!·.refusedTable)) database := by
  induction run with
  | start => exact .start
  | @step events database run call known room ih =>
      rw [List.filter_cons]
      cases refused : (call.event database).refusedTable with
      | false =>
          rw [← answers_filter_refusedTable] at known
          exact ih.step call known room
      | true =>
          have unchanged := (run.step call known room).traced.after_of_refusedTable
            (List.mem_cons_self ..) refused
          rw [Call.event_before] at unchanged
          rw [unchanged]
          exact ih

/-- At the end of every run, and so at any point of it, the open lists are tracked exactly. No
refusal of the table changes anything, and the run without these comes to the same database. -/
theorem Run.tracks_open (run : Run config events database) :
    database.TracksOpen events ∧
      (∀ event ∈ events, event.refusedTable = true → event.after = event.before) ∧
        Run config (events.filter (!·.refusedTable)) database :=
  ⟨run.traced.tracksOpen, fun _ member refused => run.traced.after_of_refusedTable member refused,
    run.filter_refusedTable⟩

/-- Three lists are begun. The outer one is ended before the ones in it, of which one is dropped, and
these two are ended again. The table is refused while the third is open. -/
def unwoundCalls : List Call := [
  .commit, .endList 24, .commit, .endList 12, .endList 18, .dropList 18, .writeInterned .name "ab",
  .commit, .endList 12, .beginList .exe, .beginList .exe, .beginList .database]

theorem tracks_open_unwoundCalls :
    Playable {} unwoundCalls ∧ (play {} unwoundCalls).2.TracksOpen (play {} unwoundCalls).1 ∧
      ((play {} unwoundCalls).1.filter (!·.refusedTable)).length = 11 ∧
        Run {} ((play {} unwoundCalls).1.filter (!·.refusedTable)) (play {} unwoundCalls).2 := by
  have playable : Playable {} unwoundCalls := by decide +kernel
  have tracks := Run.tracks_open (run_play playable)
  exact ⟨playable, tracks.1, by decide +kernel, tracks.2.2⟩

end Run

end TagTree
