import TagTree.Proofs.Pool

/-!
# Drafts

A draft says of a database what is written and what is pending: the records in order, the texts that
wait for a string table, the table once there is one, and the open lists. Every call that writes is
described by when a draft allows it, what it answers and how it revises the draft. Revising only
adds records at the end and changes lengths of lists, so no record ever moves, and all stay aligned.
-/

namespace TagTree

/-- The calls by which a database is written. A list builder is a `beginList` and, when it is
finished or dropped, an `endList` or a `dropList` of that list. -/
inductive Call where
  | write (tag : Tag) (content : Leaf)
  | writeFile (tag : Tag) (directory : Directory) (path : Path)
  | writeInterned (tag : Tag) (text : String)
  | beginList (tag : Tag)
  | endList (id : Nat)
  | dropList (id : Nat)
  | commit

namespace Call

/-- What the call does to a database. Only beginning a list and writing the table answer a place. -/
def action : Call → Action (Option Nat)
  | write tag content => content.write tag >>= fun _ => pure none
  | writeFile tag directory path =>
      Database.writeBinaryFile tag directory path >>= fun _ => pure none
  | writeInterned tag text => Database.writeInterned tag text >>= fun _ => pure none
  | beginList tag => Database.beginList tag >>= fun id => pure (some id)
  | endList id => Database.endList id >>= fun _ => pure none
  | dropList id => Database.dropList id >>= fun _ => pure none
  | commit => Database.commitStringTable

/-- The list that the call takes off the open ones. -/
def closed? : Call → Option Nat
  | endList id | dropList id => some id
  | _ => none

/-- The records that the call adds where certain texts wait for a table. -/
def added (texts : List String) : Call → List Record
  | write tag content => [.leaf tag content]
  | writeFile tag directory path =>
      match directory.read path with
      | .ok bytes => [.leaf tag (.binary bytes)]
      | .error _ => []
  | writeInterned tag text => [Database.reference tag texts text]
  | beginList tag => [.list tag 0]
  | commit => if texts = [] then [] else Database.tableRecords texts
  | endList _ | dropList _ => []

end Call

/-- The records of a database and what is kept beside them. -/
structure Draft where
  records : List Record
  texts : List String
  table : Option Nat
  openLists : List Nat

namespace Draft

open Layout

/-- Nothing is written yet. -/
def empty : Draft := ⟨[], [], none, []⟩

/-- The number of bytes of the image. -/
def size (draft : Draft) : Nat :=
  Header.size + Layout.size draft.records

/-- The records with their places in the image. -/
def placed (draft : Draft) : List (Nat × Record) :=
  Layout.placed Header.size draft.records

/-- Records are added at the end. -/
def add (draft : Draft) (records : List Record) : Draft :=
  { draft with records := draft.records ++ records }

/-- A list gets the length of everything behind its own bytes and is no longer open. -/
def close (draft : Draft) (id : Nat) : Draft :=
  { draft with
    records := relength id (draft.size - id - Image.listHeaderSize) Header.size draft.records
    openLists := draft.openLists.erase id }

/-- What a call makes of the draft when it succeeds. -/
def revise (draft : Draft) (call : Call) : Draft :=
  match call with
  | .write .. | .writeFile .. => draft.add (call.added draft.texts)
  | .writeInterned _ text =>
      { draft.add (call.added draft.texts) with texts := addText draft.texts text }
  | .beginList _ =>
      { draft.add (call.added draft.texts) with openLists := draft.size :: draft.openLists }
  | .endList id => draft.close id
  | .dropList id => { draft with openLists := draft.openLists.erase id }
  | .commit =>
      if draft.texts = [] then draft
      else { draft.add (call.added draft.texts) with texts := [], table := some draft.size }

/-- What a call answers when it succeeds. -/
def answer (draft : Draft) : Call → Option Nat
  | .beginList _ => some draft.size
  | .commit => if draft.texts = [] then none else some draft.size
  | _ => none

/-- A list stands at a place. -/
def ListAt (draft : Draft) (id : Nat) : Prop :=
  ∃ tag length, (id, .list tag length) ∈ draft.placed

/-- When a call succeeds, if there is room. -/
def Allows (draft : Draft) : Call → Prop
  | .write tag content => (Record.leaf tag content).Sound
  | .writeFile tag directory path =>
      tag.kind? = some .binary ∧ ∃ bytes, directory.read path = .ok bytes
  | .writeInterned tag text =>
      tag.kind? = some .stringRef ∧ draft.table = none ∧ '\x00' ∉ text.toList
  | .beginList tag => tag.kind? = some .list
  | .endList id => draft.ListAt id
  | .dropList _ => True
  | .commit => draft.texts = [] ∨ draft.openLists = []

/-- Every record is sound and ends where another begins or at the end, and no pending text is cut
short by a zero. -/
structure Proper (draft : Draft) : Prop where
  sound : ∀ record ∈ draft.records, record.Sound
  aligned : Aligned Header.size draft.records
  clean : ∀ text ∈ draft.texts, '\x00' ∉ text.toList

variable {draft : Draft} {call : Call} {id : Nat} {tag : Tag} {content : Leaf}

theorem revise_commit_of_nil (noTexts : draft.texts = []) : draft.revise .commit = draft :=
  if_pos noTexts

theorem revise_commit (someTexts : draft.texts ≠ []) :
    draft.revise .commit =
      { draft.add (Database.tableRecords draft.texts) with
        texts := [], table := some draft.size } := by
  rw [revise, if_neg someTexts, Call.added, if_neg someTexts]

theorem openLists_revise_commit (draft : Draft) :
    (draft.revise .commit).openLists = draft.openLists := by
  rw [revise]
  split <;> rfl

theorem proper_empty : empty.Proper where
  sound := by intro record member; cases member
  aligned := aligned_nil _
  clean := by intro text member; cases member

/-! ## What is added -/

/-- What a call adds is sound where the call is allowed. -/
theorem Proper.sound_added (proper : draft.Proper) (allowed : draft.Allows call) :
    ∀ record ∈ call.added draft.texts, record.Sound := by
  intro record member
  cases call with
  | write tag content =>
      cases List.mem_singleton.mp member
      exact allowed
  | writeFile tag directory path =>
      obtain ⟨fits, bytes, contents⟩ := allowed
      rw [Call.added, contents] at member
      cases List.mem_singleton.mp member
      exact ⟨fits, trivial⟩
  | writeInterned tag text =>
      cases List.mem_singleton.mp member
      exact ⟨allowed.1, trivial⟩
  | beginList tag =>
      cases List.mem_singleton.mp member
      exact allowed
  | endList id => cases member
  | dropList id => cases member
  | commit =>
      rw [Call.added] at member
      split at member
      · cases member
      · rcases List.mem_cons.mp member with rfl | isItem
        · exact Database.kind?_stringTable
        · obtain ⟨text, waiting, rfl⟩ := List.mem_map.mp isItem
          exact Database.sound_tableItem (proper.clean text waiting)

/-- What a call adds is aligned by itself, wherever it is put. -/
theorem aligned_added (start : Nat) (texts : List String) (call : Call) :
    Aligned start (call.added texts) := by
  cases call with
  | commit =>
      rw [Call.added]
      split
      · exact aligned_nil start
      · rw [tableRecords_eq]
        apply Aligned.list
        apply aligned_of_bare
        intro record isItem
        obtain ⟨text, -, rfl⟩ := List.mem_map.mp isItem
        rfl
  | writeFile tag directory path =>
      rw [Call.added]
      split
      · exact aligned_singleton start rfl
      · exact aligned_nil start
  | write tag content => exact aligned_singleton start rfl
  | writeInterned tag text => exact aligned_singleton start rfl
  | beginList tag => exact aligned_singleton start (by simp [Record.extent])
  | endList id => exact aligned_nil start
  | dropList id => exact aligned_nil start

/-! ## What a revision keeps -/

/-- Records are added at the end, or a list is closed. -/
theorem records_revise (draft : Draft) (call : Call) :
    (draft.revise call).records = draft.records ++ call.added draft.texts ∨
      ∃ id, call = .endList id ∧ (draft.revise call).records = (draft.close id).records := by
  cases call with
  | endList id => exact .inr ⟨id, rfl, rfl⟩
  | dropList id => exact .inl (List.append_nil _).symm
  | commit =>
      left
      rw [revise, Call.added]
      split
      · exact (List.append_nil _).symm
      · rfl
  | _ => exact .inl rfl

/-- The places of records stay, and further ones come behind them. -/
theorem places_revise (draft : Draft) (call : Call) :
    places Header.size (draft.revise call).records =
      places Header.size draft.records ++ places draft.size (call.added draft.texts) := by
  rcases draft.records_revise call with appended | ⟨id, rfl, closed⟩
  · rw [appended, places, placed_append, List.map_append]
    rfl
  · rw [closed, close, places_relength, Call.added]
    exact (List.append_nil _).symm

theorem size_revise (draft : Draft) (call : Call) :
    (draft.revise call).size = draft.size + Layout.size (call.added draft.texts) := by
  rw [size, size]
  rcases draft.records_revise call with appended | ⟨id, rfl, closed⟩
  · rw [appended, size_append, Nat.add_assoc]
  · rw [closed, close, size_relength, Call.added, size_nil, Nat.add_zero]

/-- A record without children stays as it is. -/
theorem leaf_mem_placed_revise (member : (id, .leaf tag content) ∈ draft.placed) :
    (id, .leaf tag content) ∈ (draft.revise call).placed := by
  rw [placed]
  rcases draft.records_revise call with appended | ⟨closedId, rfl, closed⟩
  · rw [appended]
    exact mem_placed_append_left _ member
  · rw [closed]
    exact mem_placed_relength_leaf member

/-- A list stays a list. -/
theorem ListAt.revise (listAt : draft.ListAt id) : (draft.revise call).ListAt id := by
  obtain ⟨tag, length, member⟩ := listAt
  rw [ListAt, placed]
  rcases draft.records_revise call with appended | ⟨closedId, rfl, closed⟩
  · rw [appended]
    exact ⟨tag, length, mem_placed_append_left _ member⟩
  · rw [closed]
    exact ⟨tag, mem_placed_relength_list member⟩

/-- What a call adds stands where the draft ended before. -/
theorem mem_placed_revise_added {record : Record}
    (member : (id, record) ∈ Layout.placed draft.size (call.added draft.texts)) :
    (id, record) ∈ (draft.revise call).placed := by
  rw [placed]
  rcases draft.records_revise call with appended | ⟨closedId, rfl, closed⟩
  · rw [appended, placed_append]
    exact List.mem_append_right _ member
  · cases member

theorem ListAt.end_le (listAt : draft.ListAt id) : id + Image.listHeaderSize ≤ draft.size := by
  obtain ⟨tag, length, member⟩ := listAt
  have inside := end_le_of_mem_placed member
  rwa [Record.size_list] at inside

/-- What is answered is the place where the image ended before. -/
theorem eq_size_of_answer (answered : draft.answer call = some id) : id = draft.size := by
  cases call with
  | beginList tag => exact (Option.some.inj answered).symm
  | commit =>
      rw [answer, Option.ite_none_left_eq_some] at answered
      exact (Option.some.inj answered.2).symm
  | write => cases answered
  | writeFile => cases answered
  | writeInterned => cases answered
  | endList => cases answered
  | dropList => cases answered

/-- A list that is answered stands where it is said to stand. -/
theorem listAt_of_answer (answered : draft.answer call = some id) :
    (draft.revise call).ListAt id := by
  cases call with
  | beginList tag =>
      cases answered
      exact ⟨tag, 0, mem_placed_revise_added (List.mem_singleton.mpr rfl)⟩
  | commit =>
      rw [answer] at answered
      split at answered
      · cases answered
      · next someTexts =>
          cases answered
          refine ⟨.stringTable, Layout.size (draft.texts.map tableItem),
            mem_placed_revise_added ?_⟩
          rw [Call.added, if_neg someTexts, tableRecords_eq]
          exact List.mem_cons_self ..
  | write => cases answered
  | writeFile => cases answered
  | writeInterned => cases answered
  | endList => cases answered
  | dropList => cases answered

theorem clean_revise (clean : ∀ text ∈ draft.texts, '\x00' ∉ text.toList)
    (allowed : draft.Allows call) :
    ∀ text ∈ (draft.revise call).texts, '\x00' ∉ text.toList := by
  intro text member
  cases call with
  | writeInterned tag added =>
      rcases mem_addText.mp member with waiting | rfl
      · exact clean text waiting
      · exact allowed.2.2
  | commit =>
      rw [revise] at member
      split at member
      · exact clean text member
      · cases member
  | _ => exact clean text member

/-- Every allowed call keeps a draft proper. -/
theorem Proper.revise (proper : draft.Proper) (allowed : draft.Allows call) :
    (draft.revise call).Proper where
  clean := clean_revise proper.clean allowed
  sound := by
    rcases draft.records_revise call with appended | ⟨id, rfl, closed⟩
    · rw [appended]
      intro record member
      rcases List.mem_append.mp member with stood | isAdded
      · exact proper.sound record stood
      · exact proper.sound_added allowed record isAdded
    · rw [closed]
      exact sound_relength proper.sound
  aligned := by
    rcases draft.records_revise call with appended | ⟨id, rfl, closed⟩
    · rw [appended]
      exact proper.aligned.append (aligned_added _ _ call)
    · rw [closed]
      exact proper.aligned.relength (ListAt.end_le allowed)

end Draft

end TagTree
