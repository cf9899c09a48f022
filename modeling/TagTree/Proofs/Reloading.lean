import TagTree.Proofs.Observation
import TagTree.Proofs.Sections
import TagTree.Proofs.Table

/-!
# What a reader finds after reopening

While a database is written, its string table is the one that was written for it. When its bytes are
loaded, the string table is the first list at the top that has the tag of one. In a run that closes
each list before the one around it, the records at the top are known from the calls alone; so it is
known as well when the two are the same.
-/

namespace TagTree

open Layout

/-! ## Nested runs -/

/-- The tag of the list that the call began. -/
def Event.begunTag? (event : Event) : Option Tag :=
  match event.outcome with
  | .ok _ => event.call.listTag?
  | .error _ => none

/-- The lists that were begun and are not closed, the innermost first. -/
def unclosed : List Event → List Nat
  | [] => []
  | event :: earlier =>
      match event.begun?, event.closed? with
      | some id, _ => id :: unclosed earlier
      | none, some id => (unclosed earlier).erase id
      | none, none => unclosed earlier

/-- Where certain lists are not closed, the call writes a record, begins a list, or ends the
innermost of these. -/
def Call.Nests (unclosed : List Nat) : Call → Prop
  | .endList id => unclosed.head? = some id
  | .dropList _ | .commit => False
  | _ => True

instance (unclosed : List Nat) : (call : Call) → Decidable (call.Nests unclosed)
  | .endList _ => inferInstanceAs (Decidable (_ = _))
  | .dropList _ | .commit => inferInstanceAs (Decidable False)
  | .write .. | .writeFile .. | .writeInterned .. | .beginList _ => inferInstanceAs (Decidable True)

/-- Records are written and lists are begun and ended, each after those that were begun in it. -/
def Nested : List Event → Prop
  | [] => True
  | event :: earlier => Nested earlier ∧ event.call.Nests (unclosed earlier)

/-- No list is begun at the top with the tag of a string table. -/
def NoTableAtTop : List Event → Prop
  | [] => True
  | event :: earlier =>
      NoTableAtTop earlier ∧ (unclosed earlier = [] → event.begunTag? ≠ some .stringTable)

instance decidableNested : (events : List Event) → Decidable (Nested events)
  | [] => inferInstanceAs (Decidable True)
  | _ :: earlier =>
      have := decidableNested earlier
      inferInstanceAs (Decidable (_ ∧ _))

instance decidableNoTableAtTop : (events : List Event) → Decidable (NoTableAtTop events)
  | [] => inferInstanceAs (Decidable True)
  | _ :: earlier =>
      have := decidableNoTableAtTop earlier
      inferInstanceAs (Decidable (_ ∧ (_ → _)))

/-! ## The top of a draft -/

namespace Draft

/-- The records at the top of a draft, with their places and tags: all records fall into sections
that begin with them, or those before the outermost open list do, and everything behind it is
inside. -/
inductive Tops (draft : Draft) : List (Nat × Tag) → Prop where
  | closed {tops : List (Nat × Tag)} (noneOpen : draft.openLists = [])
      (sections : Sections Header.size draft.records tops) : draft.Tops tops
  | opened {tops : List (Nat × Tag)} {front : List Record} {tag : Tag} (inner : List Record)
      (inners : List Nat) (split : draft.records = front ++ .list tag 0 :: inner)
      (sections : Sections Header.size front tops)
      (isOpen : draft.openLists = inners ++ [Header.size + Layout.size front])
      (behind : ∀ id ∈ inners, Header.size + Layout.size (front ++ [.list tag 0]) ≤ id) :
      draft.Tops (tops ++ [(Header.size + Layout.size front, tag)])

/-- What a call adds at the top, where no list is open. -/
def addedAtTop (draft : Draft) (call : Call) : List (Nat × Tag) :=
  if draft.openLists = [] then
    (Layout.placed draft.size (call.added draft.texts)).map fun entry => (entry.1, entry.2.tag)
  else []

variable {draft : Draft} {tops : List (Nat × Tag)} {call : Call}

/-- What a nested call adds claims nothing but itself. -/
theorem bare_added_of_nests (texts : List String) {unclosed : List Nat}
    (nests : call.Nests unclosed) :
    ∀ record ∈ call.added texts, record.extent = record.size := by
  intro record member
  cases call with
  | write tag content =>
      cases List.mem_singleton.mp member
      rfl
  | writeFile tag directory path =>
      rw [Call.added] at member
      split at member
      · cases List.mem_singleton.mp member
        rfl
      · cases member
  | writeInterned tag text =>
      cases List.mem_singleton.mp member
      rfl
  | beginList tag =>
      cases List.mem_singleton.mp member
      rw [Record.extent, Record.size_list, Nat.zero_add]
  | endList id => cases member
  | dropList id => exact nests.elim
  | commit => exact nests.elim

/-- A call that adds records and keeps the open lists only adds to what is at the top. -/
theorem Tops.add (stands : draft.Tops tops) {revised : Draft}
    (records : revised.records = draft.records ++ call.added draft.texts)
    (openLists : revised.openLists = draft.openLists) (nests : call.Nests draft.openLists) :
    revised.Tops (tops ++ draft.addedAtTop call) := by
  have bare := bare_added_of_nests draft.texts nests
  cases stands with
  | closed noneOpen sections =>
      rw [addedAtTop, if_pos noneOpen]
      apply Tops.closed (openLists.trans noneOpen)
      rw [records]
      exact sections.append (.of_bare _ bare)
  | @opened tops front tag inner inners split sections isOpen behind =>
      have someOpen : draft.openLists ≠ [] := by simp [isOpen]
      rw [addedAtTop, if_neg someOpen, List.append_nil]
      apply Tops.opened (inner ++ call.added draft.texts) inners _ sections
        (openLists.trans isOpen) behind
      rw [records, split, List.append_assoc, List.cons_append]

theorem Tops.begin (stands : draft.Tops tops) (tag : Tag) :
    (draft.revise (.beginList tag)).Tops (tops ++ draft.addedAtTop (.beginList tag)) := by
  cases stands with
  | closed noneOpen sections =>
      rw [addedAtTop, if_pos noneOpen]
      apply Tops.opened [] [] _ sections
      · simp [revise, noneOpen, size]
      · intro id inside
        cases inside
      · rfl
  | @opened tops front outerTag inner inners split sections isOpen behind =>
      have someOpen : draft.openLists ≠ [] := by simp [isOpen]
      rw [addedAtTop, if_neg someOpen, List.append_nil]
      apply Tops.opened (inner ++ [.list tag 0]) (draft.size :: inners) _ sections
      · simp [revise, isOpen]
      · rw [List.forall_mem_cons]
        refine ⟨?_, behind⟩
        rw [size, split]
        simp
      · simp [revise, Draft.add, split, Call.added]

/-- Ending the innermost open list keeps what is at the top. -/
theorem Tops.close {id : Nat} (stands : draft.Tops tops)
    (innermost : draft.openLists.head? = some id) : (draft.close id).Tops tops := by
  cases stands with
  | closed noneOpen =>
      rw [noneOpen] at innermost
      cases innermost
  | @opened tops front tag inner inners split sections isOpen behind =>
      -- The outermost list becomes a section when it ends; any other only changes inside it.
      cases inners with
      | nil =>
          rw [isOpen] at innermost
          cases innermost
          have claimed : draft.size - (Header.size + Layout.size front) - Image.listHeaderSize =
              Layout.size inner := by
            rw [size, split, size_append, size_cons, Record.size_list]
            omega
          apply Tops.closed
          · simp [Draft.close, isOpen]
          · rw [Draft.close, claimed, split, relength_split]
            exact sections.append (.list _ tag inner)
      | cons first others =>
          rw [isOpen] at innermost
          cases innermost
          obtain ⟨firstBehind, othersBehind⟩ := List.forall_mem_cons.mp behind
          apply Tops.opened (relength id (draft.size - id - Image.listHeaderSize)
            (Header.size + Layout.size (front ++ [.list tag 0])) inner) others _ sections
          · simp [Draft.close, isOpen]
          · exact othersBehind
          · have regrouped : front ++ Record.list tag 0 :: inner =
                (front ++ [.list tag 0]) ++ inner := by simp
            rw [Draft.close, split, regrouped, relength_append firstBehind, List.append_assoc]
            rfl

/-- A nested call only adds to what is at the top. -/
theorem Tops.revise (stands : draft.Tops tops) (nests : call.Nests draft.openLists) :
    (draft.revise call).Tops (tops ++ draft.addedAtTop call) := by
  cases call with
  | write tag content => exact stands.add rfl rfl nests
  | writeFile tag directory path => exact stands.add rfl rfl nests
  | writeInterned tag text => exact stands.add rfl rfl nests
  | beginList tag => exact stands.begin tag
  | endList id =>
      have nothing : draft.addedAtTop (.endList id) = [] := by
        rw [addedAtTop]
        split <;> rfl
      rw [nothing, List.append_nil]
      exact stands.close nests
  | dropList id => exact nests.elim
  | commit => exact nests.elim

theorem table_revise_of_nests {unclosed : List Nat} (nests : call.Nests unclosed) :
    (draft.revise call).table = draft.table := by
  cases call with
  | commit => exact nests.elim
  | _ => rfl

/-- A nested call only adds a record with the tag of a string table if it begins one. -/
theorem Proper.addedAtTop_tag_ne_iff (proper : draft.Proper) (allowed : draft.Allows call)
    (nests : call.Nests draft.openLists) (noTable : draft.table = none) :
    (∀ top ∈ draft.addedAtTop call, top.2 ≠ .stringTable) ↔
      (draft.openLists = [] → call.listTag? ≠ some .stringTable) := by
  by_cases noneOpen : draft.openLists = []
  · rw [addedAtTop, if_pos noneOpen, List.forall_mem_map, imp_iff_right noneOpen]
    constructor
    · intro noneAdded begins
      cases call with
      | beginList tag =>
          cases begins
          exact noneAdded _ (List.mem_singleton.mpr rfl) rfl
      | _ => cases begins
    · intro noList entry member
      exact proper.added_tag_ne allowed ((table_revise_of_nests nests).trans noTable) noList _
        (mem_of_mem_placed member)
  · rw [addedAtTop, if_neg noneOpen]
    constructor
    · intro _ allClosed
      exact absurd allClosed noneOpen
    · intro _ top isAdded
      cases isAdded

/-- Where the table is written behind everything else, a search for a table comes to it just if none
stands before. -/
theorem findFirst_commit_iff {image : Image} (sections : Sections Header.size draft.records tops)
    (noTable : draft.table = none) (written : image.Written (draft.revise .commit).records) :
    image.findFirst Image.root .stringTable = (draft.revise .commit).table ↔
      ∀ top ∈ tops, top.2 ≠ .stringTable := by
  have noneFound : tops.find? (fun top => top.2 = .stringTable) = none ↔
      ∀ top ∈ tops, top.2 ≠ .stringTable := by
    simp only [List.find?_eq_none, decide_eq_true_iff, ne_eq]
  by_cases noTexts : draft.texts = []
  · rw [revise_commit_of_nil noTexts] at written ⊢
    rw [sections.findFirst_eq written, noTable, Option.map_eq_none_iff, noneFound]
  · rw [revise_commit noTexts] at written ⊢
    rw [add, tableRecords_eq] at written
    rw [(sections.append (.list _ _ _)).findFirst_eq written, List.find?_append, ← noneFound]
    constructor
    · intro isTable
      cases found : tops.find? (fun top => top.2 = .stringTable) with
      | none => rfl
      | some top =>
          -- What was found stands before the table, so it cannot be the table.
          obtain ⟨record, stands, -⟩ :=
            sections.exists_placed top (List.mem_of_find?_eq_some found)
          have before := end_le_of_mem_placed stands
          have positive := record.size_pos
          rw [found, Option.some_or, Option.map_some, Option.some.injEq, size] at isTable
          omega
    · intro none
      rw [none]
      rfl

end Draft

/-! ## The top of a run -/

section Run

variable {config : Config} {events : List Event} {database : Database} {event : Event}

namespace Traced

/-- The draft keeps the lists that were begun and are not closed. -/
theorem openLists_eq (traced : Traced config events database) :
    (Draft.ofEvents events).openLists = unclosed events := by
  induction traced with
  | start => rfl
  | refused _ call cause ih =>
      cases call
      all_goals exact ih
  | @done events _ _ _ call _ _ _ ih =>
      rw [Draft.ofEvents_done, unclosed]
      cases call with
      | beginList tag => exact congrArg (_ :: ·) ih
      | endList id => exact congrArg (List.erase · id) ih
      | dropList id => exact congrArg (List.erase · id) ih
      | commit =>
          rw [Draft.openLists_revise_commit]
          exact ih
      | _ => exact ih

theorem table_of_nested (traced : Traced config events database) (nested : Nested events) :
    (Draft.ofEvents events).table = none := by
  induction traced with
  | start => rfl
  | refused _ call cause ih => exact ih nested.1
  | done _ call _ _ _ ih => exact (Draft.table_revise_of_nests nested.2).trans (ih nested.1)

/-- What is at the top of a nested run has no tag of a string table if no call began one there. -/
theorem exists_tops (traced : Traced config events database) (nested : Nested events) :
    ∃ tops, (Draft.ofEvents events).Tops tops ∧
      ((∀ top ∈ tops, top.2 ≠ .stringTable) ↔ NoTableAtTop events) := by
  induction traced with
  | start =>
      refine ⟨[], .closed rfl (.nil _), ?_⟩
      constructor
      · intro _
        trivial
      · intro _ top isTop
        cases isTop
  | refused _ call cause ih =>
      obtain ⟨tops, stands, noTable⟩ := ih nested.1
      refine ⟨tops, stands, noTable.trans ?_⟩
      rw [NoTableAtTop, and_iff_left]
      intro _ begins
      cases begins
  | @done events _ _ traced call _ allowed _ ih =>
      obtain ⟨tops, stands, noTable⟩ := ih nested.1
      have nests := nested.2
      rw [← traced.openLists_eq] at nests
      refine ⟨_, stands.revise nests, ?_⟩
      rw [List.forall_mem_append, noTable, NoTableAtTop, ← traced.openLists_eq,
        traced.proper.addedAtTop_tag_ne_iff allowed nests (traced.table_of_nested nested.1)]
      rfl

end Traced

/-- When a nested run has closed all its lists and has written the string table, the bytes are
loaded as a database that agrees with the one at hand just if no list was begun at the top with the
tag of a string table. -/
theorem Run.reload_agrees_iff (run : Run config (event :: events) database)
    (nested : Nested events) (allClosed : unclosed events = [])
    (supported : config.header.major = Header.supportedMajor) (isCommit : event.call = .commit)
    (succeeded : event.Succeeded) :
    ∃ loaded, Database.ofBytes database.image.toList = .ok loaded ∧
      loaded.image.toList = database.image.toList ∧
        (loaded.Agrees database ↔ NoTableAtTop events) := by
  have after := run.traced
  obtain ⟨loaded, isLoaded, same, -, -, search⟩ :=
    Database.ofBytes_toList after.describes.bytes supported
  have written := after.written.of_toList_eq same
  refine ⟨loaded, isLoaded, same, ?_⟩
  rw [Database.agrees_iff same, search, after.describes.table]
  cases after with
  | refused _ call cause =>
      obtain ⟨answer, isOk⟩ := succeeded
      cases isOk
  | done traced call known allowed describes =>
      cases isCommit
      obtain ⟨tops, stands, noTable⟩ := traced.exists_tops nested
      rw [← noTable]
      rw [← traced.openLists_eq] at allClosed
      cases stands with
      | closed _ sections =>
          exact Draft.findFirst_commit_iff sections (traced.table_of_nested nested) written
      | opened _ _ _ _ isOpen => simp [isOpen] at allClosed

/-- A list inside another one has the tag of a string table, which does no harm. -/
def nestedCalls : List Call := [
  .commit, .writeInterned .name "ab", .endList 12, .endList 18,
  .write .stringTableItem (.string "x"), .beginList .stringTable, .beginList .exe]

theorem reload_agrees_nestedCalls :
    Playable {} nestedCalls ∧ Nested (play {} nestedCalls.tail).1 ∧
      unclosed (play {} nestedCalls.tail).1 = [] ∧
      ∃ loaded, Database.ofBytes (play {} nestedCalls).2.image.toList = .ok loaded ∧
        loaded.Agrees (play {} nestedCalls).2 := by
  have playable : Playable {} nestedCalls := by decide +kernel
  have nested : Nested (play {} nestedCalls.tail).1 := by decide +kernel
  have allClosed : unclosed (play {} nestedCalls.tail).1 = [] := by decide +kernel
  have noTable : NoTableAtTop (play {} nestedCalls.tail).1 := by decide +kernel
  have succeeded : (Call.commit.event (play {} nestedCalls.tail).2).Succeeded :=
    Event.succeeded_of_isOk (by decide +kernel)
  obtain ⟨loaded, isLoaded, -, agrees⟩ := Run.reload_agrees_iff (run_play playable) nested allClosed
    rfl (Call.event_call _ _) succeeded
  exact ⟨playable, nested, allClosed, loaded, isLoaded, agrees.mpr noTable⟩

/-- A list at the top has the tag of a string table and an item with another text than the one that
is interned behind it. -/
def shadowingCalls : List Call := [
  .commit, .writeInterned .name "ab", .endList 12, .write .stringTableItem (.string "x"),
  .beginList .stringTable]

/-- The reference that was written for one text leads to another one after reopening. -/
theorem reload_shadowingCalls :
    Playable {} shadowingCalls ∧ Nested (play {} shadowingCalls.tail).1 ∧
      unclosed (play {} shadowingCalls.tail).1 = [] ∧
      (Call.commit.event (play {} shadowingCalls.tail).2).outcome = .ok (some 34) ∧
      (play {} shadowingCalls).2.stringTable = some 34 ∧
      (play {} shadowingCalls).2.string? 28 = some "ab" ∧
      ∃ loaded ∈ (Database.ofBytes (play {} shadowingCalls).2.image.toList).toOption,
        loaded.stringTable = some 12 ∧ loaded.string? 28 = some "x" ∧
          ¬loaded.Agrees (play {} shadowingCalls).2 := by
  have run : Playable {} shadowingCalls ∧ Nested (play {} shadowingCalls.tail).1 ∧
      unclosed (play {} shadowingCalls.tail).1 = [] ∧
      (Call.commit.event (play {} shadowingCalls.tail).2).outcome = .ok (some 34) := by
    decide +kernel
  have live : (play {} shadowingCalls).2.stringTable = some 34 ∧
      (play {} shadowingCalls).2.string? 28 = some "ab" := by
    decide +kernel
  have reloaded : ∃ loaded ∈
      (Database.ofBytes (play {} shadowingCalls).2.image.toList).toOption,
        loaded.stringTable = some 12 ∧ loaded.string? 28 = some "x" := by
    decide +kernel
  obtain ⟨loaded, isLoaded, table, text⟩ := reloaded
  refine ⟨run.1, run.2.1, run.2.2.1, run.2.2.2, live.1, live.2, loaded, isLoaded, table, text, ?_⟩
  intro agrees
  have sameTable := agrees.stringTable
  rw [table, live.1] at sameTable
  cases sameTable

end Run

end TagTree
