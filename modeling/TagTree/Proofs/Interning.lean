import TagTree.Proofs.Run

/-!
# Interned texts

The texts that a run interns wait in the pool until the table is written, and stand in the table
from then on. Either way a text keeps the place that it got when it was first interned, so every
reference ever written is right once there is a table.
-/

namespace TagTree

namespace Event

/-- The text that the call interned. -/
def internedText? (event : Event) : Option String :=
  match event.call, event.outcome with
  | .writeInterned _ text, .ok _ => some text
  | _, _ => none

/-- The call wrote the string table at a place. -/
def Commits (event : Event) (table : Nat) : Prop :=
  event.call = .commit ∧ event.answer? = some table

end Event

/-- Some call wrote the string table at a place. -/
def Committed (events : List Event) (table : Nat) : Prop :=
  ∃ event ∈ events, event.Commits table

/-- The texts that calls interned, in the order in which each was first interned. -/
def internedTexts (events : List Event) : List String :=
  (events.reverse.filterMap Event.internedText?).eraseDups

variable {config : Config} {events : List Event} {database : Database} {event : Event}
  {text : String} {table : Nat}

theorem committed_cons :
    Committed (event :: events) table ↔ event.Commits table ∨ Committed events table := by
  simp [Committed]

theorem internedTexts_cons_none (nothing : event.internedText? = none) :
    internedTexts (event :: events) = internedTexts events := by
  simp [internedTexts, nothing]

theorem internedTexts_refused (call : Call) (before : Database) (cause : Error)
    (after : Database) (events : List Event) :
    internedTexts (⟨call, before, .error cause, after⟩ :: events) = internedTexts events :=
  internedTexts_cons_none (by cases call <;> rfl)

theorem internedTexts_cons_some (interned : event.internedText? = some text) :
    internedTexts (event :: events) = addText (internedTexts events) text := by
  rw [internedTexts, List.reverse_cons, List.filterMap_append, List.filterMap_cons, interned]
  exact eraseDups_concat _ text

theorem mem_internedTexts_cons {other : String} (member : other ∈ internedTexts events) :
    other ∈ internedTexts (event :: events) := by
  cases interned : event.internedText? with
  | none => rwa [internedTexts_cons_none interned]
  | some text =>
      rw [internedTexts_cons_some interned]
      exact mem_addText.mpr (.inl member)

/-- Further calls do not move the place of a text. -/
theorem placeOf_internedTexts_cons (member : text ∈ internedTexts events) :
    placeOf (internedTexts (event :: events)) text = placeOf (internedTexts events) text := by
  cases interned : event.internedText? with
  | none => rw [internedTexts_cons_none interned]
  | some other =>
      rw [internedTexts_cons_some interned]
      exact placeOf_addText_of_mem member other

namespace Traced

/-- The interned texts wait until the table is written. -/
theorem texts_eq (traced : Traced config events database) :
    (Draft.ofEvents events).texts =
      if (Draft.ofEvents events).table = none then internedTexts events else [] := by
  induction traced with
  | start => rfl
  | refused _ call cause ih =>
      rw [internedTexts_refused]
      exact ih
  | @done events _ _ traced call _ allowed _ ih =>
      cases call with
      | writeInterned tag text =>
          rw [if_pos allowed.2.1] at ih
          rw [internedTexts_cons_some rfl, ← ih]
          exact (if_pos allowed.2.1).symm
      | commit =>
          rw [internedTexts_cons_none rfl, Draft.ofEvents_done]
          by_cases noTexts : (Draft.ofEvents events).texts = []
          · rw [Draft.revise_commit_of_nil noTexts]
            exact ih
          · rw [Draft.revise_commit noTexts]
            rfl
      | _ =>
          rw [internedTexts_cons_none rfl]
          exact ih

/-- Texts only wait as long as there is no table. -/
theorem table_eq_none (traced : Traced config events database)
    (someTexts : (Draft.ofEvents events).texts ≠ []) : (Draft.ofEvents events).table = none := by
  have texts := traced.texts_eq
  split at texts
  · assumption
  · exact absurd texts someTexts

/-- There is a table just where a call has written one. -/
theorem table_eq_some (traced : Traced config events database) :
    (Draft.ofEvents events).table = some table ↔ Committed events table := by
  induction traced with
  | start => simp [Draft.ofEvents, Draft.empty, Committed]
  | refused _ call cause ih =>
      rw [committed_cons, or_iff_right (by rintro ⟨-, succeeded⟩; cases succeeded)]
      exact ih
  | @done events _ after traced call _ allowed _ ih =>
      cases call with
      | commit =>
          rw [Draft.ofEvents_done, committed_cons]
          by_cases noTexts : (Draft.ofEvents events).texts = []
          · rw [Draft.revise_commit_of_nil noTexts, ih, or_iff_right]
            simp [Event.Commits, Event.answer?, Draft.answer, noTexts]
          · rw [traced.table_eq_none noTexts] at ih
            rw [Draft.revise_commit noTexts, ← ih]
            simp [Event.Commits, Event.answer?, Draft.answer, noTexts]
      | _ =>
          rw [committed_cons, or_iff_right (by rintro ⟨isCommit, -⟩; cases isCommit)]
          exact ih

theorem stringTable_eq_none_iff (traced : Traced config events database) :
    database.stringTable = none ↔ ¬∃ table, Committed events table := by
  rw [traced.describes.table, Option.eq_none_iff_forall_ne_some, not_exists]
  exact forall_congr' fun table => not_congr traced.table_eq_some

/-- A call that writes the table, made after a text was interned, answers a table when it succeeds,
unless there is one already. -/
theorem exists_committed_cons (traced : Traced config (event :: events) database)
    (isCommit : event.call = .commit) (succeeded : event.Succeeded)
    (interned : internedTexts events ≠ []) : ∃ table, Committed (event :: events) table := by
  cases traced with
  | refused _ call cause =>
      obtain ⟨answer, isOk⟩ := succeeded
      cases isOk
  | done traced call known allowed describes =>
      cases isCommit
      by_cases noTexts : (Draft.ofEvents events).texts = []
      · have texts := traced.texts_eq
        cases hasTable : (Draft.ofEvents events).table with
        | none =>
            rw [noTexts, if_pos hasTable] at texts
            exact absurd texts.symm interned
        | some table => exact ⟨table, committed_cons.mpr (.inr (traced.table_eq_some.mp hasTable))⟩
      · have answered : (Draft.ofEvents events).answer .commit = some (Draft.ofEvents events).size :=
          if_neg noTexts
        exact ⟨_, committed_cons.mpr (.inl ⟨rfl, answered⟩)⟩

/-- When a call has succeeded in writing the table after a text was interned, some call has answered
a table, and so it is in all later states. -/
theorem exists_committed {later : List Event}
    (traced : Traced config (later ++ event :: events) database) (isCommit : event.call = .commit)
    (succeeded : event.Succeeded) (interned : internedTexts events ≠ []) :
    ∃ table, Committed (later ++ event :: events) table := by
  induction later generalizing database with
  | nil => exact traced.exists_committed_cons isCommit succeeded interned
  | cons next later ih =>
      have earlier : ∃ before, Traced config (later ++ event :: events) before := by
        cases traced with
        | refused traced => exact ⟨_, traced⟩
        | done traced => exact ⟨_, traced⟩
      obtain ⟨before, traced⟩ := earlier
      obtain ⟨table, committed⟩ := ih traced
      exact ⟨table, committed_cons.mpr (.inr committed)⟩

/-- Once there is a table, every interned text stands in it at its place. -/
theorem mem_placed_of_table (traced : Traced config events database)
    (hasTable : (Draft.ofEvents events).table = some table) (member : text ∈ internedTexts events) :
    (table + placeOf (internedTexts events) text, tableItem text) ∈
      (Draft.ofEvents events).placed := by
  induction traced with
  | start => cases hasTable
  | refused _ call cause ih =>
      rw [internedTexts_refused] at member ⊢
      exact ih hasTable member
  | @done events _ after traced call _ allowed _ ih =>
      cases call with
      | writeInterned tag text =>
          cases allowed.2.1.symm.trans hasTable
      | commit =>
          rw [internedTexts_cons_none rfl] at member ⊢
          rw [Draft.ofEvents_done] at hasTable ⊢
          by_cases noTexts : (Draft.ofEvents events).texts = []
          · rw [Draft.revise_commit_of_nil noTexts] at hasTable ⊢
            exact ih hasTable member
          · rw [Draft.revise_commit noTexts] at hasTable
            cases hasTable
            apply Draft.mem_placed_revise_added
            have texts := traced.texts_eq
            rw [if_pos (traced.table_eq_none noTexts)] at texts
            rw [Call.added, if_neg noTexts, texts]
            exact mem_placed_tableRecords member _
      | _ =>
          rw [internedTexts_cons_none rfl] at member ⊢
          exact Draft.leaf_mem_placed_revise (ih hasTable member)

/-- Every interned text got the place that it has among all of them. -/
theorem placeOf_eq (traced : Traced config events database) (isCall : event ∈ events)
    (interned : event.internedText? = some text) :
    text ∈ internedTexts events ∧
      placeOf event.before.pool.texts text = placeOf (internedTexts events) text := by
  induction traced with
  | start => cases isCall
  | refused _ call cause ih =>
      rcases List.mem_cons.mp isCall with rfl | earlier
      · cases call <;> cases interned
      · have before := ih earlier
        exact ⟨mem_internedTexts_cons before.1,
          before.2.trans (placeOf_internedTexts_cons before.1).symm⟩
  | done traced call _ allowed _ ih =>
      rcases List.mem_cons.mp isCall with rfl | earlier
      · cases call with
        | writeInterned tag text =>
            cases interned
            have texts := traced.texts_eq
            rw [if_pos allowed.2.1, ← traced.describes.texts] at texts
            rw [internedTexts_cons_some rfl, ← texts, placeOf_addText]
            exact ⟨mem_addText.mpr (.inr rfl), rfl⟩
        | _ => cases interned
      · have before := ih earlier
        exact ⟨mem_internedTexts_cons before.1,
          before.2.trans (placeOf_internedTexts_cons before.1).symm⟩

/-- Every interned text can be got back from its bytes. -/
theorem clean_internedTexts (traced : Traced config events database) :
    ∀ text ∈ internedTexts events, '\x00' ∉ text.toList := by
  induction traced with
  | start => intro text member; cases member
  | refused _ call cause ih =>
      rw [internedTexts_refused]
      exact ih
  | done _ call _ allowed _ ih =>
      cases call with
      | writeInterned tag text =>
          rw [internedTexts_cons_some rfl]
          intro other member
          rcases mem_addText.mp member with earlier | rfl
          · exact ih other earlier
          · exact allowed.2.2
      | _ =>
          rw [internedTexts_cons_none rfl]
          exact ih

end Traced

end TagTree
