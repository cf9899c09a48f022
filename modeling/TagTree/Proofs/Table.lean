import TagTree.Proofs.Interning
import TagTree.Proofs.Loading

/-!
# The string table among the records

In a run that closes each of its own lists at most once, the table is written when all of them are
closed, so nothing that was written before reaches past its beginning and no list that is closed
later lies before it. It therefore is and stays a record at the top, it holds one item for each
interned text, and it is found again in the bytes of the image.
-/

namespace TagTree

open Layout

/-- The tag of the list that a call begins. -/
def Call.listTag? : Call → Option Tag
  | .beginList tag => some tag
  | _ => none

namespace Event

/-- The list that the call began. -/
def begun? (event : Event) : Option Nat :=
  match event.call, event.outcome with
  | .beginList _, .ok answer => answer
  | _, _ => none

/-- The list that the call closed. -/
def closed? (event : Event) : Option Nat :=
  match event.outcome with
  | .ok _ => event.call.closed?
  | .error _ => none

end Event

/-- The lists that calls began. -/
def begun (events : List Event) : List Nat :=
  events.filterMap Event.begun?

/-- The lists that calls closed. -/
def closed (events : List Event) : List Nat :=
  events.filterMap Event.closed?

/-- Only lists that were begun before are closed, each at most once, and none is begun with the tag
of the string table. -/
def Orderly : List Event → Prop
  | [] => True
  | event :: earlier =>
      Orderly earlier ∧
        (∀ id ∈ event.call.closed?, id ∈ begun earlier ∧ id ∉ closed earlier) ∧
          event.call.listTag? ≠ some .stringTable

instance decidableOrderly : (events : List Event) → Decidable (Orderly events)
  | [] => inferInstanceAs (Decidable True)
  | _ :: earlier =>
      have := decidableOrderly earlier
      inferInstanceAs (Decidable (_ ∧ _ ∧ _))

/-! ## Where the table stands -/

/-- The table with an item for each text stands at a place behind records that do not reach past it
and are no tables. -/
structure Draft.TableStands (draft : Draft) (table : Nat) (texts : List String)
    (front behind : List Record) : Prop where
  split : draft.records = front ++ (Database.tableRecords texts ++ behind)
  place : Header.size + Layout.size front = table
  aligned : Aligned Header.size front
  noOther : ∀ record ∈ front, record.tag ≠ .stringTable

namespace Draft.TableStands

variable {draft : Draft} {table : Nat} {texts : List String} {front behind : List Record}
  {image : Image}

theorem written_split (stands : draft.TableStands table texts front behind)
    (written : image.Written draft.records) :
    image.Written (front ++ (Database.tableRecords texts ++ behind)) :=
  stands.split ▸ written

/-- The records of the table are records of the draft. -/
theorem mem_placed (stands : draft.TableStands table texts front behind) {entry : Nat × Record}
    (member : entry ∈ Layout.placed table (Database.tableRecords texts)) :
    entry ∈ draft.placed := by
  rw [Draft.placed, stands.split, placed_append, stands.place]
  exact List.mem_append_right _ (mem_placed_append_left behind member)

theorem table_mem_placed (stands : draft.TableStands table texts front behind) :
    (table, .list .stringTable (Layout.size (texts.map tableItem))) ∈ draft.placed := by
  apply stands.mem_placed
  rw [tableRecords_eq]
  exact List.mem_cons_self ..

theorem items_mem_placed (stands : draft.TableStands table texts front behind)
    {entry : Nat × Record}
    (member : entry ∈ Layout.placed (table + Image.listHeaderSize) (texts.map tableItem)) :
    entry ∈ draft.placed := by
  apply stands.mem_placed
  rw [tableRecords_eq, Layout.placed, Record.size_list]
  exact List.mem_cons_of_mem _ member

/-- A walk at the top comes to the table, and to no other one before. -/
theorem exists_children_root_eq (stands : draft.TableStands table texts front behind)
    (written : image.Written draft.records) :
    ∃ before after, image.children Image.root = before ++ table :: after ∧
      ∀ child ∈ before, image.tagAt child ≠ .stringTable := by
  have split := stands.written_split written
  have more : Database.tableRecords texts ++ behind ≠ [] := by simp [tableRecords_eq]
  obtain ⟨before, walk, onFront⟩ :=
    split.exists_siblingsFrom_root_eq stands.aligned more (boundary_start _ _)
  have nonempty : Header.size < image.size := by
    have inside := written.end_le_size stands.table_mem_placed
    have place := stands.place
    rw [Record.extent, Image.listHeaderSize] at inside
    omega
  rw [Image.siblingsFrom_eq image Image.root (Header.size + _), stands.place] at walk
  refine ⟨before, _, (Image.children_root_of_lt nonempty).trans walk, ?_⟩
  intro child isBefore
  obtain ⟨record, placed⟩ := exists_of_mem_places (onFront child isBefore)
  rw [split.tagAt (mem_placed_append_left _ placed)]
  exact stands.noOther record (mem_of_mem_placed placed)

/-- The table is what a search for a string table finds. -/
theorem findFirst_eq (stands : draft.TableStands table texts front behind)
    (written : image.Written draft.records) :
    image.findFirst Image.root .stringTable = some table := by
  obtain ⟨before, after, walk, noneBefore⟩ := stands.exists_children_root_eq written
  exact Image.findFirst_eq walk noneBefore (written.tagAt stands.table_mem_placed)

theorem sizeOf_table (stands : draft.TableStands table texts front behind)
    (written : image.Written draft.records) :
    image.sizeOf table = Layout.size (texts.map tableItem) + Image.listHeaderSize :=
  written.sizeOf stands.table_mem_placed

/-- The items tile what the table claims. -/
theorem tiles (stands : draft.TableStands table texts front behind)
    (written : image.Written draft.records) :
    image.Tiles (table + Image.listHeaderSize)
      (places (table + Image.listHeaderSize) (texts.map tableItem))
      (table + image.sizeOf table) := by
  have bare : ∀ record ∈ texts.map tableItem, record.extent = record.size := by
    intro record isItem
    obtain ⟨text, -, rfl⟩ := List.mem_map.mp isItem
    rfl
  have tiles := written.tiles_of_bare (table + Image.listHeaderSize) (texts.map tableItem)
    (fun _ member => stands.items_mem_placed member) bare
  rwa [stands.sizeOf_table written, Nat.add_comm (Layout.size _), ← Nat.add_assoc]

/-- The children of the table are its items. -/
theorem children_table (stands : draft.TableStands table texts front behind)
    (written : image.Written draft.records) :
    image.children table = places (table + Image.listHeaderSize) (texts.map tableItem) :=
  written.children_eq stands.table_mem_placed (stands.tiles written)

end Draft.TableStands

/-! ## What the table holds -/

/-- The string table of a database is at a certain place at the top, and its items hold certain
texts in order. -/
structure Database.TableHolds (database : Database) (table : Nat) (texts : List String) : Prop where
  located : database.stringTable = some table
  top : table ∈ database.image.children Image.root
  items : ∀ item ∈ database.image.children table, database.image.tagAt item = .stringTableItem
  texts : (database.image.children table).map database.string? = texts.map some
  tiled : database.image.Tiles (table + Image.listHeaderSize) (database.image.children table)
    (table + database.image.sizeOf table)

/-- A reference leads to an item of the table with a certain text. -/
def Database.RefersTo (database : Database) (id table : Nat) (text : String) : Prop :=
  ∃ item ∈ database.image.children table,
    (∀ default, table + (database.image.readScalar .stringRef id default).toNat = item) ∧
      database.string? item = some text ∧ database.string? id = some text

theorem tableItems_texts {database : Database} {start : Nat} {texts : List String}
    (readable : ∀ id text, (id, tableItem text) ∈ Layout.placed start (texts.map tableItem) →
      database.string? id = some text) :
    (places start (texts.map tableItem)).map database.string? = texts.map some := by
  induction texts generalizing start with
  | nil => rfl
  | cons text rest ih =>
      simp only [List.map_cons, places, Layout.placed]
      congr 1
      · exact readable start text (List.mem_cons_self ..)
      · exact ih fun id other member => readable id other (List.mem_cons_of_mem _ member)

namespace Draft.TableStands

variable {draft : Draft} {table : Nat} {texts : List String} {front behind : List Record}
  {database : Database}

theorem tableHolds (stands : draft.TableStands table texts front behind)
    (written : database.image.Written draft.records) (located : database.stringTable = some table) :
    database.TableHolds table texts where
  located := located
  top := by
    obtain ⟨before, after, walk, -⟩ := stands.exists_children_root_eq written
    rw [walk]
    exact List.mem_append_right _ (List.mem_cons_self ..)
  items := by
    rw [stands.children_table written]
    intro item isItem
    obtain ⟨record, member⟩ := exists_of_mem_places isItem
    obtain ⟨text, -, rfl⟩ := List.mem_map.mp (mem_of_mem_placed member)
    exact written.tagAt (stands.items_mem_placed member)
  texts := by
    rw [stands.children_table written]
    apply tableItems_texts
    intro id text member
    have holds := written.laidOut.holds (stands.items_mem_placed member)
    exact Database.string?_string holds (written.sound_of_placed (stands.items_mem_placed member))
  tiled := by
    rw [stands.children_table written]
    exact stands.tiles written

theorem refersTo {tag : Tag} {id : Nat} {text : String}
    (stands : draft.TableStands table texts front behind)
    (written : database.image.Written draft.records) (clean : ∀ text ∈ texts, '\x00' ∉ text.toList)
    (located : database.stringTable = some table) (waits : text ∈ texts)
    (member : (id, Database.reference tag texts text) ∈ draft.placed) :
    database.RefersTo id table text := by
  have isItem := mem_placed_tableItems waits table
  have stood := stands.items_mem_placed isItem
  have item := written.laidOut.holds stood
  have holds := written.laidOut.holds member
  have sound := written.sound_of_placed member
  refine ⟨table + placeOf texts text, ?_, ?_, ?_, ?_⟩
  · rw [stands.children_table written]
    exact mem_places_of_mem_placed isItem
  · intro default
    rw [holds.readScalar sound, Database.toNat_place item]
  · exact Database.string?_string item (written.sound_of_placed stood)
  · exact Database.string?_reference holds sound located (clean text waits) item

end Draft.TableStands

/-! ## Where a run puts it -/

section Run

variable {config : Config} {events : List Event} {database : Database} {event : Event}
  {id table : Nat}

theorem mem_begun_cons :
    id ∈ begun (event :: events) ↔ event.begun? = some id ∨ id ∈ begun events := by
  simp [begun]

theorem begun_refused (call : Call) (before : Database) (cause : Error) (after : Database)
    (events : List Event) :
    begun (⟨call, before, .error cause, after⟩ :: events) = begun events := by
  cases call <;> rfl

theorem mem_closed_cons :
    id ∈ closed (event :: events) ↔ event.closed? = some id ∨ id ∈ closed events := by
  simp [closed]

/-- A list that was begun and not closed is open. -/
theorem Traced.mem_openLists (traced : Traced config events database) (isBegun : id ∈ begun events)
    (unclosed : id ∉ closed events) : id ∈ (Draft.ofEvents events).openLists := by
  induction traced with
  | start => cases isBegun
  | refused _ call cause ih =>
      rw [begun_refused] at isBegun
      exact ih isBegun unclosed
  | @done events _ _ _ call _ _ _ ih =>
      have earlier : id ∈ begun events → id ∈ (Draft.ofEvents events).openLists := fun isEarlier =>
        ih isEarlier fun isClosed => unclosed (mem_closed_cons.mpr (.inr isClosed))
      rw [Draft.ofEvents_done]
      cases call with
      | beginList tag =>
          rcases mem_begun_cons.mp isBegun with new | isEarlier
          · cases new
            exact List.mem_cons_self ..
          · exact List.mem_cons_of_mem _ (earlier isEarlier)
      | endList other =>
          have different : id ≠ other := by
            rintro rfl
            exact unclosed (mem_closed_cons.mpr (.inl rfl))
          exact (List.mem_erase_of_ne different).mpr (earlier isBegun)
      | dropList other =>
          have different : id ≠ other := by
            rintro rfl
            exact unclosed (mem_closed_cons.mpr (.inl rfl))
          exact (List.mem_erase_of_ne different).mpr (earlier isBegun)
      | commit =>
          rw [Draft.openLists_revise_commit]
          exact earlier isBegun
      | _ => exact earlier isBegun

/-- Nothing that a call adds is a table, if it neither begins nor writes one. -/
theorem Draft.Proper.added_tag_ne {draft : Draft} {call : Call} (proper : draft.Proper)
    (allowed : draft.Allows call) (noTable : (draft.revise call).table = none)
    (noList : call.listTag? ≠ some .stringTable) :
    ∀ record ∈ call.added draft.texts, record.tag ≠ .stringTable := by
  intro record member
  have sound := proper.sound_added allowed record member
  cases record with
  | leaf tag content => exact Database.tag_ne_stringTable sound
  | list tag length =>
      cases call with
      | beginList other =>
          cases List.mem_singleton.mp member
          rintro rfl
          exact noList rfl
      | commit =>
          by_cases noTexts : draft.texts = []
          · rw [Call.added, if_pos noTexts] at member
            cases member
          · rw [Draft.revise_commit noTexts] at noTable
            cases noTable
      | writeFile other directory path =>
          rw [Call.added] at member
          split at member
          · cases List.mem_singleton.mp member
          · cases member
      | write other content => cases List.mem_singleton.mp member
      | writeInterned other text => cases List.mem_singleton.mp member
      | endList id => cases member
      | dropList id => cases member

/-- Once there is a table, there is one ever after. -/
theorem Draft.table_eq_none_of_revise {draft : Draft} {call : Call}
    (noTable : (draft.revise call).table = none) : draft.table = none := by
  cases call with
  | commit =>
      by_cases noTexts : draft.texts = []
      · rwa [Draft.revise_commit_of_nil noTexts] at noTable
      · rw [Draft.revise_commit noTexts] at noTable
        cases noTable
  | _ => exact noTable

/-- Before the table is written no record is one. -/
theorem Traced.tag_ne_stringTable (traced : Traced config events database)
    (orderly : Orderly events) (noTable : (Draft.ofEvents events).table = none) :
    ∀ record ∈ (Draft.ofEvents events).records, record.tag ≠ .stringTable := by
  induction traced with
  | start => intro record member; cases member
  | refused _ call cause ih => exact ih orderly.1 noTable
  | @done events _ _ traced call _ allowed _ ih =>
      rw [Draft.ofEvents_done] at noTable ⊢
      have before := ih orderly.1 (Draft.table_eq_none_of_revise noTable)
      rcases (Draft.ofEvents events).records_revise call with appended | ⟨id, rfl, closed⟩
      · rw [appended]
        intro record member
        rcases List.mem_append.mp member with stood | isAdded
        · exact before record stood
        · exact traced.proper.added_tag_ne allowed noTable orderly.2.2 record isAdded
      · rw [closed]
        intro record member
        obtain ⟨old, stood, rfl | rfl⟩ := exists_of_mem_relength member
        · exact before record stood
        · rw [tag_withLength]
          exact before old stood

namespace Draft.TableStands

variable {draft other : Draft} {texts : List String} {front behind : List Record}

theorem extend {added : List Record} (stands : draft.TableStands table texts front behind)
    (appended : other.records = draft.records ++ added) :
    other.TableStands table texts front (behind ++ added) where
  split := by rw [appended, stands.split, List.append_assoc, List.append_assoc]
  place := stands.place
  aligned := stands.aligned
  noOther := stands.noOther

/-- Closing a list behind the table changes nothing before and in it. -/
theorem close (stands : draft.TableStands table texts front behind)
    (later : table + Layout.size (Database.tableRecords texts) ≤ id) :
    ∃ behind', (draft.close id).TableStands table texts front behind' := by
  have place := stands.place
  have afterTable : Header.size + Layout.size (front ++ Database.tableRecords texts) ≤ id := by
    rw [size_append]
    omega
  have records : relength id (draft.size - id - Image.listHeaderSize) Header.size
      (front ++ Database.tableRecords texts ++ behind) = _ :=
    relength_append afterTable
  rw [List.append_assoc, ← stands.split, List.append_assoc] at records
  exact ⟨_, records, place, stands.aligned, stands.noOther⟩

theorem end_le_size (stands : draft.TableStands table texts front behind) :
    table + Layout.size (Database.tableRecords texts) ≤ draft.size := by
  have place := stands.place
  rw [Draft.size, stands.split, size_append, size_append]
  omega

end Draft.TableStands

/-- In an orderly run the table stands behind records that do not reach past it, and all lists that
may still be closed lie behind it. -/
theorem Traced.tableStands (traced : Traced config events database) (orderly : Orderly events)
    (hasTable : (Draft.ofEvents events).table = some table) :
    (∃ front behind,
        (Draft.ofEvents events).TableStands table (internedTexts events) front behind) ∧
      ∀ id ∈ begun events, id ∉ closed events →
        table + Layout.size (Database.tableRecords (internedTexts events)) ≤ id := by
  induction traced with
  | start => cases hasTable
  | refused _ call cause ih =>
      rw [internedTexts_refused, begun_refused]
      exact ih orderly.1 hasTable
  | @done events _ _ traced call _ allowed _ ih =>
      rw [Draft.ofEvents_done] at hasTable ⊢
      cases call with
      | commit =>
          rw [internedTexts_cons_none rfl]
          by_cases noTexts : (Draft.ofEvents events).texts = []
          · rw [Draft.revise_commit_of_nil noTexts] at hasTable ⊢
            exact ih orderly.1 hasTable
          · have noTable := traced.table_eq_none noTexts
            have texts := traced.texts_eq
            rw [if_pos noTable] at texts
            rw [Draft.revise_commit noTexts] at hasTable ⊢
            cases hasTable
            refine ⟨⟨(Draft.ofEvents events).records, [], ?_⟩, ?_⟩
            · constructor
              · rw [List.append_nil, ← texts]
                rfl
              · rfl
              · exact traced.proper.aligned
              · exact traced.tag_ne_stringTable orderly.1 noTable
            · intro id isBegun unclosed
              have isOpen := traced.mem_openLists isBegun unclosed
              rw [allowed.resolve_left noTexts] at isOpen
              cases isOpen
      | writeInterned tag text => cases allowed.2.1.symm.trans hasTable
      | beginList tag =>
          rw [internedTexts_cons_none rfl]
          obtain ⟨⟨front, behind, stands⟩, later⟩ := ih orderly.1 hasTable
          refine ⟨⟨front, _, stands.extend rfl⟩, ?_⟩
          intro id isBegun unclosed
          rcases mem_begun_cons.mp isBegun with new | earlier
          · cases new
            exact stands.end_le_size
          · exact later id earlier unclosed
      | endList id =>
          rw [internedTexts_cons_none rfl]
          obtain ⟨⟨front, behind, stands⟩, later⟩ := ih orderly.1 hasTable
          obtain ⟨isBegun, unclosed⟩ := orderly.2.1 id rfl
          obtain ⟨behind', stands'⟩ := stands.close (later id isBegun unclosed)
          refine ⟨⟨front, behind', stands'⟩, ?_⟩
          intro other otherBegun otherUnclosed
          exact later other otherBegun fun earlier =>
            otherUnclosed (mem_closed_cons.mpr (.inr earlier))
      | dropList id =>
          rw [internedTexts_cons_none rfl]
          obtain ⟨⟨front, behind, stands⟩, later⟩ := ih orderly.1 hasTable
          refine ⟨⟨front, _, stands.extend (List.append_nil _).symm⟩, ?_⟩
          intro other otherBegun otherUnclosed
          exact later other otherBegun fun earlier =>
            otherUnclosed (mem_closed_cons.mpr (.inr earlier))
      | _ =>
          rw [internedTexts_cons_none rfl]
          obtain ⟨⟨front, behind, stands⟩, later⟩ := ih orderly.1 hasTable
          exact ⟨⟨front, _, stands.extend rfl⟩, later⟩

/-- Every interned text of a run is referred to by the record that the call wrote, wherever the
records of the run are laid out. -/
theorem Traced.refersTo {other : Database} {front behind : List Record} {text : String}
    (traced : Traced config events database)
    (stands : (Draft.ofEvents events).TableStands table (internedTexts events) front behind)
    (written : other.image.Written (Draft.ofEvents events).records)
    (located : other.stringTable = some table) (isCall : event ∈ events)
    (interned : event.internedText? = some text) :
    other.RefersTo event.before.image.size table text := by
  obtain ⟨waits, samePlace⟩ := traced.placeOf_eq isCall interned
  cases event with
  | mk call before outcome after =>
      cases call with
      | writeInterned tag text =>
          cases outcome with
          | ok answer =>
              cases interned
              have member := traced.mem_placed_of_added isCall (List.mem_singleton.mpr rfl)
              rw [samePlace] at member
              exact stands.refersTo written traced.clean_internedTexts located waits member
          | error cause => cases interned
      | _ => cases interned

/-- Where the string table is written in an orderly run, it is a record at the top with one item for
each interned text from then on, every reference leads to its text, and all of this is found again
in the bytes of the image. -/
theorem Run.table_holds (run : Run config events database) (orderly : Orderly events)
    (supported : config.header.major = Header.supportedMajor) (isCall : event ∈ events)
    (commits : event.Commits table) :
    table = event.before.image.size ∧
      database.TableHolds table (internedTexts events) ∧
      (∀ other ∈ events, ∀ text, other.internedText? = some text →
        database.RefersTo other.before.image.size table text) ∧
      ∃ loaded, Database.ofBytes database.image.toList = .ok loaded ∧
        loaded.image.toList = database.image.toList ∧
        loaded.TableHolds table (internedTexts events) ∧
        ∀ other ∈ events, ∀ text, other.internedText? = some text →
          loaded.RefersTo other.before.image.size table text := by
  have traced := run.traced
  have written := traced.written
  have hasTable := traced.table_eq_some.mpr ⟨event, isCall, commits⟩
  have located := traced.describes.table.trans hasTable
  obtain ⟨⟨front, behind, stands⟩, -⟩ := traced.tableStands orderly hasTable
  obtain ⟨loaded, isLoaded, same, -, -, search⟩ :=
    Database.ofBytes_toList traced.describes.bytes supported
  have writtenAgain := written.of_toList_eq same
  have locatedAgain := search.trans (stands.findFirst_eq writtenAgain)
  refine ⟨traced.eq_size_of_answer isCall commits.2, stands.tableHolds written located, ?_,
    loaded, isLoaded, same, stands.tableHolds writtenAgain locatedAgain, ?_⟩
  · intro other isOther text interned
    exact traced.refersTo stands written located isOther interned
  · intro other isOther text interned
    exact traced.refersTo stands writtenAgain locatedAgain isOther interned

/-- Two texts are interned, one of them twice, and the outer of two lists is closed first. -/
def internedCalls : List Call := [
  .write ⟨0x1001⟩ .null, .commit, .endList 24, .writeInterned .name "ab", .endList 12,
  .writeInterned .name "c", .beginList .exe, .writeInterned .name "ab", .beginList .database]

/-- The first and the last reference lead to the same item. -/
theorem table_holds_internedCalls :
    Playable {} internedCalls ∧ Orderly (play {} internedCalls).1 ∧
      (play {} internedCalls).2.TableHolds 42 ["ab", "c"] ∧
      (play {} internedCalls).2.RefersTo 18 42 "ab" ∧
      (play {} internedCalls).2.RefersTo 30 42 "c" ∧
      (play {} internedCalls).2.RefersTo 36 42 "ab" ∧
      ∃ loaded, Database.ofBytes (play {} internedCalls).2.image.toList = .ok loaded ∧
        loaded.TableHolds 42 ["ab", "c"] ∧ loaded.RefersTo 18 42 "ab" ∧
          loaded.RefersTo 30 42 "c" ∧ loaded.RefersTo 36 42 "ab" := by
  have playable : Playable {} internedCalls := by decide +kernel
  have orderly : Orderly (play {} internedCalls).1 := by decide +kernel
  have texts : internedTexts (play {} internedCalls).1 = ["ab", "c"] := by decide +kernel
  have commits : (Call.commit.event (play {} (internedCalls.drop 2)).2).Commits 42 :=
    ⟨Call.event_call _ _, by decide +kernel⟩
  obtain ⟨-, holds, refer, loaded, isLoaded, -, holdsAgain, referAgain⟩ :=
    Run.table_holds (run_play playable) orderly rfl
      (mem_play {} (internedCalls.take 1) _ (internedCalls.drop 2)) commits
  rw [texts] at holds holdsAgain
  have references {other : Database}
      (refer : ∀ event ∈ (play {} internedCalls).1, ∀ text, event.internedText? = some text →
        other.RefersTo event.before.image.size 42 text) :
      other.RefersTo 18 42 "ab" ∧ other.RefersTo 30 42 "c" ∧ other.RefersTo 36 42 "ab" := by
    have leads {id : Nat} {text : String}
        (wrote : ∃ event ∈ (play {} internedCalls).1,
          event.internedText? = some text ∧ event.before.image.size = id) :
        other.RefersTo id 42 text := by
      obtain ⟨event, isCall, interned, rfl⟩ := wrote
      exact refer event isCall text interned
    exact ⟨leads (by decide +kernel), leads (by decide +kernel), leads (by decide +kernel)⟩
  obtain ⟨first, second, third⟩ := references refer
  exact ⟨playable, orderly, holds, first, second, third, loaded, isLoaded, holdsAgain,
    references referAgain⟩

end Run

end TagTree
