import TagTree.Database.Write
import TagTree.Proofs.Layout

/-!
# What the writers do

Each writer either refuses before it changes anything, or adds exactly the bytes of its record if
there is room for them. Without room it reports so. Closing a list replaces the length that the list
says of itself, and writing the string table adds the table with all its items at once.
-/

namespace TagTree

namespace Image

theorem hasRoom_iff (image : Image) (count : Nat) :
    image.HasRoom count ↔ image.size + count < sizeLimit :=
  Iff.rfl

theorem capacity_replace (image : Image) (offset : Nat) (replacement : List UInt8) :
    (image.replace offset replacement).capacity = image.capacity :=
  rfl

theorem size_eq_of_added {before after : Image} {bytes : List UInt8}
    (added : after.toList = before.toList ++ bytes) :
    after.size = before.size + bytes.length := by
  rw [← length_toList, added, List.length_append, length_toList]

end Image

namespace Database

/-- Only the image changes: it gets certain bytes at its end. -/
def Grows (before after : Database) (bytes : List UInt8) : Prop :=
  ∃ image, after = { before with image } ∧ image.toList = before.image.toList ++ bytes

theorem Grows.trans {first second third : Database} {front back : List UInt8}
    (grows : first.Grows second front) (again : second.Grows third back) :
    first.Grows third (front ++ back) := by
  obtain ⟨image, rfl, added⟩ := grows
  obtain ⟨image', rfl, added'⟩ := again
  exact ⟨image', rfl, by rw [added', added, List.append_assoc]⟩

theorem Grows.size_eq {before after : Database} {bytes : List UInt8}
    (grows : before.Grows after bytes) : after.image.size = before.image.size + bytes.length := by
  obtain ⟨image, rfl, added⟩ := grows
  exact Image.size_eq_of_added added

end Database

/-- An error that says that there is no room for something. -/
def Error.NoRoom (cause : Error) : Prop :=
  ∃ offset length size, cause = .outOfRange offset length size

/-- An action adds certain bytes, or says that there is no room for them. -/
structure Action.Appends (action : Action Unit) (bytes : List UInt8) : Prop where
  done : ∀ before : Database, before.image.HasRoom bytes.length →
    ∃ after, action.run before = .ok () after ∧ before.Grows after bytes
  refused : ∀ before : Database, ¬before.image.HasRoom bytes.length →
    ∃ cause after, action.run before = .error cause after ∧ cause.NoRoom

namespace Action.Appends

open Database

variable {action next : Action Unit} {bytes more : List UInt8}

/-- One action after the other adds the bytes of both. -/
theorem seq (first : Appends action bytes) (second : Appends next more) :
    Appends (action >>= fun _ => next) (bytes ++ more) where
  done before room := by
    rw [Image.hasRoom_iff, List.length_append] at room
    obtain ⟨middle, ran, grows⟩ := first.done before (by rw [Image.hasRoom_iff]; omega)
    obtain ⟨after, ranNext, growsNext⟩ := second.done middle (by
      rw [Image.hasRoom_iff, grows.size_eq]
      omega)
    refine ⟨after, ?_, grows.trans growsNext⟩
    rw [EStateM.run_bind, ran]
    exact ranNext
  refused before noRoom := by
    by_cases room : before.image.HasRoom bytes.length
    · obtain ⟨middle, ran, grows⟩ := first.done before room
      obtain ⟨cause, after, failed, isNoRoom⟩ := second.refused middle (by
        rw [Image.hasRoom_iff, List.length_append] at noRoom
        rw [Image.hasRoom_iff, grows.size_eq]
        omega)
      refine ⟨cause, after, ?_, isNoRoom⟩
      rw [EStateM.run_bind, ran]
      exact failed
    · obtain ⟨cause, after, failed, isNoRoom⟩ := first.refused before room
      refine ⟨cause, after, ?_, isNoRoom⟩
      rw [EStateM.run_bind, failed]

theorem nil : Appends (pure ()) [] where
  done before _ := ⟨before, rfl, before.image, rfl, by simp⟩
  refused before noRoom := absurd before.image.size_lt noRoom

end Action.Appends

namespace Database

open TagTree.Action (Appends)

variable {before after : Database} {tag : Tag} {content : Leaf} {text : String}

/-! ## Records without children -/

theorem appends_appendBytes (bytes : List UInt8) : Appends (appendBytes bytes) bytes where
  done before room :=
    ⟨_, dif_pos room, _, rfl, Image.toList_extend before.image bytes room⟩
  refused _ noRoom := ⟨_, _, dif_neg noRoom, _, _, _, rfl⟩

theorem appends_appendTag (tag : Tag) :
    Appends (appendTag tag) (LittleEndian.encode Image.tagSize tag.raw.toNat) :=
  appends_appendBytes _

theorem appendSized_of_lt {payload : List UInt8} (small : payload.length < sizeLimit) :
    appendSized tag payload =
      appendTag tag >>= fun _ => appendBytes (LittleEndian.encode 4 payload.length) >>= fun _ =>
        appendBytes payload := by
  funext before
  simp only [appendSized, Nat.not_le.mpr small, if_false]
  rfl

/-- Bytes whose length is no 32-bit number are refused before anything is added. -/
theorem appendSized_of_le {payload : List UInt8} (large : sizeLimit ≤ payload.length)
    (before : Database) :
    (appendSized tag payload).run before = .error (before.image.noRoom payload.length) before := by
  simp only [appendSized, large, if_true]
  rfl

theorem appends_appendSized (tag : Tag) (payload : List UInt8) :
    Appends (appendSized tag payload)
      (LittleEndian.encode Image.tagSize tag.raw.toNat ++
        (LittleEndian.encode 4 payload.length ++ payload)) := by
  by_cases small : payload.length < sizeLimit
  · rw [appendSized_of_lt small]
    exact (appends_appendTag tag).seq
      ((appends_appendBytes (LittleEndian.encode 4 payload.length)).seq
        (appends_appendBytes payload))
  · constructor
    · intro before room
      rw [Image.hasRoom_iff, List.length_append, List.length_append] at room
      omega
    · intro before noRoom
      exact ⟨_, before, appendSized_of_le (Nat.not_lt.mp small) before, _, _, _, rfl⟩

theorem requireKind_of_eq {kind : Kind} (fits : tag.kind? = some kind) :
    requireKind tag kind = pure () :=
  if_pos fits

theorem requireKind_of_ne {kind : Kind} (other : tag.kind? ≠ some kind) :
    requireKind tag kind = throw (.typeMismatch tag kind) :=
  if_neg other

theorem zeroIndex?_eq_none : zeroIndex? text = none ↔ '\x00' ∉ text.toList := by
  simp [zeroIndex?]

theorem requireNoZero_of_notMem (clean : '\x00' ∉ text.toList) :
    requireNoZero text = pure () := by
  rw [requireNoZero, zeroIndex?_eq_none.mpr clean]

theorem requireNoZero_of_mem (zero : '\x00' ∈ text.toList) :
    ∃ index, requireNoZero text = throw (.format (.zeroInText index)) := by
  cases index : zeroIndex? text with
  | none => exact absurd zero (zeroIndex?_eq_none.mp index)
  | some index' => exact ⟨index', by rw [requireNoZero, index]⟩

end Database

namespace Leaf

open TagTree.Action (Appends)

open Database

variable {before after : Database} {tag : Tag} {content : Leaf}

/-- The writer for what a record holds. -/
def write (tag : Tag) : Leaf → Action Unit
  | null => writeNull tag
  | scalar form value => writeScalar form tag value
  | string text => writeString tag text
  | binary bytes => writeBinary tag bytes

/-- What a writer does once the tag has been found to be of its kind. -/
def add (tag : Tag) : Leaf → Action Unit
  | null => appendTag tag
  | scalar form value => appendTag tag >>= fun _ => appendNumber form.width value.toNat
  | string text => requireNoZero text >>= fun _ => appendSized tag (Text.Utf16.encode text)
  | binary bytes => appendSized tag bytes

theorem write_eq (tag : Tag) (content : Leaf) :
    content.write tag = requireKind tag content.kind >>= fun _ => content.add tag := by
  cases content <;> rfl

theorem appends_add (clean : content.Clean) :
    Appends (content.add tag) (Record.leaf tag content).encode := by
  cases content with
  | null =>
      rw [add, Record.encode, encode, List.append_nil]
      exact appends_appendTag tag
  | scalar form value => exact (appends_appendTag tag).seq (appends_appendBytes _)
  | string text =>
      rw [add, requireNoZero_of_notMem clean, pure_bind]
      exact appends_appendSized tag _
  | binary bytes => exact appends_appendSized tag bytes

/-- A tag of the right kind and a clean text are accepted. -/
theorem appends_write (sound : (Record.leaf tag content).Sound) :
    Appends (content.write tag) (Record.leaf tag content).encode := by
  rw [write_eq, requireKind_of_eq sound.1, pure_bind]
  exact appends_add sound.2

/-- Any other tag or text is refused for what it is, and nothing changes. -/
theorem write_of_not_sound (unsound : ¬(Record.leaf tag content).Sound) (before : Database) :
    ∃ cause, (content.write tag).run before = .error cause before ∧ ¬cause.NoRoom := by
  rw [write_eq]
  by_cases fits : tag.kind? = some content.kind
  · rw [requireKind_of_eq fits, pure_bind]
    cases content with
    | string text =>
        have zero : '\x00' ∈ text.toList := Classical.not_not.mp fun clean => unsound ⟨fits, clean⟩
        obtain ⟨index, refusal⟩ := requireNoZero_of_mem zero
        refine ⟨.format (.zeroInText index), ?_, by simp [Error.NoRoom]⟩
        rw [add, refusal]
        rfl
    | null => exact absurd ⟨fits, trivial⟩ unsound
    | scalar => exact absurd ⟨fits, trivial⟩ unsound
    | binary => exact absurd ⟨fits, trivial⟩ unsound
  · refine ⟨.typeMismatch tag content.kind, ?_, by simp [Error.NoRoom]⟩
    rw [requireKind_of_ne fits]
    rfl

end Leaf

namespace Database

open TagTree.Action (Appends)

variable {before : Database} {tag : Tag}

/-! ## Lists -/

theorem appends_listHeader (tag : Tag) :
    Appends (appendTag tag >>= fun _ => appendBytes (List.replicate 4 0))
      (Record.list tag 0).encode :=
  (appends_appendTag tag).seq (appends_appendBytes _)

theorem beginList_eq (fits : tag.kind? = some .list) (before : Database) :
    (beginList tag).run before =
      ((appendTag tag >>= fun _ => appendBytes (List.replicate 4 0)) >>= fun _ => do
        modify fun database =>
          { database with openLists := before.image.size :: database.openLists }
        return before.image.size).run before := by
  rw [beginList, requireKind_of_eq fits, pure_bind, bind_assoc]
  rfl

/-- A new list is open, and its place is the former size. -/
theorem beginList_run (fits : tag.kind? = some .list)
    (room : before.image.HasRoom Image.listHeaderSize) :
    ∃ image, (beginList tag).run before = .ok before.image.size
        { before with image, openLists := before.image.size :: before.openLists } ∧
      image.toList = before.image.toList ++ (Record.list tag 0).encode := by
  obtain ⟨after, ran, image, rfl, added⟩ := (appends_listHeader tag).done before (by
    rw [← Record.size, Record.size_list]
    exact room)
  refine ⟨image, ?_, added⟩
  rw [beginList_eq fits, EStateM.run_bind, ran]
  rfl

theorem beginList_noRoom (fits : tag.kind? = some .list)
    (noRoom : ¬before.image.HasRoom Image.listHeaderSize) :
    ∃ cause after, (beginList tag).run before = .error cause after ∧ cause.NoRoom := by
  obtain ⟨cause, after, failed, isNoRoom⟩ := (appends_listHeader tag).refused before (by
    rw [← Record.size, Record.size_list]
    exact noRoom)
  refine ⟨cause, after, ?_, isNoRoom⟩
  rw [beginList_eq fits, EStateM.run_bind, failed]

theorem beginList_of_ne (other : tag.kind? ≠ some .list) (before : Database) :
    (beginList tag).run before = .error (.typeMismatch tag .list) before := by
  rw [beginList, requireKind_of_ne other]
  rfl

/-- Replacing the length of a list leaves all other bytes as they are. -/
theorem toList_replace_length {image : Image} {front back : List UInt8} {old : Nat} (new : Nat)
    (split : image.toList = front ++ (Record.list tag old).encode ++ back) :
    (image.replace (front.length + Image.tagSize) (LittleEndian.encode 4 new)).toList =
      front ++ (Record.list tag new).encode ++ back := by
  have beforeLength : image.toList =
      (front ++ LittleEndian.encode Image.tagSize tag.raw.toNat) ++
        (LittleEndian.encode 4 old ++ back) := by
    rw [split]
    simp [Record.encode]
  have behindLength : image.toList =
      (front ++ LittleEndian.encode Image.tagSize tag.raw.toNat ++
        LittleEndian.encode 4 old) ++ back := by
    rw [split]
    simp [Record.encode]
  have inside : front.length + Image.tagSize + (LittleEndian.encode 4 new).length ≤ image.size := by
    have total := congrArg List.length behindLength
    simp only [Image.length_toList, List.length_append, LittleEndian.length_encode] at total ⊢
    omega
  have kept : image.toList.take (front.length + Image.tagSize) =
      front ++ LittleEndian.encode Image.tagSize tag.raw.toNat := by
    rw [beforeLength]
    exact List.take_left' (by simp)
  have dropped : image.toList.drop (front.length + Image.tagSize +
      (LittleEndian.encode 4 new).length) = back := by
    rw [behindLength]
    exact List.drop_left' (by simp [Nat.add_assoc])
  rw [Image.toList_replace _ inside, kept, dropped]
  simp [Record.encode]

/-- A list of which tag and length stand inside the image can be closed. -/
theorem endList_of_le {id : Nat} (fits : (before.image.tagAt id).kind? = some .list)
    (inside : id + Image.listHeaderSize ≤ before.image.size) :
    (endList id).run before = .ok () { before with
      image := before.image.replace (id + Image.tagSize)
        (LittleEndian.encode 4 (before.image.size - id - Image.listHeaderSize))
      openLists := before.openLists.erase id } := by
  have patched : id + Image.tagSize + 4 ≤ before.image.size := inside
  simp only [endList, EStateM.run_bind, EStateM.run_get, requireKind_of_eq fits,
    EStateM.run_pure, inside, if_true]
  simp only [EStateM.run, patchNumber, patched, if_true]
  rfl

/-- Where the bytes of a list stand, closing it makes it claim all bytes behind its own. -/
theorem endList_run (before : Database) {front back : List UInt8} {old id : Nat}
    (split : before.image.toList = front ++ (Record.list tag old).encode ++ back)
    (place : front.length = id) (fits : tag.kind? = some .list) :
    ∃ image, (endList id).run before = .ok ()
        { before with image, openLists := before.openLists.erase id } ∧
      image.toList = front ++ (Record.list tag back.length).encode ++ back := by
  subst place
  have holds : before.image.Holds front.length (Record.list tag old).encode :=
    ⟨front, back, split, rfl⟩
  have total : before.image.size = front.length + Image.listHeaderSize + back.length := by
    rw [← Image.length_toList, split, List.length_append, List.length_append, ← Record.size,
      Record.size_list]
  have claimed : before.image.size - front.length - Image.listHeaderSize = back.length := by
    omega
  have inside : front.length + Image.listHeaderSize ≤ before.image.size := by omega
  have isList : (before.image.tagAt front.length).kind? = some .list := by
    rw [holds.tagAt]
    exact fits
  refine ⟨_, ?_, toList_replace_length back.length split⟩
  rw [endList_of_le isList inside, claimed]

/-- What is written between the beginning and the end of a list stands inside it, and no list is
left open by that. -/
theorem list_run {α : Type} (inner : Action Unit) (pool : StringPool) (bytes : List UInt8)
    (next : Nat → Action α) (fits : tag.kind? = some .list)
    (room : before.image.HasRoom Image.listHeaderSize)
    (wrote : ∀ image openLists, image.size = before.image.size + Image.listHeaderSize →
      ∃ filled, inner.run { before with image, openLists } =
          .ok () { before with image := filled, pool, openLists } ∧
        filled.toList = image.toList ++ bytes) :
    ∃ image, (beginList tag >>= fun id => inner >>= fun _ => endList id >>= fun _ =>
        next id).run before = (next before.image.size).run { before with image, pool } ∧
      image.toList = before.image.toList ++ ((Record.list tag bytes.length).encode ++ bytes) := by
  obtain ⟨started, began, addedList⟩ := beginList_run fits room
  have startedSize := Image.size_eq_of_added addedList
  rw [← Record.size, Record.size_list] at startedSize
  obtain ⟨filled, ran, addedInside⟩ :=
    wrote started (before.image.size :: before.openLists) startedSize
  obtain ⟨closed, ended, patched⟩ := endList_run
    { before with image := filled, pool, openLists := before.image.size :: before.openLists }
    (addedInside.trans (congrArg (· ++ _) addedList)) before.image.length_toList fits
  refine ⟨closed, ?_, ?_⟩
  · simp only [EStateM.run_bind, began, ran, ended, List.erase_cons_head]
  · rw [patched, List.append_assoc]

/-! ## The string table -/

/-- The records of a string table: the list itself and an item for each text. -/
def tableRecords (texts : List String) : List Record :=
  let items := texts.map fun text => .leaf .stringTableItem (.string text)
  .list .stringTable (Layout.size items) :: items

theorem kind?_stringTable : Tag.stringTable.kind? = some .list := by
  decide

theorem kind?_stringTableItem : Tag.stringTableItem.kind? = some .string := by
  decide

/-- A sound leaf has no tag of a list. -/
theorem tag_ne_stringTable {content : Leaf} (sound : (Record.leaf tag content).Sound) :
    tag ≠ .stringTable := by
  rintro rfl
  have kind := kind?_stringTable.symm.trans sound.1
  exact content.kind_ne_list (Option.some.inj kind).symm

theorem sound_tableItem {text : String} (clean : '\x00' ∉ text.toList) :
    (Record.leaf .stringTableItem (.string text)).Sound :=
  ⟨kind?_stringTableItem, clean⟩

theorem appends_items {texts : List String} (clean : ∀ text ∈ texts, '\x00' ∉ text.toList) :
    Appends (texts.forM (writeString .stringTableItem))
      (Layout.bytes (texts.map fun text => .leaf .stringTableItem (.string text))) := by
  induction texts with
  | nil => exact .nil
  | cons text rest ih =>
      rw [List.map_cons, Layout.bytes_cons]
      have first : Appends (writeString .stringTableItem text) _ :=
        Leaf.appends_write (sound_tableItem (clean text (List.mem_cons_self ..)))
      exact first.seq (ih fun other member => clean other (List.mem_cons_of_mem _ member))

theorem bytes_tableRecords (texts : List String) :
    Layout.bytes (tableRecords texts) =
      (Record.list .stringTable
        (Layout.bytes (texts.map fun text => .leaf .stringTableItem (.string text))).length).encode ++
      Layout.bytes (texts.map fun text => .leaf .stringTableItem (.string text)) :=
  Layout.bytes_cons _ _

/-- A table with an item for each text is written behind everything else, and then whatever comes
next is done. -/
theorem writeTable_run {α : Type} {texts : List String} (next : Nat → Action α)
    (clean : ∀ text ∈ texts, '\x00' ∉ text.toList)
    (room : before.image.HasRoom (Layout.size (tableRecords texts))) :
    ∃ image, (beginList .stringTable >>= fun table =>
        texts.forM (writeString .stringTableItem) >>= fun _ =>
          endList table >>= fun _ => next table).run before =
        (next before.image.size).run { before with image } ∧
      image.toList = before.image.toList ++ Layout.bytes (tableRecords texts) := by
  rw [Image.hasRoom_iff, tableRecords, Layout.size_cons, Record.size_list] at room
  rw [bytes_tableRecords]
  apply list_run _ _ _ next kind?_stringTable
  · rw [Image.hasRoom_iff]
    omega
  · intro image openLists startedSize
    obtain ⟨_, wrote, filled, rfl, addedItems⟩ :=
      (appends_items clean).done { before with image, openLists } (by
        rw [Image.hasRoom_iff, Layout.length_bytes, startedSize]
        omega)
    exact ⟨filled, wrote, addedItems⟩

theorem writeTable_noRoom {α : Type} {texts : List String} (next : Nat → Action α)
    (clean : ∀ text ∈ texts, '\x00' ∉ text.toList)
    (noRoom : ¬before.image.HasRoom (Layout.size (tableRecords texts))) :
    ∃ cause after, (beginList .stringTable >>= fun table =>
        texts.forM (writeString .stringTableItem) >>= fun _ =>
          endList table >>= fun _ => next table).run before = .error cause after ∧
      cause.NoRoom := by
  rw [Image.hasRoom_iff, tableRecords, Layout.size_cons, Record.size_list] at noRoom
  by_cases room : before.image.HasRoom Image.listHeaderSize
  · obtain ⟨started, began, addedList⟩ :=
      beginList_run kind?_stringTable room
    have startedSize := Image.size_eq_of_added addedList
    rw [← Record.size, Record.size_list] at startedSize
    obtain ⟨cause, after, failed, isNoRoom⟩ := (appends_items clean).refused
      { before with image := started, openLists := before.image.size :: before.openLists } (by
        rw [Image.hasRoom_iff, Layout.length_bytes, startedSize]
        omega)
    refine ⟨cause, after, ?_, isNoRoom⟩
    simp only [EStateM.run_bind, began, failed]
  · obtain ⟨cause, after, failed, isNoRoom⟩ :=
      beginList_noRoom kind?_stringTable room
    refine ⟨cause, after, ?_, isNoRoom⟩
    simp only [EStateM.run_bind, failed]

theorem commitStringTable_eq (someTexts : before.pool.texts ≠ [])
    (noneOpen : before.openLists = []) :
    commitStringTable.run before =
      (beginList .stringTable >>= fun table =>
        before.pool.texts.forM (writeString .stringTableItem) >>= fun _ =>
          endList table >>= fun _ => do
            modify fun database => { database with stringTable := some table }
            return some table).run { before with pool := .empty } := by
  simp [commitStringTable, someTexts, noneOpen]

/-- With no list open, the texts are written as one table at the end. -/
theorem commitStringTable_run (someTexts : before.pool.texts ≠ [])
    (noneOpen : before.openLists = []) (clean : ∀ text ∈ before.pool.texts, '\x00' ∉ text.toList)
    (room : before.image.HasRoom (Layout.size (tableRecords before.pool.texts))) :
    ∃ image, commitStringTable.run before = .ok (some before.image.size)
        { before with image, pool := .empty, stringTable := some before.image.size } ∧
      image.toList = before.image.toList ++ Layout.bytes (tableRecords before.pool.texts) := by
  rw [commitStringTable_eq someTexts noneOpen]
  exact writeTable_run _ clean room

theorem commitStringTable_noRoom (someTexts : before.pool.texts ≠ [])
    (noneOpen : before.openLists = []) (clean : ∀ text ∈ before.pool.texts, '\x00' ∉ text.toList)
    (noRoom : ¬before.image.HasRoom (Layout.size (tableRecords before.pool.texts))) :
    ∃ cause after, commitStringTable.run before = .error cause after ∧ cause.NoRoom := by
  rw [commitStringTable_eq someTexts noneOpen]
  exact writeTable_noRoom _ clean noRoom

theorem commitStringTable_of_nil (noTexts : before.pool.texts = []) :
    commitStringTable.run before = .ok none before := by
  simp [commitStringTable, noTexts]

theorem commitStringTable_of_open {list : Nat} {others : List Nat}
    (someTexts : before.pool.texts ≠ []) (isOpen : before.openLists = list :: others) :
    commitStringTable.run before = .error (.format (.listOpen list)) before := by
  simp [commitStringTable, someTexts, isOpen]

end Database

end TagTree
