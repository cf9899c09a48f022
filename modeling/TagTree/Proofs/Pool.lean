import TagTree.Proofs.Writing

/-!
# Places of pooled texts

The place that a text gets in the pool is the place that its item will have in the table, counted
from the beginning of the table. It is known before the table is written and never changes while
texts are added.
-/

namespace TagTree

/-- Texts with one more, which is left out if it is there. -/
def addText (texts : List String) (text : String) : List String :=
  if text ∈ texts then texts else texts ++ [text]

/-- The place of a text among the items of a table, counted from the beginning of the table. -/
def placeOf (texts : List String) (text : String) : Nat :=
  StringPool.behind Image.listHeaderSize (texts.takeWhile (· ≠ text))

theorem mem_addText {texts : List String} {text other : String} :
    other ∈ addText texts text ↔ other ∈ texts ∨ other = text := by
  rw [addText]
  split
  · next member =>
      constructor
      · exact .inl
      · rintro (inTexts | rfl)
        · exact inTexts
        · exact member
  · rw [List.mem_append, List.mem_singleton]

/-- Leaving out repetitions can be done text by text. -/
theorem eraseDups_concat (texts : List String) (text : String) :
    (texts ++ [text]).eraseDups = addText texts.eraseDups text := by
  rw [List.eraseDups_append, List.cons_removeAll, addText]
  by_cases member : text ∈ texts
  · rw [if_pos (List.mem_eraseDups.mpr member)]
    simp [member, List.removeAll]
  · rw [if_neg (mt List.mem_eraseDups.mp member)]
    simp [member, List.removeAll, List.eraseDups_cons]

theorem takeWhile_ne_of_notMem {texts : List String} {text : String} (fresh : text ∉ texts) :
    texts.takeWhile (· ≠ text) = texts := by
  have all : ∀ other ∈ texts, decide (other ≠ text) = true := by
    intro other member
    rw [decide_eq_true_iff]
    rintro rfl
    exact fresh member
  have whole : (texts ++ []).takeWhile (· ≠ text) = texts ++ [].takeWhile (· ≠ text) :=
    List.takeWhile_append_of_pos all
  rwa [List.append_nil, List.takeWhile_nil, List.append_nil] at whole

theorem takeWhile_append_of_mem {texts : List String} {text : String} (member : text ∈ texts)
    (more : List String) :
    (texts ++ more).takeWhile (· ≠ text) = texts.takeWhile (· ≠ text) := by
  induction texts with
  | nil => cases member
  | cons first rest ih =>
      rw [List.cons_append, List.takeWhile_cons, List.takeWhile_cons]
      by_cases same : first = text
      · simp [same]
      · rcases List.mem_cons.mp member with equal | later
        · exact absurd equal.symm same
        · rw [ih later]

/-- Further texts do not move the place of a text. -/
theorem placeOf_append_of_mem {texts : List String} {text : String} (member : text ∈ texts)
    (more : List String) : placeOf (texts ++ more) text = placeOf texts text := by
  rw [placeOf, takeWhile_append_of_mem member, placeOf]

theorem placeOf_of_notMem {texts : List String} {text : String} (fresh : text ∉ texts) :
    placeOf texts text = StringPool.behind Image.listHeaderSize texts := by
  rw [placeOf, takeWhile_ne_of_notMem fresh]

theorem placeOf_addText (texts : List String) (text : String) :
    placeOf (addText texts text) text = placeOf texts text := by
  rw [addText]
  split
  · rfl
  · next fresh =>
      rw [placeOf, List.takeWhile_append_of_pos, placeOf, takeWhile_ne_of_notMem fresh]
      · simp
      · intro other member
        rw [decide_eq_true_iff]
        rintro rfl
        exact fresh member

theorem placeOf_addText_of_mem {texts : List String} {text : String} (member : text ∈ texts)
    (other : String) : placeOf (addText texts other) text = placeOf texts text := by
  rw [addText]
  split
  · rfl
  · exact placeOf_append_of_mem member [other]

/-! ## The pool and the table -/

/-- The item of a text in a string table. -/
def tableItem (text : String) : Record :=
  .leaf .stringTableItem (.string text)

theorem recordSize_eq (text : String) : StringPool.recordSize text = (tableItem text).size := by
  simp only [StringPool.recordSize, tableItem, Record.size, Record.encode, Leaf.encode,
    List.length_append, LittleEndian.length_encode, Image.listHeaderSize, Image.tagSize]
  omega

/-- Going behind some texts is going over the bytes of their items. -/
theorem behind_eq (offset : Nat) (texts : List String) :
    StringPool.behind offset texts = offset + Layout.size (texts.map tableItem) := by
  induction texts generalizing offset with
  | nil => rfl
  | cons text rest ih =>
      have step := ih (offset + StringPool.recordSize text)
      rw [List.map_cons, Layout.size_cons, ← recordSize_eq, ← Nat.add_assoc]
      exact step

/-- A text's item stands in the table at the place of the text. -/
theorem mem_placed_tableItems {texts : List String} {text : String} (member : text ∈ texts)
    (table : Nat) :
    (table + placeOf texts text, tableItem text) ∈
      Layout.placed (table + Image.listHeaderSize) (texts.map tableItem) := by
  rw [placeOf, behind_eq, ← Nat.add_assoc]
  generalize table + Image.listHeaderSize = start
  induction texts generalizing start with
  | nil => cases member
  | cons first rest ih =>
      rw [List.map_cons, Layout.placed, List.takeWhile_cons]
      by_cases same : first = text
      · subst same
        simp
      · rcases List.mem_cons.mp member with equal | later
        · exact absurd equal.symm same
        · rw [decide_eq_true same, if_pos rfl, List.map_cons, Layout.size_cons, ← Nat.add_assoc]
          exact List.mem_cons_of_mem _ (ih later _)

theorem tableRecords_eq (texts : List String) :
    Database.tableRecords texts =
      .list .stringTable (Layout.size (texts.map tableItem)) :: texts.map tableItem :=
  rfl

theorem mem_placed_tableRecords {texts : List String} {text : String} (member : text ∈ texts)
    (table : Nat) :
    (table + placeOf texts text, tableItem text) ∈
      Layout.placed table (Database.tableRecords texts) := by
  rw [tableRecords_eq, Layout.placed, Record.size_list]
  exact List.mem_cons_of_mem _ (mem_placed_tableItems member table)

theorem size_tableRecords (texts : List String) :
    Layout.size (Database.tableRecords texts) =
      StringPool.behind Image.listHeaderSize texts := by
  rw [tableRecords_eq, Layout.size_cons, Record.size_list, behind_eq]

namespace StringPool

/-- A pool takes in a text that it has or that a 32-bit number can still point behind. -/
abbrev Accepts (pool : StringPool) (text : String) : Prop :=
  text ∈ pool.texts ∨ behind Image.listHeaderSize (pool.texts ++ [text]) < sizeLimit

theorem intern_eq (pool : StringPool) (text : String) (accepted : pool.Accepts text) :
    pool.intern text = .ok (⟨addText pool.texts text⟩, placeOf pool.texts text) := by
  rw [intern, offsetOf?, addText]
  by_cases member : text ∈ pool.texts
  · rw [if_pos member, if_pos member]
    rfl
  · have fits : pool.nextOffset + recordSize text < sizeLimit := by
      have behindAll := accepted.resolve_left member
      rwa [behind, List.foldl_append] at behindAll
    rw [if_neg member, if_neg member, placeOf_of_notMem member]
    exact if_pos fits

/-- Any other text is refused for want of room. -/
theorem intern_noRoom {pool : StringPool} {text : String} (refused : ¬pool.Accepts text) :
    ∃ cause, pool.intern text = .error cause ∧ cause.NoRoom := by
  obtain ⟨fresh, noRoom⟩ := not_or.mp refused
  have outside : ¬pool.nextOffset + recordSize text < sizeLimit := by
    rwa [behind, List.foldl_append] at noRoom
  rw [intern, offsetOf?, if_neg fresh]
  exact ⟨_, if_neg outside, _, _, _, rfl⟩

end StringPool

namespace Database

variable {before : Database} {tag : Tag} {text : String}

/-- The record that a text leaves behind where texts already wait for a table. -/
def reference (tag : Tag) (texts : List String) (text : String) : Record :=
  .leaf tag (.scalar .stringRef (.ofNat _ (placeOf texts text)))

theorem writeInterned_eq (fits : tag.kind? = some .stringRef) (noTable : before.stringTable = none)
    (clean : '\x00' ∉ text.toList) :
    (writeInterned tag text).run before =
      match before.pool.intern text with
      | .error cause => .error cause before
      | .ok (pool, offset) =>
          ((Leaf.scalar .stringRef (.ofNat _ offset)).write tag).run { before with pool } := by
  cases before with
  | mk image file header table pool openLists =>
      change table = none at noTable
      subst noTable
      rw [writeInterned, requireKind_of_eq fits, requireNoZero_of_notMem clean]
      simp only [pure_bind, EStateM.run_bind, EStateM.run_get, Option.isSome_none,
        Bool.false_eq_true, if_false]
      cases pool.intern text <;> rfl

/-- A text goes to the pool and a reference to its place in the table into the image. -/
theorem writeInterned_run (fits : tag.kind? = some .stringRef)
    (noTable : before.stringTable = none) (clean : '\x00' ∉ text.toList)
    (accepted : before.pool.Accepts text)
    (room : before.image.HasRoom (reference tag before.pool.texts text).size) :
    ∃ image, (writeInterned tag text).run before =
        .ok () { before with image, pool := ⟨addText before.pool.texts text⟩ } ∧
      image.toList =
        before.image.toList ++ (reference tag before.pool.texts text).encode := by
  rw [writeInterned_eq fits noTable clean, StringPool.intern_eq _ _ accepted]
  have sound : (reference tag before.pool.texts text).Sound := ⟨fits, trivial⟩
  obtain ⟨_, ran, image, rfl, added⟩ := (Leaf.appends_write sound).done
    { before with pool := ⟨addText before.pool.texts text⟩ } room
  exact ⟨image, ran, added⟩

theorem writeInterned_noRoom (fits : tag.kind? = some .stringRef)
    (noTable : before.stringTable = none) (clean : '\x00' ∉ text.toList)
    (noRoom : ¬(before.pool.Accepts text ∧
      before.image.HasRoom (reference tag before.pool.texts text).size)) :
    ∃ cause after, (writeInterned tag text).run before = .error cause after ∧ cause.NoRoom := by
  rw [writeInterned_eq fits noTable clean]
  by_cases accepted : before.pool.Accepts text
  · rw [StringPool.intern_eq _ _ accepted]
    have sound : (reference tag before.pool.texts text).Sound := ⟨fits, trivial⟩
    exact (Leaf.appends_write sound).refused
      { before with pool := ⟨addText before.pool.texts text⟩ } fun room => noRoom ⟨accepted, room⟩
  · obtain ⟨cause, refused, isNoRoom⟩ := StringPool.intern_noRoom accepted
    rw [refused]
    exact ⟨cause, before, rfl, isNoRoom⟩

/-- Any other tag or text, and any text once there is a table, is refused for what it is. -/
theorem writeInterned_refused (unfit : ¬(tag.kind? = some .stringRef ∧
      before.stringTable = none ∧ '\x00' ∉ text.toList)) :
    ∃ cause, (writeInterned tag text).run before = .error cause before ∧ ¬cause.NoRoom := by
  by_cases fits : tag.kind? = some .stringRef
  · cases table : before.stringTable with
    | some place =>
        refine ⟨.format .tableExists, ?_, by simp [Error.NoRoom]⟩
        simp [writeInterned, requireKind_of_eq fits, table]
    | none =>
        have zero : '\x00' ∈ text.toList :=
          Classical.not_not.mp fun clean => unfit ⟨fits, table, clean⟩
        obtain ⟨index, refusal⟩ := requireNoZero_of_mem zero
        refine ⟨.format (.zeroInText index), ?_, by simp [Error.NoRoom]⟩
        simp [writeInterned, requireKind_of_eq fits, table, refusal]
  · refine ⟨.typeMismatch tag .stringRef, ?_, by simp [Error.NoRoom]⟩
    rw [writeInterned, requireKind_of_ne fits]
    rfl

variable {id table : Nat} {texts : List String}

/-- The place of an item of a table can be written down in a reference. -/
theorem toNat_place {place : Nat} {bytes : List UInt8}
    (item : before.image.Holds (table + place) bytes) :
    (BitVec.ofNat (8 * Scalar.stringRef.width) place).toNat = place := by
  have inside : _ < 2 ^ 32 := item.end_lt
  have small : place < 2 ^ (8 * Scalar.stringRef.width) := by
    rw [Scalar.width]
    omega
  rw [BitVec.toNat_ofNat, Nat.mod_eq_of_lt small]

/-- A reference to the place of a text leads to the text once the table has its item there. -/
theorem string?_reference (holds : before.image.Holds id (reference tag texts text).encode)
    (sound : (reference tag texts text).Sound) (hasTable : before.stringTable = some table)
    (clean : '\x00' ∉ text.toList)
    (item : before.image.Holds (table + placeOf texts text) (tableItem text).encode) :
    before.string? id = some text := by
  apply string?_stringRef holds sound hasTable clean
  rw [toNat_place item]
  exact item

end Database

end TagTree
