import TagTree.Proofs.Pool

/-!
# Forests

A forest is what a database holds, as a tree of any width and depth. It is written depth first, each
list around its children. The records that this leaves behind depend on the places of interned texts
only, and these are the places in the table that is written at the end.
-/

namespace TagTree

open Layout

/-- Nodes one behind the other. Each constructor but the first puts one before the rest. -/
inductive Forest where
  | nil
  | leaf (tag : Tag) (content : Leaf) (rest : Forest)
  | interned (tag : Tag) (text : String) (rest : Forest)
  | list (tag : Tag) (children rest : Forest)
  deriving DecidableEq, Repr

namespace Forest

/-- Write all nodes depth first. -/
def write : Forest → Action Unit
  | nil => pure ()
  | leaf tag content rest => do
      content.write tag
      rest.write
  | interned tag text rest => do
      Database.writeInterned tag text
      rest.write
  | list tag children rest => do
      let id ← Database.beginList tag
      children.write
      Database.endList id
      rest.write

/-- Every tag is of the kind of its node, and no text is cut short by a zero. -/
def Sound : Forest → Prop
  | nil => True
  | leaf tag content rest => (Record.leaf tag content).Sound ∧ rest.Sound
  | interned tag text rest =>
      (tag.kind? = some .stringRef ∧ '\x00' ∉ text.toList) ∧ rest.Sound
  | list tag children rest => tag.kind? = some .list ∧ children.Sound ∧ rest.Sound

/-- The texts to be interned, in order and with repetition. -/
def texts : Forest → List String
  | nil => []
  | leaf _ _ rest => rest.texts
  | interned _ text rest => text :: rest.texts
  | list _ children rest => children.texts ++ rest.texts

/-- The number of bytes. -/
def size : Forest → Nat
  | nil => 0
  | leaf tag content rest => (Record.leaf tag content).size + rest.size
  | interned _ _ rest => Image.tagSize + Scalar.stringRef.width + rest.size
  | list _ children rest => Image.listHeaderSize + children.size + rest.size

/-- The nodes of two forests one behind the other. -/
def append : Forest → Forest → Forest
  | nil, behind => behind
  | leaf tag content rest, behind => leaf tag content (rest.append behind)
  | interned tag text rest, behind => interned tag text (rest.append behind)
  | list tag children rest, behind => list tag children (rest.append behind)

/-- The records of all nodes where certain texts make up the table. -/
def records (table : List String) : Forest → List Record
  | nil => []
  | leaf tag content rest => .leaf tag content :: rest.records table
  | interned tag text rest => Database.reference tag table text :: rest.records table
  | list tag children rest =>
      .list tag children.size :: (children.records table ++ rest.records table)

variable {forest : Forest} {table : List String}

theorem size_reference (tag : Tag) (table : List String) (text : String) :
    (Database.reference tag table text).size = Image.tagSize + Scalar.stringRef.width := by
  simp [Database.reference, Record.size, Record.encode, Leaf.encode]

@[simp] theorem size_records (table : List String) (forest : Forest) :
    Layout.size (forest.records table) = forest.size := by
  induction forest with
  | nil => rfl
  | leaf tag content rest ih => rw [records, size_cons, ih, size]
  | interned tag text rest ih =>
      rw [records, size_cons, ih, size_reference, size]
  | list tag children rest ihChildren ihRest =>
      rw [records, size_cons, size_append, ihChildren, ihRest, Record.size_list, size,
        Nat.add_assoc]

theorem sound_records (sound : forest.Sound) : ∀ record ∈ forest.records table, record.Sound := by
  induction forest with
  | nil =>
      intro record member
      cases member
  | leaf tag content rest ih =>
      intro record member
      rcases List.mem_cons.mp member with rfl | later
      · exact sound.1
      · exact ih sound.2 record later
  | interned tag text rest ih =>
      intro record member
      rcases List.mem_cons.mp member with rfl | later
      · exact ⟨sound.1.1, trivial⟩
      · exact ih sound.2 record later
  | list tag children rest ihChildren ihRest =>
      intro record member
      rcases List.mem_cons.mp member with rfl | below
      · exact sound.1
      · rcases List.mem_append.mp below with inside | later
        · exact ihChildren sound.2.1 record inside
        · exact ihRest sound.2.2 record later

/-- Every list of a forest ends where another node begins or at the end. -/
theorem aligned_records (start : Nat) (table : List String) (forest : Forest) :
    Aligned start (forest.records table) := by
  induction forest generalizing start with
  | nil => exact aligned_nil start
  | leaf tag content rest ih =>
      rw [records, ← List.singleton_append]
      exact (aligned_singleton start rfl).append (ih _)
  | interned tag text rest ih =>
      rw [records, ← List.singleton_append]
      exact (aligned_singleton start rfl).append (ih _)
  | list tag children rest ihChildren ihRest =>
      rw [records, ← List.cons_append, ← size_records table children]
      exact ((ihChildren _).list tag).append (ihRest _)

/-! ## The table -/

/-- Texts with others behind them that are not there yet. -/
def addTexts (texts more : List String) : List String :=
  more.foldl addText texts

theorem prefix_addText (texts : List String) (text : String) : texts <+: addText texts text := by
  rw [addText]
  split
  · exact List.prefix_refl texts
  · exact List.prefix_append texts [text]

theorem prefix_addTexts (texts more : List String) : texts <+: addTexts texts more := by
  induction more generalizing texts with
  | nil => exact List.prefix_refl texts
  | cons text rest ih => exact (prefix_addText texts text).trans (ih _)

theorem addTexts_eraseDups (front more : List String) :
    addTexts front.eraseDups more = (front ++ more).eraseDups := by
  induction more generalizing front with
  | nil => rw [List.append_nil, addTexts, List.foldl_nil]
  | cons text rest ih =>
      have step := ih (front ++ [text])
      rw [eraseDups_concat, List.append_assoc] at step
      exact step

/-- A place among some texts stays when more are put behind them. -/
theorem placeOf_of_isPrefix {texts more : List String} {text : String} (member : text ∈ texts)
    (isPrefix : texts <+: more) : placeOf more text = placeOf texts text := by
  obtain ⟨behind, rfl⟩ := isPrefix
  exact placeOf_append_of_mem member behind

theorem behind_le_of_isPrefix {texts more : List String} (offset : Nat)
    (isPrefix : texts <+: more) :
    StringPool.behind offset texts ≤ StringPool.behind offset more := by
  obtain ⟨behind, rfl⟩ := isPrefix
  rw [behind_eq, behind_eq, List.map_append, size_append]
  omega

/-- The items of a table. -/
def items : List String → Forest
  | [] => nil
  | text :: rest => leaf .stringTableItem (.string text) (items rest)

/-- The table of some texts. Without texts there is none. -/
def tableOf (texts : List String) : Forest :=
  if texts = [] then nil else list .stringTable (items texts) nil

@[simp] theorem records_items (table texts : List String) :
    (items texts).records table = texts.map tableItem := by
  induction texts with
  | nil => rfl
  | cons text rest ih => rw [items, records, ih, List.map_cons, tableItem]

theorem records_tableOf (table : List String) {texts : List String} (someTexts : texts ≠ []) :
    (tableOf texts).records table = Database.tableRecords texts := by
  rw [tableOf, if_neg someTexts, records, records_items, records, List.append_nil, tableRecords_eq,
    ← size_records table, records_items]

@[simp] theorem records_append (table : List String) (front behind : Forest) :
    (front.append behind).records table = front.records table ++ behind.records table := by
  induction front with
  | nil => rfl
  | leaf tag content rest ih => rw [append, records, ih, records, List.cons_append]
  | interned tag text rest ih => rw [append, records, ih, records, List.cons_append]
  | list tag children rest _ ih =>
      rw [append, records, ih, records, List.cons_append, List.append_assoc]

theorem size_append (front behind : Forest) :
    (front.append behind).size = front.size + behind.size := by
  induction front with
  | nil => exact (Nat.zero_add _).symm
  | leaf tag content rest ih => rw [append, size, ih, size, ← Nat.add_assoc]
  | interned tag text rest ih => rw [append, size, ih, size, ← Nat.add_assoc]
  | list tag children rest _ ih => rw [append, size, ih, size, ← Nat.add_assoc]

theorem sound_items {texts : List String} (clean : ∀ text ∈ texts, '\x00' ∉ text.toList) :
    (items texts).Sound := by
  induction texts with
  | nil => trivial
  | cons text rest ih =>
      obtain ⟨cleanFirst, cleanRest⟩ := List.forall_mem_cons.mp clean
      exact ⟨Database.sound_tableItem cleanFirst, ih cleanRest⟩

theorem sound_tableOf {texts : List String} (clean : ∀ text ∈ texts, '\x00' ∉ text.toList) :
    (tableOf texts).Sound := by
  rw [tableOf]
  split
  · trivial
  · exact ⟨Database.kind?_stringTable, sound_items clean, trivial⟩

theorem sound_append {front behind : Forest} (sound : front.Sound) (soundBehind : behind.Sound) :
    (front.append behind).Sound := by
  induction front with
  | nil => exact soundBehind
  | leaf tag content rest ih => exact ⟨sound.1, ih sound.2⟩
  | interned tag text rest ih => exact ⟨sound.1, ih sound.2⟩
  | list tag children rest _ ih => exact ⟨sound.1, sound.2.1, ih sound.2.2⟩

theorem texts_append (front behind : Forest) :
    (front.append behind).texts = front.texts ++ behind.texts := by
  induction front with
  | nil => rfl
  | leaf tag content rest ih => exact ih
  | interned tag text rest ih => rw [append, texts, ih, texts, List.cons_append]
  | list tag children rest _ ih => rw [append, texts, ih, texts, List.append_assoc]

theorem texts_items (texts : List String) : (items texts).texts = [] := by
  induction texts with
  | nil => rfl
  | cons text rest ih => exact ih

/-- Nothing is interned in a table. -/
theorem texts_tableOf (texts : List String) : (tableOf texts).texts = [] := by
  rw [tableOf]
  split
  · rfl
  · rw [Forest.texts, texts_items]
    rfl

/-- The texts of a sound forest can be got back from their bytes. -/
theorem clean_texts (sound : forest.Sound) : ∀ text ∈ forest.texts, '\x00' ∉ text.toList := by
  induction forest with
  | nil =>
      intro text member
      cases member
  | leaf tag content rest ih => exact ih sound.2
  | interned tag text rest ih => exact List.forall_mem_cons.mpr ⟨sound.1.2, ih sound.2⟩
  | list tag children rest ihChildren ihRest =>
      exact List.forall_mem_append.mpr ⟨ihChildren sound.2.1, ihRest sound.2.2⟩

/-- The forest with the table of its texts behind it, each text once. -/
def withTable (forest : Forest) : Forest :=
  forest.append (tableOf forest.texts.eraseDups)

theorem texts_withTable (forest : Forest) : forest.withTable.texts = forest.texts := by
  rw [withTable, texts_append, texts_tableOf, List.append_nil]

theorem sound_withTable (sound : forest.Sound) : forest.withTable.Sound := by
  apply sound_append sound
  apply sound_tableOf
  intro text member
  exact clean_texts sound text (List.mem_eraseDups.mp member)

/-! ## Writing -/

/-- Writing a forest adds its records. Its texts go to the pool, and references are to their places
in any table that begins with the texts of the pool. -/
theorem write_run (before : Database) (table : List String) (sound : forest.Sound)
    (noTable : before.stringTable = none)
    (room : before.image.HasRoom forest.size)
    (pooled : StringPool.behind Image.listHeaderSize (addTexts before.pool.texts forest.texts) <
      sizeLimit)
    (isPrefix : addTexts before.pool.texts forest.texts <+: table) :
    ∃ image, forest.write.run before = .ok ()
        { before with image, pool := ⟨addTexts before.pool.texts forest.texts⟩ } ∧
      image.toList = before.image.toList ++ Layout.bytes (forest.records table) := by
  induction forest generalizing before with
  | nil => exact ⟨before.image, rfl, (List.append_nil _).symm⟩
  | leaf tag content rest ih =>
      rw [Image.hasRoom_iff, size] at room
      obtain ⟨_, ran, middle, rfl, added⟩ := (Leaf.appends_write sound.1).done before (by
        rw [Image.hasRoom_iff, ← Record.size]
        omega)
      have middleSize := Image.size_eq_of_added added
      rw [← Record.size] at middleSize
      have roomRest : middle.HasRoom rest.size := by
        rw [Image.hasRoom_iff]
        omega
      obtain ⟨image, ranRest, addedRest⟩ := ih { before with image := middle }
        sound.2 noTable roomRest pooled isPrefix
      refine ⟨image, ?_, ?_⟩
      · rw [write, EStateM.run_bind, ran]
        exact ranRest
      · rw [addedRest, added, records, bytes_cons, List.append_assoc]
  | interned tag text rest ih =>
      rw [Image.hasRoom_iff, size] at room
      obtain ⟨⟨kind, clean⟩, soundRest⟩ := sound
      have beforeRest : addText before.pool.texts text <+:
          addTexts before.pool.texts (text :: rest.texts) := prefix_addTexts _ _
      have fits : text ∈ before.pool.texts ∨
          StringPool.behind Image.listHeaderSize (before.pool.texts ++ [text]) < sizeLimit := by
        by_cases member : text ∈ before.pool.texts
        · exact .inl member
        · right
          have within := behind_le_of_isPrefix Image.listHeaderSize beforeRest
          rw [addText, if_neg member] at within
          exact Nat.lt_of_le_of_lt within pooled
      have samePlace : placeOf table text = placeOf before.pool.texts text := by
        rw [placeOf_of_isPrefix (mem_addText.mpr (.inr rfl)) (beforeRest.trans isPrefix),
          placeOf_addText]
      have sameRecord : Database.reference tag before.pool.texts text =
          Database.reference tag table text := by
        rw [Database.reference, Database.reference, samePlace]
      obtain ⟨middle, ran, added⟩ := Database.writeInterned_run kind noTable clean fits (by
        rw [Image.hasRoom_iff, size_reference]
        omega)
      have middleSize := Image.size_eq_of_added added
      rw [← Record.size, size_reference] at middleSize
      have roomRest : middle.HasRoom rest.size := by
        rw [Image.hasRoom_iff]
        omega
      obtain ⟨image, ranRest, addedRest⟩ := ih
        { before with image := middle, pool := ⟨addText before.pool.texts text⟩ }
        soundRest noTable roomRest pooled isPrefix
      refine ⟨image, ?_, ?_⟩
      · rw [write, EStateM.run_bind, ran]
        exact ranRest
      · rw [addedRest, added, sameRecord, records, bytes_cons, List.append_assoc]
  | list tag children rest ihChildren ihRest =>
      rw [Image.hasRoom_iff, size] at room
      obtain ⟨kind, soundChildren, soundRest⟩ := sound
      rw [texts, addTexts, List.foldl_append] at pooled isPrefix
      have roomList : before.image.HasRoom Image.listHeaderSize := by
        rw [Image.hasRoom_iff]
        omega
      have childrenPrefix := prefix_addTexts (addTexts before.pool.texts children.texts) rest.texts
      have pooledChildren := Nat.lt_of_le_of_lt
        (behind_le_of_isPrefix Image.listHeaderSize childrenPrefix) pooled
      obtain ⟨middle, ran, added⟩ := Database.list_run children.write
        ⟨addTexts before.pool.texts children.texts⟩ (Layout.bytes (children.records table))
        (fun _ => rest.write) kind roomList
        fun image openLists startedSize => by
          have roomChildren : image.HasRoom children.size := by
            rw [Image.hasRoom_iff]
            omega
          exact ihChildren { before with image, openLists } soundChildren noTable
            roomChildren pooledChildren (childrenPrefix.trans isPrefix)
      have middleSize := Image.size_eq_of_added added
      rw [List.length_append, ← Record.size, Record.size_list, length_bytes,
        size_records] at middleSize
      have roomRest : middle.HasRoom rest.size := by
        rw [Image.hasRoom_iff]
        omega
      obtain ⟨image, ranRest, addedRest⟩ := ihRest
        { before with image := middle, pool := ⟨addTexts before.pool.texts children.texts⟩ }
        soundRest noTable roomRest pooled isPrefix
      refine ⟨image, ?_, ?_⟩
      · rw [texts, addTexts, List.foldl_append]
        exact ran.trans ranRest
      · rw [addedRest, added, records, bytes_cons, bytes_append, length_bytes, size_records]
        simp only [List.append_assoc]

end Forest

end TagTree
