import TagTree.Proofs.Forest
import TagTree.Proofs.Loading

/-!
# Forests written to files and read again

A forest is written into a new file, closed with its string table, and opened again. Going over the
children from the root on then gives the same nodes in the same order, with the table behind them.
-/

namespace TagTree

open Layout

namespace Forest

/-- Going over certain places, and over the children of each list, gives a forest. -/
inductive ReadAlong (database : Database) : Forest → List Nat → Prop where
  | nil : ReadAlong database .nil []
  | leaf {tag : Tag} {content : Leaf} {rest : Forest} {id : Nat} {behind : List Nat}
      (tagAt : database.image.tagAt id = tag) (found : content.FoundAt database id)
      (childless : database.image.children id = []) (others : ReadAlong database rest behind) :
      ReadAlong database (.leaf tag content rest) (id :: behind)
  | interned {tag : Tag} {text : String} {rest : Forest} {id : Nat} {behind : List Nat}
      (tagAt : database.image.tagAt id = tag) (found : database.string? id = some text)
      (childless : database.image.children id = []) (others : ReadAlong database rest behind) :
      ReadAlong database (.interned tag text rest) (id :: behind)
  | list {tag : Tag} {children rest : Forest} {id : Nat} {behind : List Nat}
      (tagAt : database.image.tagAt id = tag)
      (inside : ReadAlong database children (database.image.children id))
      (others : ReadAlong database rest behind) :
      ReadAlong database (.list tag children rest) (id :: behind)

/-- No list at the top is tagged as a string table. -/
def NoTableAtTop : Forest → Prop
  | nil => True
  | leaf _ _ rest => rest.NoTableAtTop
  | interned _ _ rest => rest.NoTableAtTop
  | list tag _ rest => tag ≠ .stringTable ∧ rest.NoTableAtTop

/-- The places of the nodes at the top, of which the first is given. -/
def tops (start : Nat) : Forest → List Nat
  | nil => []
  | leaf tag content rest => start :: rest.tops (start + (Record.leaf tag content).size)
  | interned _ _ rest => start :: rest.tops (start + (Image.tagSize + Scalar.stringRef.width))
  | list _ children rest => start :: rest.tops (start + (Image.listHeaderSize + children.size))

/-! ## Reading -/

/-- The records of a forest stand in an image from a place on. -/
def StandsAt (forest : Forest) (table : List String) (start : Nat) (records : List Record) : Prop :=
  ∀ entry ∈ placed start (forest.records table), entry ∈ placed Header.size records

section Reading

variable {forest children rest : Forest} {table : List String} {start : Nat}
  {records : List Record} {tag : Tag} {content : Leaf} {text : String} {image : Image}
  {database : Database}

theorem StandsAt.leaf (stands : (Forest.leaf tag content rest).StandsAt table start records) :
    (start, .leaf tag content) ∈ placed Header.size records ∧
      rest.StandsAt table (start + (Record.leaf tag content).size) records :=
  List.forall_mem_cons.mp stands

theorem StandsAt.interned (stands : (Forest.interned tag text rest).StandsAt table start records) :
    (start, Database.reference tag table text) ∈ placed Header.size records ∧
      rest.StandsAt table (start + (Image.tagSize + Scalar.stringRef.width)) records := by
  rw [← size_reference tag table text]
  exact List.forall_mem_cons.mp stands

theorem StandsAt.list (stands : (Forest.list tag children rest).StandsAt table start records) :
    (start, .list tag children.size) ∈ placed Header.size records ∧
      children.StandsAt table (start + Image.listHeaderSize) records ∧
        rest.StandsAt table (start + (Image.listHeaderSize + children.size)) records := by
  rw [StandsAt, Forest.records, placed, Record.size_list, placed_append, size_records] at stands
  obtain ⟨first, below⟩ := List.forall_mem_cons.mp stands
  obtain ⟨inside, behind⟩ := List.forall_mem_append.mp below
  rw [Nat.add_assoc] at behind
  exact ⟨first, inside, behind⟩

/-- The nodes at the top tile the stretch of a forest. -/
theorem tiles_tops (written : image.Written records)
    (stands : forest.StandsAt table start records) :
    image.Tiles start (forest.tops start) (start + forest.size) := by
  induction forest generalizing start with
  | nil => exact .nil start
  | leaf tag content rest ih =>
      obtain ⟨member, behind⟩ := stands.leaf
      have tiles := ih behind
      rw [Nat.add_assoc] at tiles
      exact written.tiles_cons member tiles
  | interned tag text rest ih =>
      obtain ⟨member, behind⟩ := stands.interned
      have tiles := ih behind
      rw [Nat.add_assoc, ← size_reference tag table text] at tiles
      exact written.tiles_cons member tiles
  | list tag children rest _ ih =>
      obtain ⟨member, -, behind⟩ := stands.list
      have tiles := ih behind
      rw [Nat.add_assoc] at tiles
      apply written.tiles_cons member
      rw [Record.extent, Nat.add_comm children.size]
      exact tiles

/-- The children of a list are the nodes inside it. -/
theorem children_list (written : image.Written records)
    (stands : (Forest.list tag children rest).StandsAt table start records) :
    image.children start = children.tops (start + Image.listHeaderSize) := by
  obtain ⟨member, inside, -⟩ := stands.list
  have size : image.sizeOf start = Image.listHeaderSize + children.size :=
    (written.sizeOf member).trans (Nat.add_comm _ _)
  have tiles := tiles_tops written inside
  rw [Nat.add_assoc, ← size] at tiles
  exact written.children_eq member tiles

theorem children_leaf (written : image.Written records)
    (member : (start, .leaf tag content) ∈ placed Header.size records) :
    image.children start = [] :=
  Image.children_of_kind_ne (written.kindAt? member) content.kind_ne_list
    (Image.Written.ne_root_of_mem_placed member)

/-- Going over the nodes at the top gives the forest, if references lead to their texts. -/
theorem readAlong_tops (written : database.image.Written records)
    (stands : forest.StandsAt table start records)
    (resolved : ∀ id tag, ∀ text ∈ forest.texts,
      (id, Database.reference tag table text) ∈ placed Header.size records →
        database.string? id = some text) :
    forest.ReadAlong database (forest.tops start) := by
  induction forest generalizing start with
  | nil => exact .nil
  | leaf tag content rest ih =>
      obtain ⟨member, behind⟩ := stands.leaf
      apply ReadAlong.leaf
      · exact written.tagAt member
      · exact Database.foundAt_of_holds (written.laidOut.holds member)
          (written.sound_of_placed member)
      · exact children_leaf written member
      · exact ih behind resolved
  | interned tag text rest ih =>
      obtain ⟨member, behind⟩ := stands.interned
      apply ReadAlong.interned
      · exact written.tagAt member
      · exact resolved start tag text (List.mem_cons_self ..) member
      · exact children_leaf written member
      · exact ih behind fun id tag text waits =>
          resolved id tag text (List.mem_cons_of_mem _ waits)
  | list tag children rest ihChildren ihRest =>
      obtain ⟨member, inside, behind⟩ := stands.list
      apply ReadAlong.list
      · exact written.tagAt member
      · rw [children_list written stands]
        exact ihChildren inside fun id tag text waits =>
          resolved id tag text (List.mem_append_left _ waits)
      · exact ihRest behind fun id tag text waits =>
          resolved id tag text (List.mem_append_right _ waits)

theorem tops_append (start : Nat) (front behind : Forest) :
    (front.append behind).tops start = front.tops start ++ behind.tops (start + front.size) := by
  induction front generalizing start with
  | nil => rfl
  | leaf tag content rest ih => rw [append, tops, ih, tops, size, Nat.add_assoc, List.cons_append]
  | interned tag text rest ih => rw [append, tops, ih, tops, size, Nat.add_assoc, List.cons_append]
  | list tag children rest _ ih =>
      rw [append, tops, ih, tops, size, Nat.add_assoc, List.cons_append]

/-- No node at the top has the tag of a string table. -/
theorem tagAt_tops_ne (written : image.Written records)
    (stands : forest.StandsAt table start records) (noTable : forest.NoTableAtTop) :
    ∀ id ∈ forest.tops start, image.tagAt id ≠ .stringTable := by
  induction forest generalizing start with
  | nil =>
      intro id member
      cases member
  | leaf tag content rest ih =>
      obtain ⟨member, behind⟩ := stands.leaf
      rw [tops, List.forall_mem_cons]
      constructor
      · rw [written.tagAt member]
        exact Database.tag_ne_stringTable (written.sound_of_placed member)
      · exact ih behind noTable
  | interned tag text rest ih =>
      obtain ⟨member, behind⟩ := stands.interned
      rw [tops, List.forall_mem_cons]
      constructor
      · rw [written.tagAt member]
        exact Database.tag_ne_stringTable (written.sound_of_placed member)
      · exact ih behind noTable
  | list tag children rest _ ih =>
      obtain ⟨member, -, behind⟩ := stands.list
      rw [tops, List.forall_mem_cons]
      constructor
      · rw [written.tagAt member]
        exact noTable.1
      · exact ih behind noTable.2

end Reading

/-! ## Images of forests -/

section Images

variable {forest : Forest} {image : Image} {database : Database} {header : Header}

/-- The texts of a forest, each once. -/
abbrev tableTexts (forest : Forest) : List String :=
  forest.texts.eraseDups

theorem written_of_bytes (sound : forest.Sound)
    (bytes : image.toList =
      header.encode ++ Layout.bytes (forest.withTable.records forest.tableTexts)) :
    image.Written (forest.withTable.records forest.tableTexts) where
  laidOut := ⟨_, header.length_encode, bytes⟩
  sound := sound_records (sound_withTable sound)
  aligned := aligned_records Header.size _ _

theorem standsAt_withTable (forest : Forest) :
    forest.withTable.StandsAt forest.tableTexts Header.size
      (forest.withTable.records forest.tableTexts) :=
  fun _ member => member

/-- The nodes at the top are the children of the root. -/
theorem children_root (written : image.Written (forest.withTable.records forest.tableTexts)) :
    image.children Image.root = forest.withTable.tops Header.size := by
  have tiles := tiles_tops written (standsAt_withTable forest)
  rw [← size_records forest.tableTexts, ← written.laidOut.size_eq] at tiles
  exact tiles.children_root

/-- The forest itself comes first. -/
theorem standsAt_front (forest : Forest) :
    forest.StandsAt forest.tableTexts Header.size
      (forest.withTable.records forest.tableTexts) := by
  intro entry member
  rw [withTable, records_append]
  exact mem_placed_append_left _ member

/-- The table comes behind the forest. -/
theorem table_mem_placed {entry : Nat × Record} (someTexts : forest.tableTexts ≠ [])
    (member : entry ∈ placed (Header.size + forest.size)
      (Database.tableRecords forest.tableTexts)) :
    entry ∈ placed Header.size (forest.withTable.records forest.tableTexts) := by
  rw [withTable, records_append, placed_append, size_records, records_tableOf _ someTexts]
  exact List.mem_append_right _ member

/-- If texts are interned, the table behind the forest is what a search for one finds. -/
theorem findFirst_stringTable (written : image.Written (forest.withTable.records forest.tableTexts))
    (noTable : forest.NoTableAtTop) (someTexts : forest.tableTexts ≠ []) :
    image.findFirst Image.root .stringTable = some (Header.size + forest.size) := by
  have isTable : image.tagAt (Header.size + forest.size) = .stringTable :=
    written.tagAt (table_mem_placed someTexts (List.mem_cons_self ..))
  have walk := children_root written
  rw [withTable, tops_append, tableOf, if_neg someTexts, tops] at walk
  exact Image.findFirst_eq walk (tagAt_tops_ne written (standsAt_front forest) noTable) isTable

/-- A database with the bytes of a forest and its table reads as that forest. -/
theorem readAlong_children_root (database : Database) (sound : forest.Sound)
    (noTable : forest.NoTableAtTop)
    (bytes : database.image.toList =
      header.encode ++ Layout.bytes (forest.withTable.records forest.tableTexts))
    (located : database.stringTable = database.image.findFirst Image.root .stringTable) :
    forest.withTable.ReadAlong database (database.image.children Image.root) := by
  have written := written_of_bytes sound bytes
  rw [children_root written]
  apply readAlong_tops written (standsAt_withTable forest)
  intro id tag text waits member
  rw [texts_withTable] at waits
  have interned : text ∈ forest.tableTexts := List.mem_eraseDups.mpr waits
  have someTexts := List.ne_nil_of_mem interned
  have item := written.laidOut.holds
    (table_mem_placed someTexts (mem_placed_tableRecords interned _))
  exact Database.string?_reference (written.laidOut.holds member)
    (written.sound_of_placed member)
    (located.trans (findFirst_stringTable written noTable someTexts)) (clean_texts sound text waits)
    item

theorem size_withTable (forest : Forest) :
    forest.withTable.size = forest.size + (tableOf forest.tableTexts).size :=
  size_append forest _

theorem size_tableOf {texts : List String} (someTexts : texts ≠ []) :
    (tableOf texts).size = Layout.size (Database.tableRecords texts) := by
  rw [← records_tableOf texts someTexts, size_records]

/-- Writing a forest into a new database adds its records, and its texts wait for the table. -/
theorem write_new_run (sound : forest.Sound) (config : Config) (file : Option Handle)
    (fits : Header.size + forest.withTable.size < sizeLimit) :
    ∃ image, forest.write.run { Database.inMemory config with file } =
        .ok () { Database.inMemory config with file, image, pool := ⟨forest.tableTexts⟩ } ∧
      image.toList =
        config.header.encode ++ Layout.bytes (forest.records forest.tableTexts) := by
  have texts : addTexts [] forest.texts = forest.tableTexts := addTexts_eraseDups [] forest.texts
  rw [size_withTable] at fits
  have room : (Database.inMemory config).image.HasRoom forest.size := by
    rw [Image.hasRoom_iff, ← Image.length_toList, Database.toList_inMemory, Header.length_encode]
    omega
  have pooled : StringPool.behind Image.listHeaderSize forest.tableTexts < sizeLimit := by
    rw [← size_tableRecords]
    by_cases noTexts : forest.tableTexts = []
    · rw [noTexts]
      decide
    · rw [← size_tableOf noTexts]
      omega
  rw [← texts] at pooled
  obtain ⟨image, wrote, added⟩ := write_run { Database.inMemory config with file }
    forest.tableTexts sound rfl room pooled (texts ▸ List.prefix_refl _)
  refine ⟨image, ?_, ?_⟩
  · rw [← texts]
    exact wrote
  · rw [added, Database.toList_inMemory]

/-- Writing the table then leaves the bytes of the forest with its table behind it. -/
theorem commit_run (before : Database) (sound : forest.Sound)
    (fits : Header.size + forest.withTable.size < sizeLimit)
    (texts : before.pool.texts = forest.tableTexts) (noneOpen : before.openLists = [])
    (bytes : before.image.toList =
      header.encode ++ Layout.bytes (forest.records forest.tableTexts)) :
    ∃ answer after, Database.commitStringTable.run before = .ok answer after ∧
      after.file = before.file ∧
      after.image.toList =
        header.encode ++ Layout.bytes (forest.withTable.records forest.tableTexts) := by
  rw [withTable, records_append, bytes_append, ← List.append_assoc, ← bytes]
  by_cases noTexts : forest.tableTexts = []
  · refine ⟨none, before, Database.commitStringTable_of_nil (texts.trans noTexts), rfl, ?_⟩
    rw [tableOf, if_pos noTexts, records, bytes_nil, List.append_nil]
  · have size := congrArg List.length bytes
    rw [Image.length_toList, List.length_append, Header.length_encode, length_bytes,
      size_records] at size
    rw [size_withTable, size_tableOf noTexts] at fits
    have room : before.image.HasRoom
        (Layout.size (Database.tableRecords before.pool.texts)) := by
      rw [Image.hasRoom_iff, size, texts]
      omega
    have clean : ∀ text ∈ before.pool.texts, '\x00' ∉ text.toList := by
      intro text member
      rw [texts] at member
      exact clean_texts sound text (List.mem_eraseDups.mp member)
    obtain ⟨image, committed, added⟩ :=
      Database.commitStringTable_run (texts ▸ noTexts) noneOpen clean room
    refine ⟨_, _, committed, rfl, ?_⟩
    rw [records_tableOf _ noTexts, ← texts]
    exact added

end Images

/-- Every forest that fits is written, closed, opened again and read as it was, with the table of
its texts behind it. -/
theorem round_trip {forest : Forest} {directory made : Directory} {path : Path} {config : Config}
    {database : Database} (sound : forest.Sound) (noTable : forest.NoTableAtTop)
    (supported : config.header.major = Header.supportedMajor)
    (fits : Header.size + forest.withTable.size < sizeLimit)
    (created : Database.create directory path config = .ok (made, database)) :
    ∃ written stored loaded,
      forest.write.run database = .ok () written ∧
      written.closeAndFlush made = .ok stored ∧
      Database.openFile stored path = .ok loaded ∧
      loaded.header = config.header ∧
      forest.withTable.ReadAlong loaded (loaded.image.children Image.root) := by
  obtain ⟨handle, rfl, flushes⟩ := Database.openFile_of_create created
  obtain ⟨image, wrote, added⟩ := write_new_run sound config (some handle) fits
  obtain ⟨answer, final, committed, file, bytes⟩ := commit_run
    { Database.inMemory config with file := some handle, image, pool := ⟨forest.tableTexts⟩ }
    sound fits rfl rfl added
  obtain ⟨loaded, isLoaded, same, header, -, located⟩ := Database.ofBytes_toList bytes supported
  obtain ⟨stored, flushed, opens⟩ := flushes final.image.toList final.image.size_lt
  obtain ⟨opened, isOpened⟩ := opens loaded isLoaded
  refine ⟨_, stored, { loaded with file := some opened }, wrote, ?_, isOpened, header, ?_⟩
  · rw [Database.closeAndFlush, committed]
    simp only [file]
    exact flushed
  · exact readAlong_children_root { loaded with file := some opened } sound noTable
      (same.trans bytes) located

/-- A list with an empty list in it, and a text that is interned twice. -/
def sample : Forest :=
  .list .database
    (.interned .name "ab" (.list .exe .nil (.leaf ⟨0x8001⟩ (.string "é") .nil)))
    (.interned ⟨0x6002⟩ "ab" .nil)

theorem round_trip_sample :
    ∃ made database, Database.create .empty ⟨[0x61]⟩ {} = .ok (made, database) ∧
      ∃ written stored loaded,
        sample.write.run database = .ok () written ∧
        written.closeAndFlush made = .ok stored ∧
        Database.openFile stored ⟨[0x61]⟩ = .ok loaded ∧
        loaded.header = ⟨2, 1⟩ ∧
        sample.withTable.ReadAlong loaded (loaded.image.children Image.root) := by
  have noZero : '\x00' ∉ "ab".toList ∧ '\x00' ∉ "é".toList := by decide
  have sound : sample.Sound :=
    ⟨by decide, ⟨⟨by decide, noZero.1⟩, by decide, trivial, ⟨by decide, noZero.2⟩, trivial⟩,
      ⟨by decide, noZero.1⟩, trivial⟩
  have noTable : sample.NoTableAtTop := ⟨by decide, trivial⟩
  have created : Database.create .empty ⟨[0x61]⟩ {} = .ok (_, _) := rfl
  exact ⟨_, _, created, round_trip sound noTable rfl (by decide +kernel) created⟩

end Forest

end TagTree
