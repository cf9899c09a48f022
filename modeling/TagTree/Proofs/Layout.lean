import TagTree.Image.Children
import TagTree.Proofs.Record

/-!
# Layouts

Records stand one behind the other without a gap, so the place of each is the sum of the sizes of
those before it. Closing a list changes the length that it says of itself and moves nothing. A walk
over an image that is laid out in this way only comes to places of records as long as every record,
its children included, ends at such a place or at the end.
-/

namespace TagTree

namespace Layout

/-- The bytes of records that stand one behind the other. -/
def bytes (records : List Record) : List UInt8 :=
  records.flatMap Record.encode

/-- The number of bytes of records. -/
def size (records : List Record) : Nat :=
  (bytes records).length

@[simp] theorem bytes_nil : bytes [] = [] := rfl

@[simp] theorem bytes_cons (record : Record) (rest : List Record) :
    bytes (record :: rest) = record.encode ++ bytes rest :=
  List.flatMap_cons

@[simp] theorem bytes_append (front back : List Record) :
    bytes (front ++ back) = bytes front ++ bytes back :=
  List.flatMap_append

@[simp] theorem size_nil : size [] = 0 := rfl

@[simp] theorem size_cons (record : Record) (rest : List Record) :
    size (record :: rest) = record.size + size rest := by
  simp [size, Record.size]

@[simp] theorem size_append (front back : List Record) :
    size (front ++ back) = size front + size back := by
  simp [size]

theorem length_bytes (records : List Record) : (bytes records).length = size records := rfl

/-- Records with their places, of which the first is given. -/
def placed : (start : Nat) → (records : List Record) → List (Nat × Record)
  | _, [] => []
  | start, record :: rest => (start, record) :: placed (start + record.size) rest

/-- The places of records, of which the first is given. -/
def places (start : Nat) (records : List Record) : List Nat :=
  (placed start records).map Prod.fst

theorem placed_append (start : Nat) (front back : List Record) :
    placed start (front ++ back) = placed start front ++ placed (start + size front) back := by
  induction front generalizing start with
  | nil => simp [placed]
  | cons record rest ih =>
      simp only [List.cons_append, placed, size_cons, ih, Nat.add_assoc]

theorem mem_places_of_mem_placed {start id : Nat} {record : Record} {records : List Record}
    (member : (id, record) ∈ placed start records) : id ∈ places start records :=
  List.mem_map_of_mem member

theorem exists_of_mem_places {start id : Nat} {records : List Record}
    (member : id ∈ places start records) : ∃ record, (id, record) ∈ placed start records := by
  obtain ⟨⟨_, record⟩, placed, rfl⟩ := List.mem_map.mp member
  exact ⟨record, placed⟩

/-- What stands before a record makes up its place. -/
theorem exists_split_of_mem_placed {start id : Nat} {record : Record} {records : List Record}
    (member : (id, record) ∈ placed start records) :
    ∃ front back, records = front ++ record :: back ∧ start + size front = id := by
  induction records generalizing start with
  | nil => cases member
  | cons first rest ih =>
      rcases List.mem_cons.mp member with same | later
      · cases same
        exact ⟨[], rest, rfl, rfl⟩
      · obtain ⟨front, back, rfl, place⟩ := ih later
        exact ⟨first :: front, back, rfl, by rw [← place, size_cons, Nat.add_assoc]⟩

theorem mem_of_mem_placed {start id : Nat} {record : Record} {records : List Record}
    (member : (id, record) ∈ placed start records) : record ∈ records := by
  obtain ⟨front, back, rfl, -⟩ := exists_split_of_mem_placed member
  simp

theorem mem_placed_append_left {start id : Nat} {record : Record} {front : List Record}
    (back : List Record) (member : (id, record) ∈ placed start front) :
    (id, record) ∈ placed start (front ++ back) := by
  rw [placed_append]
  exact List.mem_append_left _ member

theorem start_le_of_mem_places {start id : Nat} {records : List Record}
    (member : id ∈ places start records) : start ≤ id := by
  obtain ⟨record, member⟩ := exists_of_mem_places member
  obtain ⟨front, back, -, place⟩ := exists_split_of_mem_placed member
  omega

theorem end_le_of_mem_placed {start id : Nat} {record : Record} {records : List Record}
    (member : (id, record) ∈ placed start records) :
    id + record.size ≤ start + size records := by
  obtain ⟨front, back, rfl, place⟩ := exists_split_of_mem_placed member
  rw [size_append, size_cons]
  omega

/-! ## Boundaries -/

/-- A record begins at an offset, or the last one ends there. -/
def Boundary (start : Nat) (records : List Record) (offset : Nat) : Prop :=
  offset ∈ places start records ∨ offset = start + size records

theorem Boundary.le {start offset : Nat} {records : List Record}
    (boundary : Boundary start records offset) : offset ≤ start + size records := by
  rcases boundary with member | rfl
  · obtain ⟨record, member⟩ := exists_of_mem_places member
    have inside := end_le_of_mem_placed member
    omega
  · exact Nat.le_refl _

theorem Boundary.mem_places {start offset : Nat} {records : List Record}
    (boundary : Boundary start records offset) (inside : offset < start + size records) :
    offset ∈ places start records := by
  rcases boundary with member | rfl
  · exact member
  · exact absurd inside (Nat.lt_irrefl _)

theorem boundary_start (start : Nat) (records : List Record) : Boundary start records start := by
  cases records with
  | nil => exact .inr rfl
  | cons record rest => exact .inl (List.mem_cons_self ..)

theorem Boundary.append {start offset : Nat} {front : List Record} (back : List Record)
    (boundary : Boundary start front offset) : Boundary start (front ++ back) offset := by
  rcases boundary with member | rfl
  · left
    rw [places, placed_append, List.map_append]
    exact List.mem_append_left _ member
  · rcases boundary_start (start + size front) back with member | equal
    · left
      rw [places, placed_append, List.map_append]
      exact List.mem_append_right _ member
    · right
      rw [size_append, ← Nat.add_assoc]
      exact equal

theorem Boundary.cons {start offset : Nat} {record : Record} {rest : List Record}
    (boundary : Boundary (start + record.size) rest offset) :
    Boundary start (record :: rest) offset := by
  rcases boundary with member | rfl
  · exact .inl (List.mem_cons_of_mem _ member)
  · right
    rw [size_cons, Nat.add_assoc]

/-- A record ends where the next one begins or at the end. -/
theorem boundary_behind {start id : Nat} {record : Record} {records : List Record}
    (member : (id, record) ∈ placed start records) :
    Boundary start records (id + record.size) := by
  obtain ⟨front, back, rfl, rfl⟩ := exists_split_of_mem_placed member
  have split : front ++ record :: back = (front ++ [record]) ++ back := by simp
  have ends : start + size front + record.size = start + size (front ++ [record]) := by
    simp [Nat.add_assoc]
  rw [split, ends]
  exact Boundary.append back (.inr rfl)

/-- Every record, its children included, ends where another begins or at the end. -/
def Aligned (start : Nat) (records : List Record) : Prop :=
  ∀ id record, (id, record) ∈ placed start records →
    Boundary start records (id + record.extent)

theorem aligned_nil (start : Nat) : Aligned start [] := by
  intro id record member
  cases member

/-- Adding records that are aligned among themselves keeps all aligned. -/
theorem Aligned.append {start : Nat} {front back : List Record} (aligned : Aligned start front)
    (behind : Aligned (start + size front) back) : Aligned start (front ++ back) := by
  intro id record member
  rw [placed_append] at member
  rcases List.mem_append.mp member with member | member
  · exact (aligned id record member).append back
  · rcases behind id record member with inside | equal
    · left
      rw [places, placed_append, List.map_append]
      exact List.mem_append_right _ inside
    · right
      rw [size_append, ← Nat.add_assoc]
      exact equal

/-- Records that claim nothing but themselves are aligned. -/
theorem aligned_of_bare (start : Nat) {records : List Record}
    (bare : ∀ record ∈ records, record.extent = record.size) : Aligned start records := by
  intro id record member
  rw [bare record (mem_of_mem_placed member)]
  exact boundary_behind member

theorem aligned_singleton (start : Nat) {record : Record} (bare : record.extent = record.size) :
    Aligned start [record] := by
  apply aligned_of_bare
  intro other member
  rw [List.mem_singleton.mp member]
  exact bare

/-- A list that claims all its children is aligned with them. -/
theorem Aligned.list (tag : Tag) {start : Nat} {children : List Record}
    (aligned : Aligned (start + Image.listHeaderSize) children) :
    Aligned start (.list tag (size children) :: children) := by
  intro id record member
  rw [← Record.size_list tag (size children)] at aligned
  rcases List.mem_cons.mp member with same | later
  · cases same
    right
    rw [size_cons, Record.size_list, Record.extent, Nat.add_comm (size children)]
  · exact (aligned id record later).cons

/-! ## Closing a list -/

/-- A list with another length; other records stay as they are. -/
def withLength (length : Nat) : Record → Record
  | .list tag _ => .list tag length
  | .leaf tag content => .leaf tag content

@[simp] theorem size_withLength (length : Nat) (record : Record) :
    (withLength length record).size = record.size := by
  cases record with
  | leaf => rfl
  | list => simp [withLength]

/-- The list at a place gets another length. -/
def relength (id length : Nat) : (start : Nat) → (records : List Record) → List Record
  | _, [] => []
  | start, record :: rest =>
      (if start = id then withLength length record else record) ::
        relength id length (start + record.size) rest

/-- Only the record at the place changes, and none moves. -/
theorem placed_relength (id length start : Nat) (records : List Record) :
    placed start (relength id length start records) =
      (placed start records).map fun (place, record) =>
        (place, if place = id then withLength length record else record) := by
  induction records generalizing start with
  | nil => rfl
  | cons record rest ih =>
      have sameSize :
          (if start = id then withLength length record else record).size = record.size := by
        split <;> simp
      simp only [relength, placed, List.map_cons, sameSize, ih]

@[simp] theorem places_relength (id length start : Nat) (records : List Record) :
    places start (relength id length start records) = places start records := by
  simp [places, placed_relength]

@[simp] theorem size_relength (id length start : Nat) (records : List Record) :
    size (relength id length start records) = size records := by
  induction records generalizing start with
  | nil => rfl
  | cons record rest ih =>
      simp only [relength, size_cons, ih]
      split <;> simp

/-- Nothing changes where all records stand behind the place. -/
theorem relength_of_lt {id length start : Nat} {records : List Record} (before : id < start) :
    relength id length start records = records := by
  induction records generalizing start with
  | nil => rfl
  | cons record rest ih =>
      rw [relength, if_neg (by omega), ih (by omega)]

/-- Nothing changes before the place. -/
theorem relength_append {id length start : Nat} {front back : List Record}
    (behind : start + size front ≤ id) :
    relength id length start (front ++ back) =
      front ++ relength id length (start + size front) back := by
  induction front generalizing start with
  | nil => simp
  | cons record rest ih =>
      have positive := record.size_pos
      rw [size_cons] at behind ⊢
      rw [List.cons_append, relength, if_neg (by omega), ih (by omega), List.cons_append,
        Nat.add_assoc]

/-- The bytes of the list at the place change, and no others. -/
theorem relength_split (length start : Nat) (front : List Record) (tag : Tag) (old : Nat)
    (back : List Record) :
    relength (start + size front) length start (front ++ .list tag old :: back) =
      front ++ .list tag length :: back := by
  rw [relength_append (Nat.le_refl _), relength, if_pos rfl, withLength,
    relength_of_lt (Nat.lt_add_of_pos_right (Record.size_pos _))]

/-- A leaf is never changed. -/
theorem mem_placed_relength_leaf {id length start place : Nat} {tag : Tag} {content : Leaf}
    {records : List Record} (member : (place, .leaf tag content) ∈ placed start records) :
    (place, .leaf tag content) ∈ placed start (relength id length start records) := by
  rw [placed_relength]
  refine List.mem_map.mpr ⟨(place, .leaf tag content), member, ?_⟩
  simp [withLength]

/-- A list stays a list with its tag. -/
theorem mem_placed_relength_list {id length start place old : Nat} {tag : Tag}
    {records : List Record} (member : (place, .list tag old) ∈ placed start records) :
    ∃ new, (place, .list tag new) ∈ placed start (relength id length start records) := by
  refine ⟨if place = id then length else old, ?_⟩
  rw [placed_relength]
  refine List.mem_map.mpr ⟨(place, .list tag old), member, ?_⟩
  by_cases same : place = id <;> simp [same, withLength]

theorem exists_of_mem_placed_relength {id length start place : Nat} {record : Record}
    {records : List Record}
    (member : (place, record) ∈ placed start (relength id length start records)) :
    ∃ old, (place, old) ∈ placed start records ∧
      record = if place = id then withLength length old else old := by
  rw [placed_relength] at member
  obtain ⟨⟨_, old⟩, inside, equal⟩ := List.mem_map.mp member
  cases equal
  exact ⟨old, inside, rfl⟩

@[simp] theorem tag_withLength (length : Nat) (record : Record) :
    (withLength length record).tag = record.tag := by
  cases record <;> rfl

theorem exists_of_mem_relength {id length start : Nat} {record : Record} {records : List Record}
    (member : record ∈ relength id length start records) :
    ∃ old ∈ records, record = old ∨ record = withLength length old := by
  induction records generalizing start with
  | nil => cases member
  | cons first rest ih =>
      rcases List.mem_cons.mp member with rfl | later
      · refine ⟨first, List.mem_cons_self .., ?_⟩
        split
        · exact .inr rfl
        · exact .inl rfl
      · obtain ⟨old, inRest, same⟩ := ih later
        exact ⟨old, List.mem_cons_of_mem _ inRest, same⟩

theorem sound_withLength {length : Nat} {record : Record} (sound : record.Sound) :
    (withLength length record).Sound := by
  cases record with
  | leaf => exact sound
  | list => exact sound

theorem sound_relength {id length start : Nat} {records : List Record}
    (sound : ∀ record ∈ records, record.Sound) :
    ∀ record ∈ relength id length start records, record.Sound := by
  intro record member
  obtain ⟨old, stood, rfl | rfl⟩ := exists_of_mem_relength member
  · exact sound record stood
  · exact sound_withLength (sound old stood)

/-- A list that is closed at the end of all records ends there. -/
theorem Aligned.relength {id start : Nat} {records : List Record} (aligned : Aligned start records)
    (inside : id + Image.listHeaderSize ≤ start + size records) :
    Aligned start
      (relength id (start + size records - id - Image.listHeaderSize) start records) := by
  intro place record member
  obtain ⟨old, stood, rfl⟩ := exists_of_mem_placed_relength member
  have before := aligned place old stood
  rw [Boundary] at before ⊢
  rw [places_relength, size_relength]
  by_cases same : place = id
  · subst same
    cases old with
    | leaf tag content => simpa [withLength] using before
    | list tag length =>
        right
        simp only [if_true, withLength, Record.extent]
        omega
  · simpa [same] using before

end Layout

/-! ## Images of records -/

/-- An image is a header with certain records behind it. -/
def Image.LaidOut (image : Image) (records : List Record) : Prop :=
  ∃ header : List UInt8, header.length = Header.size ∧
    image.toList = header ++ Layout.bytes records

namespace Image.LaidOut

open Layout

variable {image : Image} {records : List Record} {id : Nat} {record : Record}

theorem size_eq (laidOut : image.LaidOut records) :
    image.size = Header.size + Layout.size records := by
  obtain ⟨header, length, split⟩ := laidOut
  rw [← length_toList, split, List.length_append, length, length_bytes]

/-- The bytes of a record stand at its place. -/
theorem holds (laidOut : image.LaidOut records)
    (member : (id, record) ∈ placed Header.size records) :
    image.Holds id record.encode := by
  obtain ⟨header, length, split⟩ := laidOut
  obtain ⟨front, back, rfl, place⟩ := exists_split_of_mem_placed member
  refine ⟨header ++ Layout.bytes front, Layout.bytes back, ?_, ?_⟩
  · rw [split]
    simp
  · rw [List.length_append, length, length_bytes, place]

end Image.LaidOut

/-- An image is laid out so that walks over it can be followed. -/
structure Image.Written (image : Image) (records : List Record) : Prop where
  laidOut : image.LaidOut records
  sound : ∀ record ∈ records, record.Sound
  aligned : Layout.Aligned Header.size records

namespace Image.Written

open Layout

variable {image : Image} {records : List Record} {id : Nat} {record : Record}

theorem sound_of_placed (written : image.Written records)
    (member : (id, record) ∈ placed Header.size records) : record.Sound :=
  written.sound record (mem_of_mem_placed member)

theorem tagAt (written : image.Written records)
    (member : (id, record) ∈ placed Header.size records) : image.tagAt id = record.tag :=
  (written.laidOut.holds member).tagAt

theorem kindAt? (written : image.Written records)
    (member : (id, record) ∈ placed Header.size records) :
    image.kindAt? id = some record.kind :=
  (written.laidOut.holds member).kindAt? (written.sound_of_placed member)

/-- No record claims more than the image holds. -/
theorem end_le_size (written : image.Written records)
    (member : (id, record) ∈ placed Header.size records) : id + record.extent ≤ image.size := by
  rw [written.laidOut.size_eq]
  exact (written.aligned id record member).le

/-- Every record is read to be as long as it claims. -/
theorem sizeOf (written : image.Written records)
    (member : (id, record) ∈ placed Header.size records) : image.sizeOf id = record.extent := by
  have inside := written.end_le_size member
  have limit := image.size_lt
  apply (written.laidOut.holds member).sizeOf (written.sound_of_placed member)
  change image.bytes.size < sizeLimit at limit
  change id + record.extent ≤ image.bytes.size at inside
  omega

/-- What a record claims ends where another begins or at the end. -/
theorem boundary (written : image.Written records)
    (member : (id, record) ∈ placed Header.size records) :
    Boundary Header.size records (id + image.sizeOf id) := by
  rw [written.sizeOf member]
  exact written.aligned id record member

end Image.Written

end TagTree
