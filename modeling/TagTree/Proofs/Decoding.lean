import TagTree.Proofs.Record

/-!
# Records found in bytes

What can be read at some offset says which bytes stand there. A readable record without children
therefore stands as the bytes of its tag and its contents, whoever wrote them, and its reader gives
back these contents.
-/

namespace TagTree

namespace Image

variable {image : Image} {id offset length width value : Nat} {bytes first second : List UInt8}
  {kind : Kind}

/-! ## Stretches -/

theorem holds_nil (inside : offset ≤ image.size) : image.Holds offset [] := by
  refine ⟨image.toList.take offset, image.toList.drop offset, by simp, ?_⟩
  rw [List.length_take, length_toList]
  exact Nat.min_eq_left inside

/-- What is read from an offset stands there. -/
theorem holds_of_slice (read : image.slice offset length = .ok bytes) :
    bytes.length = length ∧ image.Holds offset bytes := by
  by_cases inside : offset + length ≤ image.size
  · rw [slice_of_le image inside, Except.ok.injEq] at read
    subst read
    constructor
    · rw [List.length_take, List.length_drop, length_toList]
      omega
    · refine ⟨image.toList.take offset, image.toList.drop (offset + length), ?_, ?_⟩
      · rw [← List.drop_drop, List.append_assoc, List.take_append_drop, List.take_append_drop]
      · rw [List.length_take, length_toList]
        omega
  · rw [slice_of_lt image (Nat.not_le.mp inside)] at read
    cases read

theorem exists_holds (inside : offset + length ≤ image.size) :
    ∃ bytes, bytes.length = length ∧ image.Holds offset bytes :=
  ⟨_, holds_of_slice (slice_of_le image inside)⟩

/-- Where one stretch ends and another begins, the bytes of both stand together. -/
theorem Holds.append (holds : image.Holds offset first)
    (behind : image.Holds (offset + first.length) second) :
    image.Holds offset (first ++ second) := by
  obtain ⟨front, back, split, rfl⟩ := holds
  obtain ⟨front', back', split', length⟩ := behind
  have whole : (front ++ first) ++ back = front' ++ (second ++ back') := by
    rw [← split, split', List.append_assoc]
  have sameFront : front ++ first = front' :=
    List.append_inj_left whole (by rw [length, List.length_append])
  refine ⟨front, back', ?_, rfl⟩
  rw [split', ← sameFront]
  simp only [List.append_assoc]

/-- What stands up to the end of the image is all of it behind the offset. -/
theorem Holds.toList_eq (holds : image.Holds offset bytes)
    (ends : offset + bytes.length = image.size) :
    image.toList = image.toList.take offset ++ bytes := by
  obtain ⟨front, back, split, rfl⟩ := holds
  have total := congrArg List.length split
  rw [length_toList, List.length_append, List.length_append] at total
  have nothing : back = [] := List.eq_nil_of_length_eq_zero (by omega)
  rw [split, nothing, List.append_nil, List.take_left]

/-- Any bytes are those of some number. -/
theorem exists_holds_encode (inside : offset + width ≤ image.size) :
    ∃ value, value < LittleEndian.span width ∧
      image.Holds offset (LittleEndian.encode width value) := by
  obtain ⟨bytes, rfl, holds⟩ := exists_holds inside
  refine ⟨LittleEndian.decode bytes, LittleEndian.decode_lt bytes, ?_⟩
  rwa [LittleEndian.encode_decode]

/-- A number that is read from an offset stands there. -/
theorem holds_of_number (number : image.number offset width = .ok value) :
    value < LittleEndian.span width ∧
      image.Holds offset (LittleEndian.encode width value) := by
  rw [Image.number] at number
  cases read : image.slice offset width with
  | error cause =>
      rw [read] at number
      cases number
  | ok bytes =>
      rw [read] at number
      cases number
      obtain ⟨rfl, holds⟩ := holds_of_slice read
      refine ⟨LittleEndian.decode_lt bytes, ?_⟩
      rwa [LittleEndian.encode_decode]

theorem number_eq_ok_iff :
    image.number offset width = .ok value ↔
      value < LittleEndian.span width ∧
        image.Holds offset (LittleEndian.encode width value) := by
  constructor
  · exact holds_of_number
  · rintro ⟨small, holds⟩
    exact holds.number small

/-! ## Records -/

/-- Where a kind can be told, the tag stands. -/
theorem holds_tag (kindAt : image.kindAt? id = some kind) :
    image.Holds id (LittleEndian.encode tagSize (image.tagAt id).raw.toNat) := by
  cases number : image.number id tagSize with
  | error cause =>
      have isNull : image.tagAt id = .null := by
        rw [Image.tagAt, number]
      have noKind : Tag.null.kind? = none := rfl
      rw [Image.kindAt?, isNull, noKind] at kindAt
      cases kindAt
  | ok raw =>
      obtain ⟨small, holds⟩ := holds_of_number number
      rw [Image.tagAt, number]
      change image.Holds id (LittleEndian.encode tagSize (UInt16.ofNat raw).toNat)
      rwa [UInt16.toNat_ofNat_of_lt' small]

/-- A list that can be read stands with the length that it says. -/
theorem exists_holds_list (isList : image.kindAt? id = some .list)
    (readable : image.sizeOf id ≠ 0) :
    ∃ length, image.sizeOf id = length + listHeaderSize ∧
      image.Holds id (Record.list (image.tagAt id) length).encode := by
  obtain ⟨length, number, -, size⟩ := exists_length_of_sizeOf isList rfl readable
  refine ⟨length, size, (holds_tag isList).append ?_⟩
  rw [LittleEndian.length_encode]
  exact (holds_of_number number).2

/-! ## Numbers -/

section Numbers

variable {form : Scalar} {data : List UInt8}

/-- A reader of numbers gives a certain one whatever its default. -/
def GivesNumber (image : Image) (form : Scalar) (id : Nat) (value : form.Value) : Prop :=
  ∀ default, image.readScalar form id default = value

/-- A reader cannot both give a number and be without one. -/
theorem GivesNumber.exists_ne {value : form.Value} (gives : image.GivesNumber form id value) :
    ∃ default, image.readScalar form id default ≠ default := by
  have wide : 8 * form.width ≠ 0 := by
    cases form <;> decide
  refine ⟨value + 1, ?_⟩
  rw [gives]
  simpa using wide

/-- The number that a reader gives stands behind a tag of its kind. -/
theorem givesNumber_iff {value : form.Value} :
    image.GivesNumber form id value ↔
      image.kindAt? id = some form.kind ∧
        image.number (id + tagSize) form.width = .ok value.toNat := by
  constructor
  · intro gives
    obtain ⟨default, other⟩ := gives.exists_ne
    by_cases kindAt : image.kindAt? id = some form.kind
    · cases number : image.number (id + tagSize) form.width with
      | error cause => simp [readScalar, kindAt, number] at other
      | ok raw =>
          have read := gives 0
          simp only [readScalar, kindAt, number, if_true] at read
          rw [← read, Scalar.toNat_ofNat_of_lt (holds_of_number number).1]
          exact ⟨kindAt, rfl⟩
    · simp [readScalar, kindAt] at other
  · rintro ⟨kindAt, number⟩ default
    simp only [readScalar, kindAt, number, if_true]
    rw [BitVec.ofNat_toNat, BitVec.setWidth_eq]

/-- A reader of numbers that gives no number gives its default. -/
theorem readScalar_of_not_givesNumber (without : ∀ value, ¬image.GivesNumber form id value)
    (default : form.Value) : image.readScalar form id default = default := by
  rw [readScalar]
  split
  · next kindAt =>
      cases number : image.number (id + tagSize) form.width with
      | error cause => rfl
      | ok raw =>
          apply absurd _ (without (BitVec.ofNat _ raw))
          rw [givesNumber_iff, Scalar.toNat_ofNat_of_lt (holds_of_number number).1]
          exact ⟨kindAt, number⟩
  · rfl

/-- The number that is given is that of the bytes behind the tag. -/
theorem givesNumber_decode_iff (kindAt : image.kindAt? id = some form.kind)
    (length : data.length = form.width) :
    image.GivesNumber form id (BitVec.ofNat _ (LittleEndian.decode data)) ↔
      image.Holds (id + tagSize) data := by
  have small := LittleEndian.decode_lt data
  rw [length] at small
  have written : LittleEndian.encode form.width (LittleEndian.decode data) = data := by
    rw [← length, LittleEndian.encode_decode]
  rw [givesNumber_iff, Scalar.toNat_ofNat_of_lt small, number_eq_ok_iff, written]
  constructor
  · rintro ⟨-, -, holds⟩
    exact holds
  · intro holds
    exact ⟨kindAt, small, holds⟩

end Numbers

/-! ## Leaves -/

section Leaves

variable {form : Scalar}

theorem exists_scalar (kindAt : image.kindAt? id = some form.kind)
    (inside : id + image.sizeOf id ≤ image.size) :
    ∃ value : form.Value,
      image.Holds id (Record.leaf (image.tagAt id) (.scalar form value)).encode := by
  rw [sizeOf_of_fixedSize? kindAt form.fixedSize?_kind, ← Nat.add_assoc] at inside
  obtain ⟨value, small, holds⟩ := exists_holds_encode inside
  refine ⟨BitVec.ofNat _ value, (holds_tag kindAt).append ?_⟩
  rw [LittleEndian.length_encode, Leaf.encode, Scalar.toNat_ofNat_of_lt small]
  exact holds

/-- A record that says its own length stands as its tag, the length and so many bytes. -/
theorem exists_payload (kindAt : image.kindAt? id = some kind) (unfixed : kind.fixedSize? = none)
    (readable : image.sizeOf id ≠ 0) (inside : id + image.sizeOf id ≤ image.size) :
    ∃ body, image.slice (id + listHeaderSize) (image.sizeOf id - listHeaderSize) = .ok body ∧
      image.Holds id (LittleEndian.encode tagSize (image.tagAt id).raw.toNat ++
        (LittleEndian.encode 4 body.length ++ body)) := by
  obtain ⟨length, number, -, size⟩ := exists_length_of_sizeOf kindAt unfixed readable
  rw [size] at inside ⊢
  have payloadInside : id + listHeaderSize + length ≤ image.size := by omega
  obtain ⟨body, rfl, holds⟩ := exists_holds payloadInside
  rw [Nat.add_sub_cancel]
  refine ⟨body, holds.slice, (holds_tag kindAt).append (Holds.append ?_ ?_)⟩
  · rw [LittleEndian.length_encode]
    exact (holds_of_number number).2
  · rw [LittleEndian.length_encode, LittleEndian.length_encode, Nat.add_assoc]
    exact holds

/-- The bytes behind the length of a record are the stored form of a text. -/
def StoresText (image : Image) (id : Nat) : Prop :=
  ∃ text : String, '\x00' ∉ text.toList ∧
    image.slice (id + listHeaderSize) (image.sizeOf id - listHeaderSize) =
      .ok (Text.Utf16.encode text)

theorem storesText_iff :
    image.StoresText id ↔
      ∃ bytes ∈ (image.slice (id + listHeaderSize) (image.sizeOf id - listHeaderSize)).toOption,
        '\x00' ∉ (Text.Utf16.decode bytes).toList ∧
          Text.Utf16.encode (Text.Utf16.decode bytes) = bytes := by
  constructor
  · rintro ⟨text, clean, read⟩
    refine ⟨Text.Utf16.encode text, ?_, ?_⟩
    · rw [read]
      rfl
    · rw [Text.Utf16.decode_encode clean]
      exact ⟨clean, rfl⟩
  · rintro ⟨bytes, read, clean, stored⟩
    refine ⟨Text.Utf16.decode bytes, clean, ?_⟩
    rw [stored]
    cases slice : image.slice (id + listHeaderSize) (image.sizeOf id - listHeaderSize) with
    | error cause =>
        rw [slice] at read
        cases read
    | ok found =>
        rw [slice] at read
        cases read
        rfl

instance (image : Image) (id : Nat) : Decidable (image.StoresText id) :=
  decidable_of_iff _ storesText_iff.symm

/-- A record without children that can be read and lies in the image stands as the bytes of its tag
and of what it holds. -/
theorem exists_leaf (kindAt : image.kindAt? id = some kind) (noList : kind ≠ .list)
    (readable : image.sizeOf id ≠ 0) (inside : id + image.sizeOf id ≤ image.size)
    (stored : kind = .string → image.StoresText id) :
    ∃ content, (Record.leaf (image.tagAt id) content).Sound ∧
      image.Holds id (Record.leaf (image.tagAt id) content).encode := by
  have scalar : ∀ form : Scalar, kind = form.kind →
      ∃ content, (Record.leaf (image.tagAt id) content).Sound ∧
        image.Holds id (Record.leaf (image.tagAt id) content).encode := by
    rintro form rfl
    obtain ⟨value, holds⟩ := exists_scalar kindAt inside
    exact ⟨.scalar form value, ⟨kindAt, trivial⟩, holds⟩
  cases kind with
  | null =>
      refine ⟨.null, ⟨kindAt, trivial⟩, ?_⟩
      rw [Record.encode, Leaf.encode, List.append_nil]
      exact holds_tag kindAt
  | byte => exact scalar .byte rfl
  | word => exact scalar .word rfl
  | dword => exact scalar .dword rfl
  | qword => exact scalar .qword rfl
  | stringRef => exact scalar .stringRef rfl
  | list => exact absurd rfl noList
  | string =>
      obtain ⟨text, clean, read⟩ := stored rfl
      obtain ⟨body, readBody, holds⟩ := exists_payload kindAt rfl readable inside
      rw [read, Except.ok.injEq] at readBody
      subst readBody
      exact ⟨.string text, ⟨kindAt, clean⟩, holds⟩
  | binary =>
      obtain ⟨body, -, holds⟩ := exists_payload kindAt rfl readable inside
      exact ⟨.binary body, ⟨kindAt, trivial⟩, holds⟩

end Leaves

end Image

/-- The bytes of a header that was read are those it was read from. -/
theorem Header.encode_of_parse {header : Header} {bytes : List UInt8}
    (parsed : Header.parse bytes = .ok header) : header.encode = bytes.take size := by
  by_cases short : bytes.length < size
  · rw [parse, if_pos short] at parsed
    cases parsed
  · simp only [parse, if_neg short] at parsed
    split at parsed
    · next mark =>
        cases parsed
        have number : ∀ chunk : List UInt8, chunk.length = 4 →
            LittleEndian.encode 4 (UInt32.ofNat (LittleEndian.decode chunk)).toNat = chunk := by
          intro chunk four
          have small := LittleEndian.decode_lt chunk
          rw [four] at small
          rw [UInt32.toNat_ofNat_of_lt' small, ← four, LittleEndian.encode_decode]
        rw [size] at short
        have first : (bytes.take 4).length = 4 := by
          rw [List.length_take]
          omega
        have second : ((bytes.drop 4).take 4).length = 4 := by
          rw [List.length_take, List.length_drop]
          omega
        rw [encode, number _ first, number _ second, ← mark, List.append_assoc,
          ← List.drop_drop (i := 4) (j := 4), ← List.take_add, ← List.take_add]
        rfl
    · cases parsed

end TagTree
