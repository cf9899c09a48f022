import TagTree.Error
import TagTree.LittleEndian

/-!
# Images

An image is the sequence of bytes that makes up a database. Places in it are 32-bit numbers, so it
is always shorter than `sizeLimit` bytes. Bytes are read anywhere inside, added at the end and replaced
in place; what does not fit is refused and leaves the image as it was.

The capacity says how much space is set aside. It only ever doubles, and only when the bytes no
longer fit. `toList` is the view through which every operation is described.
-/

namespace TagTree

/-- The number of bytes that an image never reaches. -/
def sizeLimit : Nat := UInt32.size

/-- A sequence of bytes that can be addressed with 32 bits, in a space that can hold it. -/
structure Image where
  bytes : Array UInt8
  capacity : Nat
  size_lt : bytes.size < sizeLimit
  capacity_pos : 0 < capacity
  size_le_capacity : bytes.size ≤ capacity

namespace Image

/-- The first of `capacity`, `2 * capacity`, `4 * capacity`, … that is at least `required`. -/
def doubled (required capacity : Nat) (positive : 0 < capacity) : Nat :=
  if required ≤ capacity then capacity
  else doubled required (2 * capacity) (by omega)
termination_by required - capacity

theorem le_doubled (required capacity : Nat) (positive : 0 < capacity) :
    required ≤ doubled required capacity positive := by
  fun_induction doubled required capacity positive with
  | case1 _ _ fits => exact fits
  | case2 _ _ _ ih => exact ih

theorem capacity_le_doubled (required capacity : Nat) (positive : 0 < capacity) :
    capacity ≤ doubled required capacity positive := by
  fun_induction doubled required capacity positive with
  | case1 => exact Nat.le_refl _
  | case2 _ _ _ ih => omega

/-- The number of bytes. -/
def size (image : Image) : Nat :=
  image.bytes.size

/-- The bytes in order. -/
def toList (image : Image) : List UInt8 :=
  image.bytes.toList

@[simp] theorem length_toList (image : Image) : image.toList.length = image.size := rfl

/-- An image without bytes that sets aside the given space, or one byte if that is none. -/
def withCapacity (capacity : Nat) : Image where
  bytes := #[]
  capacity := max capacity 1
  size_lt := by decide
  capacity_pos := by omega
  size_le_capacity := by simp

@[simp] theorem toList_withCapacity (capacity : Nat) : (withCapacity capacity).toList = [] := rfl

/-- The space that is set aside when nothing else is asked for. -/
def defaultCapacity : Nat := 4096

/-- The image with the given bytes, in a space of just their size. -/
def ofList (bytes : List UInt8) : Except Error Image :=
  if fits : bytes.length < sizeLimit then
    .ok {
      bytes := bytes.toArray
      capacity := max bytes.length 1
      size_lt := by simpa using fits
      capacity_pos := by omega
      size_le_capacity := by rw [List.size_toArray]; omega }
  else .error (.format (.imageTooLarge bytes.length))

/-- Whether so many bytes can still be added. -/
abbrev HasRoom (image : Image) (count : Nat) : Prop :=
  image.bytes.size + count < sizeLimit

theorem hasRoom_withCapacity (capacity : Nat) {count : Nat} (small : count < sizeLimit) :
    (withCapacity capacity).HasRoom count := by
  simpa [withCapacity] using small

/-- The error for bytes that cannot be added. -/
def noRoom (image : Image) (count : Nat) : Error :=
  .outOfRange image.size (min count (sizeLimit - 1)) image.size

theorem size_append_list (bytes : Array UInt8) (added : List UInt8) :
    (bytes ++ added).size = bytes.size + added.length := by
  rw [← Array.length_toList, Array.toList_appendList, List.length_append, Array.length_toList]

/-- The image with bytes added at the end. -/
def extend (image : Image) (added : List UInt8) (room : image.HasRoom added.length) : Image where
  bytes := image.bytes ++ added
  capacity := doubled (image.bytes.size + added.length) image.capacity image.capacity_pos
  size_lt := by rw [size_append_list]; exact room
  capacity_pos :=
    Nat.lt_of_lt_of_le image.capacity_pos (capacity_le_doubled _ _ image.capacity_pos)
  size_le_capacity := by
    rw [size_append_list]
    exact le_doubled _ _ image.capacity_pos

@[simp] theorem toList_extend (image : Image) (added : List UInt8)
    (room : image.HasRoom added.length) :
    (image.extend added room).toList = image.toList ++ added := by
  simp [toList, extend]

@[simp] theorem size_extend (image : Image) (added : List UInt8)
    (room : image.HasRoom added.length) :
    (image.extend added room).size = image.size + added.length :=
  size_append_list image.bytes added

/-- Add bytes at the end. -/
def append (image : Image) (added : List UInt8) : Except Error Image :=
  if room : image.HasRoom added.length then .ok (image.extend added room)
  else .error (image.noRoom added.length)

/-- Add a number of so many bytes at the end. -/
def appendNumber (image : Image) (width value : Nat) : Except Error Image :=
  image.append (LittleEndian.encode width value)

/-- Add so many zero bytes at the end. -/
def reserve (image : Image) (count : Nat) : Except Error Image :=
  if room : image.HasRoom count then
    .ok (image.extend (List.replicate count 0) (by simpa using room))
  else .error (image.noRoom count)

/-- Reserving is adding zero bytes. -/
theorem reserve_eq_append (image : Image) (count : Nat) :
    image.reserve count = image.append (List.replicate count 0) := by
  simp [reserve, append]

/-- The bytes of a stretch of the image. -/
def slice (image : Image) (offset length : Nat) : Except Error (List UInt8) :=
  if offset + length ≤ image.size then
    .ok (image.bytes.extract offset (offset + length)).toList
  else .error (.outOfRange offset length image.size)

/-- A stretch inside the image is read as it stands in the view. -/
theorem slice_of_le (image : Image) {offset length : Nat} (inside : offset + length ≤ image.size) :
    image.slice offset length = .ok ((image.toList.drop offset).take length) := by
  simp [slice, inside, toList]

theorem slice_of_lt (image : Image) {offset length : Nat} (outside : image.size < offset + length) :
    image.slice offset length = .error (.outOfRange offset length image.size) := by
  simp [slice, Nat.not_le.mpr outside]

/-- The number of so many bytes at an offset. -/
def number (image : Image) (offset width : Nat) : Except Error Nat :=
  (image.slice offset width).map LittleEndian.decode

/-- Replace the bytes from an offset on, one after the other, as far as there are any. -/
def overwrite (bytes : Array UInt8) (offset : Nat) : List UInt8 → Array UInt8
  | [] => bytes
  | byte :: rest => overwrite (bytes.setIfInBounds offset byte) (offset + 1) rest

@[simp] theorem size_overwrite (bytes : Array UInt8) (offset : Nat) (replacement : List UInt8) :
    (overwrite bytes offset replacement).size = bytes.size := by
  induction replacement generalizing bytes offset with
  | nil => rfl
  | cons byte rest ih => simp [overwrite, ih]

/-- Replacing changes nothing before and after the stretch. -/
theorem toList_overwrite (bytes : Array UInt8) (offset : Nat) (replacement : List UInt8)
    (inside : offset + replacement.length ≤ bytes.size) :
    (overwrite bytes offset replacement).toList =
      bytes.toList.take offset ++ replacement ++
        bytes.toList.drop (offset + replacement.length) := by
  induction replacement generalizing bytes offset with
  | nil => simp [overwrite]
  | cons byte rest ih =>
      rw [List.length_cons] at inside
      have offsetLt : offset < (bytes.toList.set offset byte).length := by
        rw [List.length_set, Array.length_toList]
        omega
      have front : (bytes.toList.set offset byte).take (offset + 1) =
          bytes.toList.take offset ++ [byte] := by
        rw [List.take_succ_eq_append_getElem offsetLt, List.take_set_of_le (Nat.le_refl offset),
          List.getElem_set_self]
      have back : (bytes.toList.set offset byte).drop (offset + 1 + rest.length) =
          bytes.toList.drop (offset + 1 + rest.length) :=
        List.drop_set_of_lt (by omega)
      have fits : offset + 1 + rest.length ≤ (bytes.setIfInBounds offset byte).size := by
        rw [Array.size_setIfInBounds]
        omega
      rw [overwrite, ih _ _ fits, Array.toList_setIfInBounds, front, back, List.length_cons,
        Nat.add_assoc, Nat.add_comm 1]
      simp

/-- The image with the bytes from an offset on replaced. -/
def replace (image : Image) (offset : Nat) (replacement : List UInt8) : Image where
  bytes := overwrite image.bytes offset replacement
  capacity := image.capacity
  size_lt := by simpa using image.size_lt
  capacity_pos := image.capacity_pos
  size_le_capacity := by simpa using image.size_le_capacity

@[simp] theorem size_replace (image : Image) (offset : Nat) (replacement : List UInt8) :
    (image.replace offset replacement).size = image.size := by
  simp [size, replace]

/-- Replacing a stretch inside the image changes nothing before and after it. -/
theorem toList_replace (image : Image) {offset : Nat} {replacement : List UInt8}
    (inside : offset + replacement.length ≤ image.size) :
    (image.replace offset replacement).toList =
      image.toList.take offset ++ replacement ++
        image.toList.drop (offset + replacement.length) :=
  toList_overwrite image.bytes offset replacement inside

/-- Replace bytes inside the image. -/
def patch (image : Image) (offset : Nat) (replacement : List UInt8) : Except Error Image :=
  if offset + replacement.length ≤ image.size then .ok (image.replace offset replacement)
  else .error (.outOfRange offset (min replacement.length (sizeLimit - 1)) image.size)

/-- Replace a number of so many bytes inside the image. -/
def patchNumber (image : Image) (offset width value : Nat) : Except Error Image :=
  image.patch offset (LittleEndian.encode width value)

end Image

end TagTree
