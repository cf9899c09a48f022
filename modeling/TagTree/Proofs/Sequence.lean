import Mathlib.Data.Nat.Digits.Defs
import TagTree.Proofs.Truncation

/-!
# Images as sequences of bytes

An image answers every request as a plain sequence of bytes does, for which places and lengths are
natural numbers of any size. What does not fit is refused with the place, the length and the size,
and nothing changes by that. So bytes that were put somewhere are found there again until others
are put over them.
-/

namespace TagTree

/-- What is asked of an image. A number is read and written with so many bytes. -/
inductive Request where
  | append (bytes : List UInt8)
  | appendNumber (width value : Nat)
  | reserve (count : Nat)
  | patch (offset : Nat) (bytes : List UInt8)
  | patchNumber (offset width value : Nat)
  | read (offset length : Nat)
  | readNumber (offset width : Nat)

namespace Sequence

/-- The digits of a number to the base 256, the lowest first. -/
def digits (width value : Nat) : List UInt8 :=
  (List.range width).map fun place => UInt8.ofNat (value / 256 ^ place)

/-- The number with certain digits to the base 256, the lowest first. -/
def ofDigits (bytes : List UInt8) : Nat :=
  Nat.ofDigits 256 (bytes.map UInt8.toNat)

end Sequence

namespace Request

/-- The bytes that a request adds at the end. -/
def added? : Request → Option (List UInt8)
  | append bytes => some bytes
  | appendNumber width value => some (Sequence.digits width value)
  | reserve count => some (List.replicate count 0)
  | _ => none

/-- The bytes that a request puts over others, and where. -/
def patched? : Request → Option (Nat × List UInt8)
  | patch offset bytes => some (offset, bytes)
  | patchNumber offset width value => some (offset, Sequence.digits width value)
  | _ => none

/-- A request puts certain bytes to a place, where there are so many bytes before. -/
def Puts (request : Request) (size place : Nat) (bytes : List UInt8) : Prop :=
  request.added? = some bytes ∧ place = size ∨ request.patched? = some (place, bytes)

/-- A request puts nothing over a stretch. -/
def Spares (request : Request) (place length : Nat) : Prop :=
  ∀ offset bytes, request.patched? = some (offset, bytes) →
    offset + bytes.length ≤ place ∨ place + length ≤ offset

end Request

/-- What is answered to a request that is not refused. -/
inductive Reply where
  | done
  | bytes (bytes : List UInt8)
  | number (value : Nat)
  deriving DecidableEq, Repr

/-- The answer to a request and the state afterwards. -/
abbrev Outcome (σ : Type) : Type :=
  Except Error Reply × σ

/-- A change is made or is refused, and then the state stays. -/
def Outcome.ofChange {σ : Type} (before : σ) : Except Error σ → Outcome σ
  | .ok after => (.ok .done, after)
  | .error cause => (.error cause, before)

/-- The answers to requests made one after the other, and the last state. -/
def performAll {σ : Type} (perform : σ → Request → Outcome σ) :
    (state : σ) → List Request → List (Except Error Reply) × σ
  | state, [] => ([], state)
  | state, request :: rest =>
      let (answer, next) := perform state request
      let (answers, last) := performAll perform next rest
      (answer :: answers, last)

/-- What an image does on request. -/
def Image.perform (image : Image) : Request → Outcome Image
  | .append bytes => .ofChange image (image.append bytes)
  | .appendNumber width value => .ofChange image (image.appendNumber width value)
  | .reserve count => .ofChange image (image.reserve count)
  | .patch offset bytes => .ofChange image (image.patch offset bytes)
  | .patchNumber offset width value => .ofChange image (image.patchNumber offset width value)
  | .read offset length => ((image.slice offset length).map .bytes, image)
  | .readNumber offset width => ((image.number offset width).map .number, image)

/-! ## Plain sequences -/

namespace Sequence

/-- Bytes at the end, as long as there are fewer than 2 ^ 32 of them. -/
def append (bytes added : List UInt8) : Except Error (List UInt8) :=
  if bytes.length + added.length < 2 ^ 32 then .ok (bytes ++ added)
  else .error (.outOfRange bytes.length (min added.length (2 ^ 32 - 1)) bytes.length)

/-- Other bytes in place of so many from an offset on. -/
def patch (bytes : List UInt8) (offset : Nat) (replacement : List UInt8) :
    Except Error (List UInt8) :=
  if offset + replacement.length ≤ bytes.length then
    .ok (bytes.take offset ++ replacement ++ bytes.drop (offset + replacement.length))
  else .error (.outOfRange offset (min replacement.length (2 ^ 32 - 1)) bytes.length)

/-- So many bytes from an offset on. -/
def read (bytes : List UInt8) (offset length : Nat) : Except Error (List UInt8) :=
  if offset + length ≤ bytes.length then .ok ((bytes.drop offset).take length)
  else .error (.outOfRange offset length bytes.length)

/-- What a sequence of bytes does on request. -/
def perform (bytes : List UInt8) : Request → Outcome (List UInt8)
  | .append added => .ofChange bytes (append bytes added)
  | .appendNumber width value => .ofChange bytes (append bytes (digits width value))
  | .reserve count => .ofChange bytes (append bytes (List.replicate count 0))
  | .patch offset replacement => .ofChange bytes (patch bytes offset replacement)
  | .patchNumber offset width value => .ofChange bytes (patch bytes offset (digits width value))
  | .read offset length => ((read bytes offset length).map .bytes, bytes)
  | .readNumber offset width => ((read bytes offset width).map (.number ∘ ofDigits), bytes)

theorem encode_eq_digits (width value : Nat) :
    LittleEndian.encode width value = digits width value := by
  induction width generalizing value with
  | zero => rfl
  | succ width ih =>
      rw [LittleEndian.encode, ih, digits, digits, List.range_succ_eq_map, List.map_cons,
        List.map_map, Nat.pow_zero, Nat.div_one]
      congr 1
      apply List.map_congr_left
      intro place _
      rw [Function.comp_apply, Nat.div_div_eq_div_mul, ← Nat.pow_succ']

theorem decode_eq_ofDigits (bytes : List UInt8) : LittleEndian.decode bytes = ofDigits bytes := by
  induction bytes with
  | nil => rfl
  | cons byte rest ih =>
      rw [LittleEndian.decode, ih, ofDigits, ofDigits, List.map_cons, Nat.ofDigits_cons]

theorem span_eq_pow (width : Nat) : LittleEndian.span width = 256 ^ width := by
  induction width with
  | zero => rfl
  | succ width ih => rw [LittleEndian.span, ih, Nat.pow_succ']

@[simp] theorem length_digits (width value : Nat) : (digits width value).length = width := by
  simp [digits]

/-- A number is got back from as many digits as it has. -/
theorem ofDigits_digits {width value : Nat} (small : value < 256 ^ width) :
    ofDigits (digits width value) = value := by
  rw [← decode_eq_ofDigits, ← encode_eq_digits, LittleEndian.decode_encode, span_eq_pow,
    Nat.mod_eq_of_lt small]

end Sequence

/-! ## One request -/

namespace Image

variable {image start : Image} {request : Request}

theorem append_map_toList (image : Image) (added : List UInt8) :
    (image.append added).map toList = Sequence.append image.toList added := by
  rw [append, Sequence.append]
  by_cases room : image.HasRoom added.length
  · have fits : image.toList.length + added.length < 2 ^ 32 := room
    rw [dif_pos room, if_pos fits, Except.map, toList_extend]
  · have tooLong : ¬image.toList.length + added.length < 2 ^ 32 := room
    rw [dif_neg room, if_neg tooLong]
    rfl

theorem patch_map_toList (image : Image) (offset : Nat) (replacement : List UInt8) :
    (image.patch offset replacement).map toList =
      Sequence.patch image.toList offset replacement := by
  rw [patch, Sequence.patch, length_toList]
  by_cases inside : offset + replacement.length ≤ image.size
  · rw [if_pos inside, if_pos inside, Except.map, toList_replace image inside]
  · rw [if_neg inside, if_neg inside]
    rfl

theorem slice_eq_read (image : Image) (offset length : Nat) :
    image.slice offset length = Sequence.read image.toList offset length := by
  rw [Sequence.read, length_toList]
  by_cases inside : offset + length ≤ image.size
  · rw [slice_of_le image inside, if_pos inside]
  · rw [slice_of_lt image (Nat.not_le.mp inside), if_neg inside]

theorem number_eq_read (image : Image) (offset width : Nat) :
    image.number offset width =
      (Sequence.read image.toList offset width).map Sequence.ofDigits := by
  rw [number, slice_eq_read]
  congr
  funext bytes
  exact Sequence.decode_eq_ofDigits bytes

/-- A change is answered by what it makes of the bytes. -/
theorem ofChange_map_toList (image : Image) (changed : Except Error Image) :
    Outcome.ofChange image.toList (changed.map toList) =
      ((Outcome.ofChange image changed).1, (Outcome.ofChange image changed).2.toList) := by
  cases changed with
  | error cause => rfl
  | ok after => rfl

/-- A request is answered as a plain sequence answers it, and changes the bytes as it does. -/
theorem perform_toList (image : Image) (request : Request) :
    Sequence.perform image.toList request =
      ((image.perform request).1, (image.perform request).2.toList) := by
  cases request with
  | append bytes =>
      rw [Sequence.perform, ← append_map_toList, ofChange_map_toList, perform]
  | appendNumber width value =>
      rw [Sequence.perform, ← Sequence.encode_eq_digits, ← append_map_toList, ofChange_map_toList,
        perform, appendNumber]
  | reserve count =>
      rw [Sequence.perform, ← append_map_toList, ofChange_map_toList, perform, reserve_eq_append]
  | patch offset bytes =>
      rw [Sequence.perform, ← patch_map_toList, ofChange_map_toList, perform]
  | patchNumber offset width value =>
      rw [Sequence.perform, ← Sequence.encode_eq_digits, ← patch_map_toList, ofChange_map_toList,
        perform, patchNumber]
  | read offset length => rw [Sequence.perform, perform, slice_eq_read]
  | readNumber offset width =>
      rw [Sequence.perform, perform, number_eq_read]
      cases Sequence.read image.toList offset width with
      | error cause => rfl
      | ok bytes => rfl

/-- Nothing changes where a request is refused, not even the space that is set aside. -/
theorem perform_of_error {cause : Error} (refused : (image.perform request).1 = .error cause) :
    (image.perform request).2 = image := by
  have kept : ∀ changed : Except Error Image,
      (Outcome.ofChange image changed).1 = .error cause →
        (Outcome.ofChange image changed).2 = image := by
    intro changed refused
    cases changed with
    | error cause => rfl
    | ok after => cases refused
  cases request with
  | read => rfl
  | readNumber => rfl
  | append => exact kept _ refused
  | appendNumber => exact kept _ refused
  | reserve => exact kept _ refused
  | patch => exact kept _ refused
  | patchNumber => exact kept _ refused

/-! ## What was put somewhere -/

section Put

variable {added bytes : List UInt8} {offset place : Nat} {after : Image}

theorem perform_of_added (adds : request.added? = some added) :
    image.perform request = .ofChange image (image.append added) := by
  cases request with
  | append bytes =>
      cases adds
      rfl
  | appendNumber width value =>
      cases adds
      rw [perform, appendNumber, Sequence.encode_eq_digits]
  | reserve count =>
      cases adds
      rw [perform, reserve_eq_append]
  | _ => cases adds

theorem perform_of_patched (patches : request.patched? = some (offset, bytes)) :
    image.perform request = .ofChange image (image.patch offset bytes) := by
  cases request with
  | patch offset bytes =>
      cases patches
      rfl
  | patchNumber offset width value =>
      cases patches
      rw [perform, patchNumber, Sequence.encode_eq_digits]
  | _ => cases patches

/-- A request that puts nothing anywhere only reads. -/
theorem perform_of_neither (addsNone : request.added? = none)
    (patchesNone : request.patched? = none) : (image.perform request).2 = image := by
  cases request with
  | read => rfl
  | readNumber => rfl
  | append => cases addsNone
  | appendNumber => cases addsNone
  | reserve => cases addsNone
  | patch => cases patchesNone
  | patchNumber => cases patchesNone

theorem toList_of_append (ran : image.append added = .ok after) :
    after.toList = image.toList ++ added := by
  have made := image.append_map_toList added
  rw [ran, Sequence.append] at made
  split at made
  · exact Except.ok.inj made
  · cases made

theorem toList_of_patch (ran : image.patch offset bytes = .ok after) :
    offset + bytes.length ≤ image.size ∧
      after.toList =
        image.toList.take offset ++ bytes ++ image.toList.drop (offset + bytes.length) := by
  have made := image.patch_map_toList offset bytes
  rw [ran, Sequence.patch] at made
  split at made
  · next inside => exact ⟨inside, Except.ok.inj made⟩
  · cases made

/-- Bytes that are put somewhere stand there. -/
theorem holds_of_puts (puts : request.Puts image.size place bytes)
    (done : (image.perform request).1 = .ok .done) :
    (image.perform request).2.Holds place bytes := by
  rcases puts with ⟨adds, rfl⟩ | patches
  · rw [perform_of_added adds] at done ⊢
    cases ran : image.append bytes with
    | error cause =>
        rw [ran] at done
        cases done
    | ok after =>
        refine ⟨image.toList, [], ?_, rfl⟩
        rw [List.append_nil]
        exact toList_of_append ran
  · rw [perform_of_patched patches] at done ⊢
    cases ran : image.patch place bytes with
    | error cause =>
        rw [ran] at done
        cases done
    | ok after =>
        obtain ⟨inside, made⟩ := toList_of_patch ran
        refine ⟨_, _, made, ?_⟩
        rw [List.length_take, length_toList]
        omega

/-- Bytes stay where they stand when others are put before or behind them. -/
theorem Holds.of_patch {replacement : List UInt8} (holds : image.Holds place bytes)
    (ran : image.patch offset replacement = .ok after)
    (apart : offset + replacement.length ≤ place ∨ place + bytes.length ≤ offset) :
    after.Holds place bytes := by
  obtain ⟨inside, made⟩ := toList_of_patch ran
  obtain ⟨front, back, split, rfl⟩ := holds
  rcases apart with before | behind
  · refine ⟨front.take offset ++ replacement ++ front.drop (offset + replacement.length), back,
      ?_, ?_⟩
    · rw [made, split, List.append_assoc front, List.take_append_of_le_length (by omega),
        List.drop_append_of_le_length before]
      simp only [List.append_assoc]
    · simp only [List.length_append, List.length_take, List.length_drop]
      omega
  · obtain ⟨gap, rfl⟩ := Nat.exists_eq_add_of_le behind
    refine ⟨front, back.take gap ++ replacement ++ back.drop (gap + replacement.length), ?_, rfl⟩
    have length : (front ++ bytes).length = front.length + bytes.length := List.length_append
    rw [made, split, Nat.add_assoc _ gap, ← length, List.take_length_add_append,
      List.drop_length_add_append]
    simp only [List.append_assoc]

/-- Bytes stay where they stand when a request spares them. -/
theorem Holds.perform (holds : image.Holds place bytes)
    (spares : request.Spares place bytes.length) : (image.perform request).2.Holds place bytes := by
  cases adds : request.added? with
  | some added =>
      rw [perform_of_added adds]
      cases ran : image.append added with
      | error cause => exact holds
      | ok after =>
          have cut : image.CutFrom after := ⟨added, (toList_of_append ran).symm⟩
          exact cut.holds holds
  | none =>
      cases patches : request.patched? with
      | some patched =>
          obtain ⟨offset, replacement⟩ := patched
          rw [perform_of_patched patches]
          cases ran : image.patch offset replacement with
          | error cause => exact holds
          | ok after => exact holds.of_patch ran (spares offset replacement patches)
      | none =>
          rw [perform_of_neither adds patches]
          exact holds

end Put

/-! ## Many requests -/

/-- Requests made one after the other are answered as a plain sequence answers them. -/
theorem performAll_toList (image : Image) (requests : List Request) :
    performAll Sequence.perform image.toList requests =
      ((performAll perform image requests).1, (performAll perform image requests).2.toList) := by
  induction requests generalizing image with
  | nil => rfl
  | cons request rest ih =>
      rw [performAll, perform_toList]
      dsimp only
      rw [ih]
      rfl

/-- The image after some requests. -/
def afterAll (start : Image) (requests : List Request) : Image :=
  (performAll perform start requests).2

theorem afterAll_append (start : Image) (requests later : List Request) :
    start.afterAll (requests ++ later) = (start.afterAll requests).afterAll later := by
  induction requests generalizing start with
  | nil => rfl
  | cons request rest ih => exact ih (start.perform request).2

/-- No request that is granted puts anything over a stretch. -/
def SparedBy (place length : Nat) : (image : Image) → List Request → Prop
  | _, [] => True
  | image, request :: rest =>
      ((image.perform request).1.isOk = true → request.Spares place length) ∧
        SparedBy place length (image.perform request).2 rest

theorem Holds.afterAll {place : Nat} {bytes : List UInt8} {requests : List Request}
    (holds : image.Holds place bytes) (spared : image.SparedBy place bytes.length requests) :
    (image.afterAll requests).Holds place bytes := by
  induction requests generalizing image with
  | nil => exact holds
  | cons request rest ih =>
      obtain ⟨spares, others⟩ := spared
      apply ih ?_ others
      cases answer : (image.perform request).1 with
      | error cause =>
          rw [perform_of_error answer]
          exact holds
      | ok reply =>
          rw [answer] at spares
          exact holds.perform (spares rfl)

/-- An image is new, or it is made of bytes. -/
inductive Starts : Image → List UInt8 → Prop where
  | empty (capacity : Nat) : Starts (.withCapacity capacity) []
  | loaded {bytes : List UInt8} {image : Image} (kept : ofList bytes = .ok image) :
      Starts image bytes

theorem Starts.toList_eq {bytes : List UInt8} (starts : image.Starts bytes) :
    image.toList = bytes := by
  cases starts with
  | empty capacity => rfl
  | loaded kept => exact toList_of_ofList kept

/-- Requests to an image are answered as if it were the plain sequence of its bytes. A refused
request changes nothing, and bytes that were put somewhere are read from there until a request puts
others over them, as is a number that was written with them. -/
structure BehavesAs (start : Image) (first : List UInt8) (requests : List Request) : Prop where
  answers : (performAll perform start requests).1 = (performAll Sequence.perform first requests).1
  contents : (start.afterAll requests).toList = (performAll Sequence.perform first requests).2
  unchanged : ∀ request cause, ((start.afterAll requests).perform request).1 = .error cause →
    start.afterAll (requests ++ [request]) = start.afterAll requests
  found : ∀ put place bytes later, put.Puts (start.afterAll requests).size place bytes →
    ((start.afterAll requests).perform put).1 = .ok .done →
      ((start.afterAll requests).perform put).2.SparedBy place bytes.length later →
        ((start.afterAll (requests ++ put :: later)).perform (.read place bytes.length)).1 =
            .ok (.bytes bytes) ∧
          ∀ width value, bytes = Sequence.digits width value → value < 256 ^ width →
            ((start.afterAll (requests ++ put :: later)).perform (.readNumber place width)).1 =
              .ok (.number value)

/-- Every run of requests to an image is a run of requests to a plain sequence of bytes. -/
theorem behavesAs {first : List UInt8} (starts : start.Starts first) (requests : List Request) :
    start.BehavesAs first requests := by
  have run := performAll_toList start requests
  rw [starts.toList_eq] at run
  constructor
  · rw [run]
  · rw [run]
    rfl
  · intro request cause refused
    rw [afterAll_append]
    exact perform_of_error refused
  · intro put place bytes later puts done spared
    rw [afterAll_append]
    have holds : ((start.afterAll requests).afterAll (put :: later)).Holds place bytes :=
      (holds_of_puts puts done).afterAll spared
    constructor
    · rw [perform, holds.slice]
      rfl
    · rintro width value rfl small
      have read := holds.slice
      rw [Sequence.length_digits] at read
      rw [perform, number_eq_read, ← slice_eq_read, read]
      exact congrArg (Except.ok ∘ Reply.number) (Sequence.ofDigits_digits small)

/-- Two bytes that are put over the middle of a number, and reads before, across and behind the
end. -/
def sampleRequests : List Request := [
  .appendNumber 4 0x04030201, .patch 1 [0xBB, 0xAA], .readNumber 1 2, .read 4 0, .read 3 2,
  .patchNumber 3 2 0, .reserve 2, .readNumber 2 4]

theorem behavesAs_sampleRequests :
    (withCapacity 0).Starts [] ∧ (withCapacity 0).BehavesAs [] sampleRequests :=
  ⟨.empty 0, behavesAs (.empty 0) sampleRequests⟩

end Image

end TagTree
