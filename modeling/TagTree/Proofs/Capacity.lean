import Mathlib.Order.Bounds.Basic
import TagTree.Proofs.Exhaustion
import TagTree.Proofs.Sequence

/-!
# Space that is set aside

The space that is set aside for an image is what it was at the beginning, doubled as often as its
bytes need it and no more often. So it follows from the number of bytes alone, whatever the requests
were that brought them. Doubling goes on in 64-bit words that stop at the largest of them, which is
never reached for a number of bytes that has 32 bits.
-/

namespace TagTree

namespace Image

/-! ## Doubling in words -/

/-- The largest 64-bit word. -/
def largestWord : Nat := 2 ^ 64 - 1

/-- Twice a word, or the largest word where that is no word. -/
def twice (capacity : Nat) : Nat :=
  min (2 * capacity) largestWord

/-- Doubling a word as long as it is less than required ends with a certain word. -/
inductive DoublesTo (required : Nat) : (capacity last : Nat) → Prop where
  | enough {capacity : Nat} (holds : required ≤ capacity) : DoublesTo required capacity capacity
  | again {capacity last : Nat} (short : capacity < required)
      (further : DoublesTo required (twice capacity) last) : DoublesTo required capacity last

section Doubling

variable {required capacity last : Nat}

theorem twice_of_lt (small : required < sizeLimit) (short : capacity < required) :
    twice capacity = 2 * capacity := by
  apply Nat.min_eq_left
  have limit : sizeLimit = 2 ^ 32 := rfl
  rw [largestWord]
  omega

/-- Doubling ends for every number of bytes that an image can have. -/
theorem doublesTo_doubled (small : required < sizeLimit) (positive : 0 < capacity) :
    DoublesTo required capacity (doubled required capacity positive) := by
  fun_induction doubled required capacity positive with
  | case1 capacity positive holds => exact .enough holds
  | case2 capacity positive notYet ih =>
      have short : capacity < required := Nat.not_le.mp notYet
      apply DoublesTo.again short
      rw [twice_of_lt small short]
      exact ih

theorem DoublesTo.unique {other : Nat} (doubles : DoublesTo required capacity last)
    (doubles' : DoublesTo required capacity other) : last = other := by
  induction doubles with
  | enough holds =>
      cases doubles' with
      | enough => rfl
      | again short => exact absurd holds (Nat.not_le.mpr short)
  | again short further ih =>
      cases doubles' with
      | enough holds => exact absurd holds (Nat.not_le.mpr short)
      | again _ further' => exact ih further'

theorem doublesTo_iff (small : required < sizeLimit) (positive : 0 < capacity) :
    DoublesTo required capacity last ↔ last = doubled required capacity positive := by
  constructor
  · intro doubles
    exact doubles.unique (doublesTo_doubled small positive)
  · rintro rfl
    exact doublesTo_doubled small positive

/-- Doubling is multiplying by the least power of two that is enough. -/
theorem doubled_eq_mul_two_pow (required capacity : Nat) (positive : 0 < capacity) :
    ∃ times, IsLeast {times | required ≤ capacity * 2 ^ times} times ∧
      doubled required capacity positive = capacity * 2 ^ times := by
  fun_induction doubled required capacity positive with
  | case1 capacity positive holds =>
      refine ⟨0, ⟨?_, fun times _ => Nat.zero_le times⟩, ?_⟩
      · simpa using holds
      · rw [pow_zero, Nat.mul_one]
  | case2 capacity positive notYet ih =>
      obtain ⟨times, ⟨enough, least⟩, same⟩ := ih
      have shift (others : Nat) : 2 * capacity * 2 ^ others = capacity * 2 ^ (others + 1) := by
        rw [pow_succ', ← Nat.mul_assoc, Nat.mul_comm 2]
      refine ⟨times + 1, ⟨?_, ?_⟩, same.trans (shift times)⟩
      · rw [Set.mem_ofPred_eq, ← shift]
        exact enough
      · intro others isEnough
        cases others with
        | zero => exact absurd (by simpa using isEnough) notYet
        | succ others =>
            rw [Set.mem_ofPred_eq, ← shift] at isEnough
            exact Nat.succ_le_succ (least isEnough)

end Doubling

/-! ## One request -/

variable {image start : Image} {base : Nat}

/-- The number of bytes that a request adds, which is none if it is refused. -/
def growth (image : Image) (request : Request) : Nat :=
  match (image.perform request).1, request.added? with
  | .ok _, some added => added.length
  | _, _ => 0

/-- Bytes are refused, or the image grows by them and has its space doubled as often as it takes. -/
theorem append_cases (image : Image) (added : List UInt8) :
    (∃ cause, image.append added = .error cause) ∨
      ∃ after, image.append added = .ok after ∧ after.size = image.size + added.length ∧
        after.capacity = doubled after.size image.capacity image.capacity_pos := by
  rw [append]
  by_cases room : image.HasRoom added.length
  · refine .inr ⟨image.extend added room, dif_pos room, size_extend image added room, ?_⟩
    rw [size_extend]
    rfl
  · exact .inl ⟨_, dif_neg room⟩

theorem doubled_size (image : Image) :
    doubled image.size image.capacity image.capacity_pos = image.capacity := by
  rw [doubled]
  exact if_pos image.size_le_capacity

/-- A request changes the number of bytes by what it adds, and doubles the space as often as it
takes. -/
theorem perform_size (image : Image) (request : Request) :
    (image.perform request).2.size = image.size + image.growth request ∧
      (image.perform request).2.capacity =
        doubled (image.perform request).2.size image.capacity image.capacity_pos := by
  rw [growth]
  cases adds : request.added? with
  | some added =>
      rw [perform_of_added adds]
      obtain ⟨cause, refused⟩ | ⟨after, ran, size, capacity⟩ := image.append_cases added
      · rw [refused]
        exact ⟨rfl, (doubled_size image).symm⟩
      · rw [ran]
        exact ⟨size, capacity⟩
  | none =>
      have same : (image.perform request).2.size = image.size ∧
          (image.perform request).2.capacity = image.capacity := by
        cases patches : request.patched? with
        | none => rw [perform_of_neither adds patches]; exact ⟨rfl, rfl⟩
        | some patched =>
            obtain ⟨offset, replacement⟩ := patched
            rw [perform_of_patched patches, patch]
            split
            · exact ⟨size_replace _ offset replacement, capacity_replace _ offset replacement⟩
            · exact ⟨rfl, rfl⟩
      rw [same.1, same.2, doubled_size]
      cases (image.perform request).1 <;> exact ⟨rfl, rfl⟩

/-! ## Many requests -/

/-- The number of bytes that requests add, one after the other. -/
def totalGrowth : (image : Image) → List Request → Nat
  | _, [] => 0
  | image, request :: rest =>
      image.growth request + totalGrowth (image.perform request).2 rest

theorem size_afterAll (start : Image) (requests : List Request) :
    (start.afterAll requests).size = start.size + start.totalGrowth requests := by
  induction requests generalizing start with
  | nil => rfl
  | cons request rest ih =>
      have step := (start.perform_size request).1
      change ((start.perform request).2.afterAll rest).size = _
      rw [ih, step, totalGrowth, Nat.add_assoc]

theorem size_le_size_afterAll (start : Image) (requests : List Request) :
    start.size ≤ (start.afterAll requests).size := by
  rw [size_afterAll]
  exact Nat.le_add_right _ _

/-- The space after some requests is the space before, doubled for the bytes after. -/
theorem capacity_afterAll (start : Image) (requests : List Request) :
    (start.afterAll requests).capacity =
      doubled (start.afterAll requests).size start.capacity start.capacity_pos := by
  induction requests generalizing start with
  | nil => exact (doubled_size start).symm
  | cons request rest ih =>
      let next := (start.perform request).2
      have step : next.capacity = doubled next.size start.capacity start.capacity_pos :=
        (start.perform_size request).2
      change (next.afterAll rest).capacity = doubled (next.afterAll rest).size _ _
      rw [ih]
      simp only [step]
      exact doubled_doubled (size_le_size_afterAll next rest) _ _ _

/-- An image at its beginning and the space it has there: as much as was asked for or as its bytes
take, and one byte if that is none. -/
inductive Begins : Image → Nat → Prop where
  | empty (capacity : Nat) : Begins (.withCapacity capacity) (max capacity 1)
  | loaded {bytes : List UInt8} {image : Image} (kept : ofList bytes = .ok image) :
      Begins image (max bytes.length 1)

theorem Begins.capacity_eq (begins : start.Begins base) : start.capacity = base := by
  cases begins with
  | empty capacity => rfl
  | loaded kept =>
      rw [ofList] at kept
      split at kept
      · cases kept
        rfl
      · cases kept

/-- After some requests the space is the first of `base`, `2 * base`, `4 * base`, … that holds the
bytes. Doubling it for further bytes ends, with the space that there is then, and never meets the
largest word on the way. Other requests that add as many bytes lead to the same space. -/
structure DoublesFrom (start : Image) (base : Nat) (requests : List Request) : Prop where
  positive : 0 < base
  capacity : ∃ times,
    IsLeast {times | (start.afterAll requests).size ≤ base * 2 ^ times} times ∧
      (start.afterAll requests).capacity = base * 2 ^ times
  holds : (start.afterAll requests).size ≤ (start.afterAll requests).capacity
  doubles : ∀ request added, request.added? = some added →
    (start.afterAll requests).size + added.length < 2 ^ 32 →
      (∀ last, DoublesTo ((start.afterAll requests).size + added.length)
          (start.afterAll requests).capacity last ↔
        last = ((start.afterAll requests).perform request).2.capacity) ∧
      ∀ short < (start.afterAll requests).size + added.length, twice short = 2 * short
  chunking : ∀ others, start.totalGrowth others = start.totalGrowth requests →
    (start.afterAll others).capacity = (start.afterAll requests).capacity

/-- The space follows from the beginning and the number of bytes, whatever the requests are. -/
theorem doublesFrom (begins : start.Begins base) (requests : List Request) :
    start.DoublesFrom base requests := by
  obtain rfl := begins.capacity_eq
  constructor
  · exact start.capacity_pos
  · rw [capacity_afterAll]
    exact doubled_eq_mul_two_pow _ _ _
  · exact (start.afterAll requests).size_le_capacity
  · intro request added adds small
    constructor
    · intro last
      have room : (start.afterAll requests).HasRoom added.length := small
      rw [doublesTo_iff small (start.afterAll requests).capacity_pos, perform_of_added adds, append,
        dif_pos room]
      rfl
    · intro short isShort
      exact twice_of_lt small isShort
  · intro others same
    rw [capacity_afterAll, capacity_afterAll]
    simp only [size_afterAll, same]

/-- A number, nothing at all, a patch that is refused, and bytes for which the space is doubled
three times at once. -/
def growingRequests : List Request := [
  .appendNumber 4 7, .append [], .patch 2 [1, 2, 3], .reserve 20, .readNumber 20 4]

theorem doublesFrom_growingRequests :
    (withCapacity 0).Begins 1 ∧ (withCapacity 0).DoublesFrom 1 growingRequests :=
  ⟨.empty 0, doublesFrom (.empty 0) growingRequests⟩

end Image

end TagTree
