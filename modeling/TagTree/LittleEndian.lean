/-!
# Little-endian numbers

A number of `width` bytes is written with its least significant byte first. `decode_encode` says
that reading what was written gives the number modulo `span width`, and `encode_decode` that the
bytes can be got back from the number, so writing and reading are inverse on the numbers that fit.
-/

namespace TagTree.LittleEndian

/-- How many numbers can be written with `width` bytes. -/
def span : (width : Nat) → Nat
  | 0 => 1
  | width + 1 => 256 * span width

/-- The `width` lowest bytes of `value`, least significant first. -/
def encode : (width : Nat) → (value : Nat) → List UInt8
  | 0, _ => []
  | width + 1, value => UInt8.ofNat value :: encode width (value / 256)

/-- The number whose bytes, least significant first, are given. -/
def decode : List UInt8 → Nat
  | [] => 0
  | byte :: rest => byte.toNat + 256 * decode rest

@[simp] theorem length_encode (width value : Nat) : (encode width value).length = width := by
  induction width generalizing value with
  | zero => rfl
  | succ width ih => simp [encode, ih]

/-- Reading back what was written loses exactly the bytes beyond `width`. -/
theorem decode_encode (width value : Nat) : decode (encode width value) = value % span width := by
  induction width generalizing value with
  | zero => simp [encode, decode, span, Nat.mod_one]
  | succ width ih =>
      simp only [encode, decode, ih, UInt8.toNat_ofNat', span]
      exact Nat.mod_mul.symm

theorem decode_lt (bytes : List UInt8) : decode bytes < span bytes.length := by
  induction bytes with
  | nil => simp [decode, span]
  | cons byte rest ih =>
      have byteLt := byte.toNat_lt
      simp only [decode, List.length_cons, span]
      omega

/-- A byte sequence is what writing its own number gives. -/
theorem encode_decode (bytes : List UInt8) : encode bytes.length (decode bytes) = bytes := by
  induction bytes with
  | nil => rfl
  | cons byte rest ih =>
      have byteLt := byte.toNat_lt
      have quotient : (byte.toNat + 256 * decode rest) / 256 = decode rest := by omega
      have lowest : UInt8.ofNat (byte.toNat + 256 * decode rest) = byte := by
        apply UInt8.toNat_inj.mp
        simp only [UInt8.toNat_ofNat']
        omega
      simp only [List.length_cons, decode, encode, quotient, ih, lowest]

end TagTree.LittleEndian
