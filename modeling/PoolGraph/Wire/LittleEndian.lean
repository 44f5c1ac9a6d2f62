import PoolGraph.Numbers

/-!
# Little-endian bytes

`LittleEndian.bytes w n` is the natural number `n` in `w` bytes, least significant first,
and `LittleEndian.value` reads such bytes back.  The two undo each other on numbers
below `256 ^ w` and on lists of length `w`.
-/

namespace PoolGraph.LittleEndian

/-- The `w` lowest bytes of `n`, least significant first. -/
def bytes : Nat → Nat → List UInt8
  | 0, _ => []
  | w + 1, n => UInt8.ofNat n :: bytes w (n / 256)

/-- The number that a list of bytes spells, least significant byte first. -/
def value : List UInt8 → Nat
  | [] => 0
  | b :: bs => b.toNat + 256 * value bs

@[simp]
theorem length_bytes (w n : Nat) :
  (bytes w n).length = w
  := by
  induction w generalizing n with
  | zero => rfl
  | succ w ih => simp [bytes, ih]

/-- The bytes of a number have it as their value, up to what they can hold. -/
theorem value_bytes (w n : Nat) :
  value (bytes w n) = n % 256 ^ w
  := by
  induction w generalizing n with
  | zero => simp [bytes, value, Nat.mod_one]
  | succ w ih =>
    have byte : (UInt8.ofNat n).toNat = n % 256 := UInt8.toNat_ofNat'
    rw [bytes, value, ih, byte, Nat.pow_succ', Nat.mod_mul]

/-- Some bytes hold no number beyond their length. -/
theorem value_lt (bs : List UInt8) :
  value bs < 256 ^ bs.length
  := by
  induction bs with
  | nil => simp [value]
  | cons b bs ih =>
    have hb : b.toNat < 256 := b.toNat_lt
    rw [value, List.length_cons, Nat.pow_succ]
    omega

/-- Bytes are those of their value. -/
theorem bytes_value (bs : List UInt8) :
  bytes bs.length (value bs) = bs
  := by
  induction bs with
  | nil => rfl
  | cons b bs ih =>
    have hb : b.toNat < 256 := b.toNat_lt
    rw [List.length_cons, bytes, value]
    congr 1
    · apply UInt8.toNat_inj.mp
      have byte : (UInt8.ofNat (b.toNat + 256 * value bs)).toNat = _ := UInt8.toNat_ofNat'
      omega
    · rw [show (b.toNat + 256 * value bs) / 256 = value bs by omega, ih]

end PoolGraph.LittleEndian
