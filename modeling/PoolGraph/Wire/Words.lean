import PoolGraph.Wire.Decode
import PoolGraph.Wire.Encode

/-!
# Variable-length integers in words

The variable-length integers of the binary form by shifts of words of 64 bits.  `Word.gather?` reads
groups of seven bits into a word and `Word.scatter` writes them; `Word.zigzag` and `Word.unzigzag`
fold the sign of an integer into its lowest bit and back.  A shift by as many places as a word has,
or more, has no result.
-/

namespace PoolGraph.Word

/-- The word moved to the left, by fewer places than it has. -/
def shiftLeft? (word : UInt64) (places : Nat) : Option UInt64 :=
  if places < 64 then some (word <<< UInt64.ofNat places) else none

/-- Reads groups of seven bits, low groups first, the first of which goes `places` places to the
left into a word that holds those before.  The group at place 63 has room for one bit. -/
def gather? (word : UInt64) (places : Nat) :
    List UInt8 → Option (Except CodecError UInt64 × List UInt8)
  | [] => some (.error .endOfData, [])
  | b :: rest =>
    if places = 63 ∧ 1 < b then some (.error .varIntOverflow, rest)
    else do
      let word := word ||| (← shiftLeft? (b &&& 127).toUInt64 places)
      if b &&& 128 = 0 then some (.ok word, rest) else gather? word (places + 7) rest

theorem toNat_shiftRight_seven (word : UInt64) :
  (word >>> 7).toNat = word.toNat / 128
  := by
  have places : (7 : UInt64).toNat % 64 = 7 := rfl
  rw [UInt64.toNat_shiftRight, places, Nat.shiftRight_eq_div_pow]

/-- The groups of seven bits of a word, low groups first, each but the last marked by the high
bit. -/
def scatter (word : UInt64) : List UInt8 :=
  if _h : 128 ≤ word then (word.toUInt8 ||| 128) :: scatter (word >>> 7) else [word.toUInt8]
  termination_by word.toNat
  decreasing_by
    have large : 128 ≤ word.toNat := UInt64.le_iff_toNat_le.mp _h
    rw [toNat_shiftRight_seven]
    omega

/-- The sign of an integer folded into the lowest bit. -/
def zigzag (i : Int64) : UInt64 :=
  ((i <<< 1) ^^^ (i >>> 63)).toUInt64

/-- The integer with the given zig-zag word. -/
def unzigzag (word : UInt64) : Int64 :=
  (word >>> 1).toInt64 ^^^ -(word &&& 1).toInt64

end PoolGraph.Word
