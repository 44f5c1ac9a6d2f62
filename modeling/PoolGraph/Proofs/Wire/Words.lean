import Mathlib.Data.Nat.Bitwise
import PoolGraph.Proofs.Wire.VarInt
import PoolGraph.Wire.Words

/-!
# Variable-length integers in words

The shifts of words come to what the numbers say.  Groups that are gathered into a word add up to
the number that they spell, and no shift leaves the 64 places (`Word.gather?_zero`); the groups that
a word is scattered into are those of its number (`Word.scatter_eq`); and the words that fold signs
away are the zig-zag numbers, with no two integers on one word (`Word.unzigzag_zigzag`,
`Word.zigzag_unzigzag`).  Together with the spellings this makes the integers exact
(`varInts_exact`).
-/

namespace PoolGraph

namespace Word

/-! ### Bits -/

/-- Masking keeps the lower seven bits. -/
theorem toNat_and_127 (b : UInt8) :
  (b &&& 127).toNat = b.toNat % 128
  := by
  have mask : (127 : UInt8).toNat = 2 ^ 7 - 1 := rfl
  rw [UInt8.toNat_and, mask, Nat.and_two_pow_sub_one_eq_mod]

/-- The highest bit of a byte is clear below 128. -/
theorem and_128_eq_zero_iff (b : UInt8) :
  b &&& 128 = 0 ↔ b < 128
  := by
  have mask : (128 : UInt8).toNat = 2 ^ 7 := rfl
  have small := b.toNat_lt
  rw [← UInt8.toNat_inj, UInt8.toNat_and, UInt8.lt_iff_toNat_lt, mask, Nat.and_two_pow,
    Nat.testBit_eq_decide_div_mod_eq]
  by_cases low : b.toNat < 2 ^ 7
  · have bit : ¬ b.toNat / 2 ^ 7 % 2 = 1 := by omega
    simp [bit, low]
  · have bit : b.toNat / 2 ^ 7 % 2 = 1 := by omega
    simp [bit, low]

/-- A shift by fewer than 64 places is defined. -/
theorem shiftLeft?_of_lt {word : UInt64} {places : Nat} (inside : places < 64) :
  shiftLeft? word places = some (word <<< UInt64.ofNat places)
  := if_pos inside

/-- A byte with its continuation bit is the lowest group plus 128. -/
theorem toUInt8_or_128 (word : UInt64) :
  word.toUInt8 ||| 128 = UInt8.ofNat (word.toNat % 128 + 128)
  := by
  have marked : ∀ n < 256, n ||| 128 = n % 128 + 128 := by decide +kernel
  have byte := marked (word.toNat % 2 ^ 8) (Nat.mod_lt _ (by decide))
  have mask : (128 : UInt8).toNat = 128 := rfl
  apply UInt8.toNat_inj.mp
  rw [UInt8.toNat_or, UInt64.toNat_toUInt8, mask, byte, UInt8.toNat_ofNat']
  omega

/-- The lowest byte of a word is its remainder. -/
theorem toUInt8_eq_ofNat (word : UInt64) :
  word.toUInt8 = UInt8.ofNat word.toNat
  := by
  apply UInt8.toNat_inj.mp
  rw [UInt64.toNat_toUInt8, UInt8.toNat_ofNat']

/-- A group of seven bits is put in front of the bits that a word holds, if it fits. -/
theorem toNat_or_group {word : UInt64} {b : UInt8} {places : Nat} (inside : places < 64)
    (below : word.toNat < 2 ^ places) (fits : 2 ^ places * (b.toNat % 128) < 2 ^ 64) :
  (word ||| (b &&& 127).toUInt64 <<< UInt64.ofNat places).toNat
    = word.toNat + 2 ^ places * (b.toNat % 128)
  := by
  have count : (UInt64.ofNat places).toNat % 64 = places := by
    rw [UInt64.toNat_ofNat']
    omega
  rw [UInt64.toNat_or, UInt64.toNat_shiftLeft, count, UInt8.toNat_toUInt64, toNat_and_127,
    Nat.shiftLeft_eq, Nat.mul_comm (b.toNat % 128), Nat.mod_eq_of_lt fits, Nat.or_comm,
    ← Nat.two_pow_add_eq_or_of_lt below, Nat.add_comm]

/-! ### Reading -/

/-- One round takes a byte, puts its group in place, and goes on if the byte says so. -/
theorem gather?_cons (word : UInt64) {places : Nat} (inside : places < 64) {b : UInt8}
    (room : ¬(places = 63 ∧ 1 < b)) (rest : List UInt8) :
  gather? word places (b :: rest)
    = if b < 128 then some (.ok (word ||| (b &&& 127).toUInt64 <<< UInt64.ofNat places), rest)
      else gather? (word ||| (b &&& 127).toUInt64 <<< UInt64.ofNat places) (places + 7) rest
  := by
  rw [gather?, if_neg room, shiftLeft?_of_lt inside]
  simp only [Option.bind_eq_bind, Option.bind_some, and_128_eq_zero_iff]

/-- Shifting the groups into a word comes to the same as adding them up.  With the group at place 63
the last one is reached, and no shift goes further. -/
theorem gather?_eq {more places : Nat} (total : places + 7 * more = 63) {word : UInt64}
    (below : word.toNat < 2 ^ places) (input : List UInt8) :
  gather? word places input
    = some (((Decode.groups more).outcome input).1.map fun n =>
        UInt64.ofNat (word.toNat + 2 ^ places * n), ((Decode.groups more).outcome input).2)
  := by
  induction more generalizing places word input with
  | zero =>
    obtain rfl : places = 63 := by omega
    cases input with
    | nil => rfl
    | cons b rest =>
      rw [Decode.outcome_groups_zero]
      by_cases large : 1 < b
      · rw [gather?, if_pos ⟨rfl, large⟩, if_pos large]
        rfl
      · have least : b.toNat ≤ 1 := UInt8.le_iff_toNat_le.mp (UInt8.not_lt.mp large)
        have small : b.toNat < 128 := by omega
        have value := toNat_or_group (b := b) (by decide) below (by omega)
        rw [Nat.mod_eq_of_lt small] at value
        rw [gather?_cons word (by decide) (fun h => large h.2), if_neg large,
          if_pos (lt_128_iff.mpr small), Except.map, ← value, UInt64.ofNat_toNat]
  | succ more ih =>
    cases input with
    | nil => rfl
    | cons b rest =>
      have byte := b.toNat_lt
      have inside : places < 64 := by omega
      have room : 2 ^ places * 128 ≤ 2 ^ 63 := by
        rw [← Nat.pow_add 2 places 7]
        exact Nat.pow_le_pow_right (by decide) (by omega)
      have group : 2 ^ places * (b.toNat % 128) ≤ 2 ^ places * 127 :=
        Nat.mul_le_mul_left _ (by omega)
      have value := toNat_or_group (b := b) inside below (by omega)
      rw [Decode.outcome_groups_succ, gather?_cons word inside (by omega)]
      by_cases low : b < 128
      · rw [Nat.mod_eq_of_lt (lt_128_iff.mp low)] at value
        rw [if_pos low, if_pos low, Except.map, ← value, UInt64.ofNat_toNat]
      · have large : 128 ≤ b.toNat := le_128_iff.mp (UInt8.not_lt.mp low)
        have digit : b.toNat % 128 = b.toNat - 128 := by omega
        have pow : 2 ^ (places + 7) = 2 ^ places * 128 := Nat.pow_add ..
        rw [if_neg low, if_neg low, ih (by omega) (by omega)]
        cases ((Decode.groups more).outcome rest).1 with
        | error e => rfl
        | ok n =>
          have sum : word.toNat + 2 ^ places * (b.toNat % 128) + 2 ^ (places + 7) * n
              = word.toNat + 2 ^ places * (b.toNat - 128 + 128 * n) := by
            rw [digit, pow, Nat.mul_add, Nat.add_assoc, Nat.mul_assoc]
          simp only [Except.map, value, sum]

/-- The loop on words reads what the reader of numbers reads. -/
theorem gather?_zero (input : List UInt8) :
  gather? 0 0 input = some (Decode.varUint.outcome input)
  := by
  have total : 0 + 7 * 9 = 63 := rfl
  have below : (0 : UInt64).toNat < 2 ^ 0 := by decide
  rw [gather?_eq total below, Decode.outcome_varUint]
  simp

/-! ### Writing -/

/-- The loop on words writes the groups of the number. -/
theorem scatter_eq {more : Nat} {word : UInt64} (small : word.toNat < 128 ^ (more + 1)) :
  scatter word = Encode.groups more word.toNat
  := by
  induction more generalizing word with
  | zero =>
    have low : ¬ 128 ≤ word := by
      rw [UInt64.not_le, UInt64.lt_iff_toNat_lt]
      apply small
    rw [scatter, dif_neg low, toUInt8_eq_ofNat, Encode.groups]
  | succ more ih =>
    rw [scatter, Encode.groups]
    by_cases high : 128 ≤ word
    · have large : ¬ word.toNat < 128 := Nat.not_lt.mpr (UInt64.le_iff_toNat_le.mp high)
      have later : (word >>> 7).toNat < 128 ^ (more + 1) := by
        rw [Nat.pow_succ] at small
        rw [toNat_shiftRight_seven]
        omega
      rw [dif_pos high, if_neg large, toUInt8_or_128, ih later, toNat_shiftRight_seven]
    · have low : word.toNat < 128 := UInt64.lt_iff_toNat_lt.mp (UInt64.not_le.mp high)
      rw [dif_neg high, if_pos low, toUInt8_eq_ofNat]

/-! ### Signs -/

/-- Shifting the sign all the way down gives all ones or all zeros. -/
theorem toBitVec_shiftRight_63 (i : Int64) :
  (i >>> 63).toBitVec = if i.toInt < 0 then BitVec.allOnes 64 else 0#64
  := by
  have count : ((63 : Int64).toBitVec.smod 64).toNat = 63 := by decide
  have low := i.le_toInt
  have high := i.toInt_lt
  rw [Int64.toBitVec_shiftRight, BitVec.sshiftRight_eq', count]
  apply BitVec.eq_of_toInt_eq
  rw [BitVec.toInt_sshiftRight, Int.shiftRight_eq_div_pow, Int64.toInt_toBitVec]
  split
  · have ones : (BitVec.allOnes 64).toInt = -1 := by decide
    rw [ones]
    omega
  · have zero : (0#64).toInt = 0 := by decide
    rw [zero]
    omega

/-- Folding the sign on words is folding it on numbers. -/
theorem toNat_zigzag (i : Int64) :
  (zigzag i).toNat = Encode.zigzag i.toInt
  := by
  have count : ((1 : Int64).toBitVec.smod 64).toNat = 1 := by decide
  have bits : (zigzag i).toBitVec = i.toBitVec <<< 1 ^^^ (i >>> 63).toBitVec := by
    rw [zigzag, Int64.toBitVec_toUInt64, Int64.toBitVec_xor, Int64.toBitVec_shiftLeft]
    rfl
  have value := BitVec.toInt_eq_toNat_cond i.toBitVec
  have inside := i.toBitVec.isLt
  rw [← UInt64.toNat_toBitVec, bits, toBitVec_shiftRight_63, Encode.zigzag]
  rw [Int64.toInt_toBitVec] at value
  split at value
  · rw [if_neg (by omega), if_pos (by omega), BitVec.xor_zero, BitVec.toNat_shiftLeft,
      Nat.shiftLeft_eq]
    omega
  · rw [if_pos (by omega), if_neg (by omega), BitVec.xor_allOnes, BitVec.toNat_not,
      BitVec.toNat_shiftLeft, Nat.shiftLeft_eq]
    omega

/-- Unfolding the sign on words is unfolding it on numbers. -/
theorem unzigzag_eq (word : UInt64) :
  unzigzag word = Int64.ofInt (Decode.unzigzag word.toNat)
  := by
  have inside := word.toNat_lt
  have half : (word >>> 1).toBitVec.toNat = word.toNat / 2 := by
    rw [UInt64.toNat_toBitVec, UInt64.toNat_shiftRight]
    apply Nat.shiftRight_eq_div_pow ..
  have bit : (word &&& 1).toNat = word.toNat % 2 := by
    rw [UInt64.toNat_and]
    apply Nat.and_two_pow_sub_one_eq_mod _ 1
  apply Int64.toInt_inj.mp
  rw [Decode.unzigzag, ← Int64.toInt_toBitVec, unzigzag, Int64.toBitVec_xor,
    UInt64.toBitVec_toInt64]
  rcases Nat.mod_two_eq_zero_or_one word.toNat with even | odd
  · have clear : word &&& 1 = 0 := UInt64.toNat_inj.mp (bit.trans even)
    have sign : (-(0 : UInt64).toInt64).toBitVec = 0#64 := by decide
    rw [clear, sign, BitVec.xor_zero, if_pos even, BitVec.toInt_eq_toNat_of_lt (by omega), half,
      Int64.toInt_ofInt_of_le (by omega) (by omega)]
    omega
  · have set : word &&& 1 = 1 := UInt64.toNat_inj.mp (bit.trans odd)
    have sign : (-(1 : UInt64).toInt64).toBitVec = BitVec.allOnes 64 := by decide
    have odd : ¬ word.toNat % 2 = 0 := by omega
    rw [set, sign, BitVec.xor_allOnes, if_neg odd, BitVec.toInt_eq_toNat_cond, BitVec.toNat_not,
      half, Int64.toInt_ofInt_of_le (by omega) (by omega)]
    split <;> omega

/-- A sign that is folded is unfolded again. -/
theorem unzigzag_zigzag (i : Int64) :
  unzigzag (zigzag i) = i
  := by
  rw [unzigzag_eq, toNat_zigzag, Decode.unzigzag_zigzag, Int64.ofInt_toInt]

/-- A sign that is unfolded is folded again. -/
theorem zigzag_unzigzag (word : UInt64) :
  zigzag (unzigzag word) = word
  := by
  have inside := word.toNat_lt
  apply UInt64.toNat_inj.mp
  rw [toNat_zigzag, unzigzag_eq, Decode.unzigzag]
  split
  · rw [Int64.toInt_ofInt_of_le (by omega) (by omega), Encode.zigzag, if_pos (by omega)]
    omega
  · rw [Int64.toInt_ofInt_of_le (by omega) (by omega), Encode.zigzag, if_neg (by omega)]
    omega

/-- A signed number is an unsigned one with its sign unfolded. -/
theorem outcome_varInt (input : List UInt8) :
  Decode.varInt.outcome input
    = ((Decode.varUint.outcome input).1.map unzigzag, (Decode.varUint.outcome input).2)
  := by
  have signed : Decode.varInt.outcome input
      = (((Decode.groups 9).outcome input).1.map fun n => Int64.ofInt (Decode.unzigzag n),
          ((Decode.groups 9).outcome input).2) := Reader.outcome_map ..
  rw [signed, Decode.outcome_varUint]
  cases ending : (Decode.groups 9).outcome input with
  | mk outcome rest =>
    cases outcome with
    | error e => rfl
    | ok n =>
      have read := Reader.outcome_eq_ok_iff.mp ending
      obtain ⟨-, ⟨-, -, small⟩, -⟩ := (Decode.accepts_groups 9 _ _ _).mp read
      have small : n < 2 ^ 64 := small
      simp only [Except.map, unzigzag_eq, UInt64.toNat_ofNat', Nat.mod_eq_of_lt small]

/-- That shifts of words of 64 bits read and write the variable-length integers, and fold signs
without any loss. -/
structure ShiftsMatchVarInts : Prop where
  /-- Gathering groups reads an unsigned integer and shifts nothing out of the 64 places. -/
  reads_unsigned : ∀ input, gather? 0 0 input = some (Decode.varUint.outcome input)
  /-- A signed integer is read as the unsigned one whose lowest bit is its sign. -/
  reads_signed : ∀ input, Decode.varInt.outcome input
    = ((Decode.varUint.outcome input).1.map unzigzag, (Decode.varUint.outcome input).2)
  /-- Scattering a word writes an unsigned integer. -/
  writes_unsigned : ∀ n, scatter n = Encode.varUint n
  /-- Scattering the word that a sign is folded into writes a signed integer. -/
  writes_signed : ∀ i, Word.scatter (zigzag i) = Encode.varInt i
  unzigzag_zigzag : ∀ i, unzigzag (zigzag i) = i
  zigzag_unzigzag : ∀ word, zigzag (unzigzag word) = word

/-- Shifts of words read and write the variable-length integers. -/
theorem shiftsMatchVarInts :
  ShiftsMatchVarInts
  where
  reads_unsigned := gather?_zero
  reads_signed := outcome_varInt
  writes_unsigned n := scatter_eq (Encode.lt_pow_of_lt n.toNat_lt)
  writes_signed i := by
    rw [Encode.varInt, ← toNat_zigzag]
    apply scatter_eq (Encode.lt_pow_of_lt (zigzag i).toNat_lt)
  unzigzag_zigzag := unzigzag_zigzag
  zigzag_unzigzag := zigzag_unzigzag

end Word

/-- Variable-length integers are exact.  Reading an unsigned one looks at ten bytes at most.  It
gives the number that the bytes up to the first with a clear high bit spell, if there is one among
these ten and the number has no more than 64 bits; it ends with the data when they have no such byte
and there are fewer than ten, and in an overflow otherwise.  Writing one takes the shortest
spelling.  A signed integer is written as the unsigned one that its sign folds into, and reads back
as itself.  Shifts of words of 64 bits do all this, and none of them goes 64 places or further. -/
theorem varInts_exact :
  (∀ input, Decode.VarUintSettled input)
    ∧ (∀ n : UInt64, Spells (Encode.varUint n) n.toNat
      ∧ (Encode.varUint n).length = groupCount n.toNat
      ∧ ∀ bytes, Spells bytes n.toNat → bytes ≠ Encode.varUint n →
          (Encode.varUint n).length < bytes.length)
    ∧ (∀ i : Int64,
      (∀ rest, Decode.varInt.outcome (Encode.varInt i ++ rest) = (.ok i, rest))
      ∧ (Encode.varInt i).length
          = groupCount (if 0 ≤ i.toInt then 2 * i.toInt else -2 * i.toInt - 1).toNat)
    ∧ Word.ShiftsMatchVarInts
  := by
  refine ⟨Decode.varUint_settled, fun n => ?_, fun i => ⟨fun rest => ?_, ?_⟩, Word.shiftsMatchVarInts⟩
  · have small := Encode.lt_pow_of_lt n.toNat_lt
    have spells : Spells (Encode.varUint n) n.toNat := Encode.spells_groups small
    have length : (Encode.varUint n).length = groupCount n.toNat := Encode.length_groups small
    constructor
    · apply spells
    constructor
    · apply length
    intro bytes other different
    have least := other.groupCount_le
    rw [← length] at least
    apply Nat.lt_of_le_of_ne least
    intro same
    apply different (spells.eq_of_length other same.symm)
  · apply Reader.outcome_eq_ok_iff.mpr (Decode.run_varInt_append i rest)
  · have image : Encode.zigzag i.toInt
        = (if 0 ≤ i.toInt then 2 * i.toInt else -2 * i.toInt - 1).toNat := by
      unfold Encode.zigzag
      split <;> omega
    rw [← image]
    apply Encode.length_groups (Encode.lt_pow_of_lt (Encode.zigzag_lt i))

end PoolGraph
