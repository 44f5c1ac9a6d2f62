import Mathlib.Data.Nat.Size
import PoolGraph.Proofs.Wire.Stability
import PoolGraph.Wire.Buffer

/-!
# Variable-length integers

A number is spelled in base 128 by bytes of which all but the last have the high bit set (`Spells`).
The readers take such spellings of ten bytes at most and of numbers of 64 bits, and what they say of
all other bytes is settled as well (`Decode.varUint_settled`).  The writers give the shortest
spelling, whose length is `groupCount`, and a number has no other spelling of that length
(`Spells.eq_of_length`).
-/

namespace PoolGraph

/-! ### Outcomes of readers -/

namespace Reader

/-- A reader goes through when it gives a value and the bytes behind it. -/
theorem outcome_eq_ok_iff {p : Reader α} {input rest : List UInt8} {x : α} :
  p.outcome input = (.ok x, rest) ↔ p.run input = .ok x rest
  := by
  unfold outcome
  cases p.run input with
  | ok y left => simp
  | error e left => simp

/-- Readers in a row run one after the other, up to the first that fails. -/
theorem outcome_bind (p : Reader α) (f : α → Reader β) (input : List UInt8) :
  outcome (p >>= f) input = match p.outcome input with
    | (.ok x, rest) => (f x).outcome rest
    | (.error e, rest) => (.error e, rest)
  := by
  unfold outcome
  rw [EStateM.run_bind]
  cases p.run input with
  | ok x rest => rfl
  | error e rest => rfl

/-- What becomes of a result does not change what is read. -/
theorem outcome_map (p : Reader α) (f : α → β) (input : List UInt8) :
  outcome (p >>= fun x => pure (f x)) input = ((p.outcome input).1.map f, (p.outcome input).2)
  := by
  rw [outcome_bind]
  rcases p.outcome input with ⟨_ | x, rest⟩ <;> rfl

end Reader

/-! ### Spellings -/

theorem lt_128_iff {b : UInt8} :
  b < 128 ↔ b.toNat < 128
  := UInt8.lt_iff_toNat_lt

theorem le_128_iff {b : UInt8} :
  128 ≤ b ↔ 128 ≤ b.toNat
  := UInt8.le_iff_toNat_le

/-- Whether bytes spell a number in base 128, low digits first: each byte but the last has its high
bit set, and the others are its digit. -/
inductive Spells : List UInt8 → Nat → Prop where
  | last {b : UInt8} (low : b < 128) : Spells [b] b.toNat
  | more {b : UInt8} {bytes : List UInt8} {n : Nat} (high : 128 ≤ b) (later : Spells bytes n) :
    Spells (b :: bytes) (b.toNat - 128 + 128 * n)

namespace Spells

/-- A spelling ends at a byte with a clear high bit, and goes on behind any other. -/
theorem cons_iff {b : UInt8} {bytes : List UInt8} {n : Nat} :
  Spells (b :: bytes) n
    ↔ b < 128 ∧ bytes = [] ∧ n = b.toNat
      ∨ 128 ≤ b ∧ ∃ m, Spells bytes m ∧ n = b.toNat - 128 + 128 * m
  := by
  constructor
  · intro h
    cases h with
    | last low => exact .inl ⟨low, rfl, rfl⟩
    | more high later => exact .inr ⟨high, _, later, rfl⟩
  · rintro (⟨low, rfl, rfl⟩ | ⟨high, m, later, rfl⟩)
    · exact .last low
    · exact .more high later

/-- A spelling has at least one byte. -/
theorem length_pos {bytes : List UInt8} {n : Nat} (h : Spells bytes n) :
  0 < bytes.length
  := by
  cases h with
  | last => apply Nat.zero_lt_one
  | more => apply Nat.succ_pos _

/-- So many bytes spell seven bits each. -/
theorem lt_pow {bytes : List UInt8} {n : Nat} (h : Spells bytes n) :
  n < 128 ^ bytes.length
  := by
  induction h with
  | last low => apply lt_128_iff.mp low
  | @more b bytes n high later ih =>
    have := b.toNat_lt
    rw [List.length_cons, Nat.pow_succ]
    omega

/-- A spelling has a byte whose high bit is clear. -/
theorem exists_low {bytes : List UInt8} {n : Nat} (h : Spells bytes n) :
  ∃ b ∈ bytes, b < 128
  := by
  induction h with
  | @last b low =>
    use b
    constructor
    · apply List.mem_singleton_self b
    · apply low
  | more high later ih =>
    obtain ⟨b, inside, low⟩ := ih
    use b
    constructor
    · apply List.mem_cons_of_mem _ inside
    · apply low

/-- A number has at most one spelling of each length. -/
theorem eq_of_length {bytes bytes' : List UInt8} {n : Nat} (h : Spells bytes n)
    (h' : Spells bytes' n) (same : bytes'.length = bytes.length) :
  bytes' = bytes
  := by
  induction bytes generalizing bytes' n with
  | nil => cases h
  | cons b bytes ih =>
    cases bytes' with
    | nil => cases h'
    | cons b' bytes' =>
      have same := Nat.succ.inj same
      have := b.toNat_lt
      have := b'.toNat_lt
      rcases cons_iff.mp h with ⟨-, rfl, rfl⟩ | ⟨high, m, later, rfl⟩
      · obtain rfl := List.eq_nil_of_length_eq_zero same
        rcases cons_iff.mp h' with ⟨-, -, digit⟩ | ⟨-, m', later', -⟩
        · rw [UInt8.toNat_inj.mp digit]
        · cases later'
      · rcases cons_iff.mp h' with ⟨-, rfl, -⟩ | ⟨high', m', later', digits⟩
        · obtain rfl := List.eq_nil_of_length_eq_zero same.symm
          cases later
        · have := UInt8.le_iff_toNat_le.mp high
          have := UInt8.le_iff_toNat_le.mp high'
          have hundred : (128 : UInt8).toNat = 128 := rfl
          obtain rfl : m' = m := by omega
          have digit : b' = b := UInt8.toNat_inj.mp (by omega)
          rw [digit, ih later later' same]

end Spells

/-! ### Reading -/

namespace Decode

/-- The last possible group is read when it is one of the two bits. -/
theorem accepts_groups_zero :
  Accepts (groups 0) fun n b => Spells b n ∧ b.length ≤ 1 ∧ n < 2
  := by
  apply (Accepts.bind accepts_byte fun b =>
    Accepts.ite (c := 1 < b) (Accepts.throw .varIntOverflow) (Accepts.pure b.toNat)).of_iff
  intro n bytes
  constructor
  · rintro ⟨b, _, _, rfl, h, rfl⟩
    split at h
    · cases h
    · next small =>
      obtain ⟨rfl, rfl⟩ := h
      have least : b.toNat ≤ 1 := UInt8.le_iff_toNat_le.mp (UInt8.not_lt.mp small)
      constructor
      · exact .last (lt_128_iff.mpr (by omega))
      constructor
      · apply Nat.le_refl _
      · omega
  · rintro ⟨h, short, small⟩
    cases h with
    | @last b low =>
      have least : ¬ 1 < b := by
        rw [UInt8.not_lt, UInt8.le_iff_toNat_le]
        apply Nat.le_of_lt_succ small
      use b, [b], [], rfl
      constructor
      · rw [if_neg least]; exact ⟨rfl, rfl⟩
      · rfl
    | more high later =>
      have := later.length_pos
      rw [List.length_cons] at short
      omega

/-- One more group makes room for seven more bits. -/
theorem accepts_groups_succ {more : Nat}
    (h : Accepts (groups more) fun n b =>
      Spells b n ∧ b.length ≤ more + 1 ∧ n < 2 * 128 ^ more) :
  Accepts (groups (more + 1)) fun n b =>
    Spells b n ∧ b.length ≤ more + 2 ∧ n < 2 * 128 ^ (more + 1)
  := by
  apply (Accepts.bind accepts_byte fun b =>
    Accepts.ite (c := b < 128) (Accepts.pure b.toNat)
      (h.map fun n => b.toNat - 128 + 128 * n)).of_iff
  intro n bytes
  have pow : 128 ^ (more + 1) = 128 ^ more * 128 := Nat.pow_succ ..
  have positive : 0 < 128 ^ more := Nat.pow_pos (by decide)
  constructor
  · rintro ⟨b, _, _, rfl, read, rfl⟩
    have := b.toNat_lt
    split at read
    · next low =>
      obtain ⟨rfl, rfl⟩ := read
      have small := lt_128_iff.mp low
      constructor
      · exact .last low
      constructor
      · apply Nat.succ_le_succ (Nat.zero_le _)
      · omega
    · next high =>
      obtain ⟨m, rfl, later, short, small⟩ := read
      constructor
      · exact .more (UInt8.not_lt.mp high) later
      constructor
      · apply Nat.succ_le_succ short
      · omega
  · rintro ⟨spells, short, small⟩
    cases spells with
    | @last b low =>
      use b, [b], [], rfl
      constructor
      · rw [if_pos low]; exact ⟨rfl, rfl⟩
      · rfl
    | @more b bytes m high later =>
      use b, [b], bytes, rfl
      constructor
      · rw [if_neg (UInt8.not_lt.mpr high)]
        use m, rfl, later
        constructor
        · apply Nat.le_of_succ_le_succ short
        · omega
      · rfl

/-- Groups are read from the spellings of numbers that fit, the last with one bit left. -/
theorem accepts_groups (more : Nat) :
  Accepts (groups more) fun n b => Spells b n ∧ b.length ≤ more + 1 ∧ n < 2 * 128 ^ more
  := by
  induction more with
  | zero => apply accepts_groups_zero
  | succ more ih => apply accepts_groups_succ ih

/-- Groups are read alike whatever follows them. -/
theorem stable_groups (more : Nat) :
  Stable (groups more)
  := by
  induction more with
  | zero =>
    apply stable_byte.bind
    intro b
    apply Stable.ite (Stable.throw _) (Stable.pure _)
  | succ more ih =>
    apply stable_byte.bind
    intro b
    apply Stable.ite (Stable.pure _) (ih.map _)

/-- Without bytes the data ends. -/
theorem outcome_groups_nil (more : Nat) :
  (groups more).outcome [] = (.error .endOfData, [])
  := by
  cases more <;> rfl

/-- The last group has one bit left. -/
theorem outcome_groups_zero (b : UInt8) (rest : List UInt8) :
  (groups 0).outcome (b :: rest)
    = if 1 < b then (.error .varIntOverflow, rest) else (.ok b.toNat, rest)
  := by
  have step : (groups 0).outcome (b :: rest)
      = Reader.outcome (if 1 < b then throw .varIntOverflow else pure b.toNat) rest := rfl
  rw [step]
  split <;> rfl

/-- A group with its high bit set goes before the others. -/
theorem outcome_groups_succ (more : Nat) (b : UInt8) (rest : List UInt8) :
  (groups (more + 1)).outcome (b :: rest)
    = if b < 128 then (.ok b.toNat, rest)
      else (((groups more).outcome rest).1.map fun n => b.toNat - 128 + 128 * n,
        ((groups more).outcome rest).2)
  := by
  have step : (groups (more + 1)).outcome (b :: rest)
      = Reader.outcome (if b < 128 then pure b.toNat
          else groups more >>= fun n => pure (b.toNat - 128 + 128 * n)) rest := rfl
  rw [step]
  split
  · rfl
  · apply Reader.outcome_map

/-- How reading groups ends: with a number, before the last group that may follow, or behind it. -/
theorem groups_cases (more : Nat) (input : List UInt8) :
  ∃ examined rest, input = examined ++ rest ∧ examined.length ≤ more + 1
    ∧ ((∃ n, (groups more).outcome input = (.ok n, rest))
      ∨ rest = [] ∧ examined.length ≤ more ∧ (∀ b ∈ examined, 128 ≤ b)
        ∧ (groups more).outcome input = (.error .endOfData, rest)
      ∨ examined.length = more + 1
        ∧ (groups more).outcome input = (.error .varIntOverflow, rest))
  := by
  induction more generalizing input with
  | zero =>
    cases input with
    | nil =>
      use [], [], rfl, Nat.zero_le _
      right
      left
      constructor
      · rfl
      constructor
      · apply Nat.le_refl _
      constructor
      · exact nofun
      · rfl
    | cons b rest =>
      use [b], rest, rfl, Nat.le_refl _
      rw [outcome_groups_zero]
      split
      · exact .inr (.inr ⟨rfl, rfl⟩)
      · exact .inl ⟨_, rfl⟩
  | succ more ih =>
    cases input with
    | nil =>
      use [], [], rfl, Nat.zero_le _
      right
      left
      constructor
      · rfl
      constructor
      · apply Nat.zero_le _
      constructor
      · exact nofun
      · apply outcome_groups_nil _
    | cons b input =>
      rw [outcome_groups_succ]
      split
      · use [b], input, rfl
        constructor
        · apply Nat.succ_le_succ (Nat.zero_le _)
        · left
          use b.toNat
      · next high =>
        obtain ⟨examined, rest, rfl, short, ending⟩ := ih input
        use b :: examined, rest, rfl, Nat.succ_le_succ short
        rcases ending with ⟨n, h⟩ | ⟨rfl, shorter, all, h⟩ | ⟨full, h⟩ <;> rw [h]
        · exact .inl ⟨_, rfl⟩
        · refine .inr (.inl ⟨rfl, Nat.succ_le_succ shorter, ?_, rfl⟩)
          exact List.forall_mem_cons.mpr ⟨UInt8.not_lt.mp high, all⟩
        · exact .inr (.inr ⟨congrArg Nat.succ full, rfl⟩)

/-- The data ends when all the bytes there are go on, and more groups could follow. -/
theorem groups_eq_endOfData_iff (more : Nat) (input : List UInt8) :
  ((groups more).outcome input).1 = .error .endOfData
    ↔ input.length ≤ more ∧ ∀ b ∈ input, 128 ≤ b
  := by
  obtain ⟨examined, rest, rfl, -, ending⟩ := groups_cases more input
  rcases ending with ⟨n, h⟩ | ⟨rfl, shorter, all, h⟩ | ⟨full, h⟩ <;> rw [h]
  · obtain ⟨bytes, ⟨spells, -, -⟩, begins⟩ := (accepts_groups more _ _ _).mp
      (Reader.outcome_eq_ok_iff.mp h)
    obtain ⟨b, inside, low⟩ := spells.exists_low
    refine iff_of_false nofun fun ⟨_, all⟩ => ?_
    have high := all b (by rw [begins]; exact List.mem_append_left _ inside)
    apply UInt8.not_lt.mpr high low
  · rw [List.append_nil]
    exact iff_of_true rfl ⟨shorter, all⟩
  · refine iff_of_false nofun fun ⟨short, _⟩ => ?_
    rw [List.length_append] at short
    omega

/-! ### Unsigned integers -/

/-- An unsigned integer is read as ten groups. -/
theorem outcome_varUint (input : List UInt8) :
  varUint.outcome input
    = (((groups 9).outcome input).1.map UInt64.ofNat, ((groups 9).outcome input).2)
  := Reader.outcome_map ..

/-- An unsigned integer is read from its spellings of at most ten bytes. -/
theorem accepts_varUint :
  Accepts varUint fun n b => Spells b n.toNat ∧ b.length ≤ 10
  := by
  apply ((accepts_groups 9).map UInt64.ofNat).of_iff
  intro n b
  constructor
  · rintro ⟨m, rfl, spells, short, small⟩
    have small : m < 2 ^ 64 := small
    rw [UInt64.toNat_ofNat', Nat.mod_eq_of_lt small]
    exact ⟨spells, short⟩
  · rintro ⟨spells, short⟩
    use n.toNat, UInt64.ofNat_toNat.symm, spells, short, n.toNat_lt

/-- An unsigned integer is read alike whatever follows it. -/
theorem stable_varUint :
  Stable varUint
  := (stable_groups 9).map _

/-- What reading an unsigned integer of variable length comes to on some bytes. -/
structure VarUintSettled (input : List UInt8) : Prop where
  /-- No more than ten bytes are taken, whatever comes of it. -/
  examined : ∃ taken, input = taken ++ (varUint.outcome input).2 ∧ taken.length ≤ 10
  /-- Nor does what comes of it depend on more. -/
  front : (varUint.outcome (input.take 10)).1 = (varUint.outcome input).1
  ok_iff : ∀ n rest, varUint.outcome input = (.ok n, rest)
    ↔ ∃ bytes, Spells bytes n.toNat ∧ bytes.length ≤ 10 ∧ input = bytes ++ rest
  endOfData_iff : (varUint.outcome input).1 = .error .endOfData
    ↔ input.length < 10 ∧ ∀ b ∈ input, 128 ≤ b
  overflow_iff : (varUint.outcome input).1 = .error .varIntOverflow
    ↔ (∀ bytes n rest, input = bytes ++ rest → bytes.length ≤ 10 → Spells bytes n → 2 ^ 64 ≤ n)
      ∧ ¬(input.length < 10 ∧ ∀ b ∈ input, 128 ≤ b)

/-- An integer is read when the bytes begin with a spelling of it in at most ten bytes. -/
theorem varUint_eq_ok_iff (input : List UInt8) (n : UInt64) (rest : List UInt8) :
  varUint.outcome input = (.ok n, rest)
    ↔ ∃ bytes, Spells bytes n.toNat ∧ bytes.length ≤ 10 ∧ input = bytes ++ rest
  := by
  rw [Reader.outcome_eq_ok_iff, accepts_varUint]
  constructor
  · rintro ⟨bytes, ⟨spells, short⟩, begins⟩
    use bytes, spells, short, begins
  · rintro ⟨bytes, spells, short, begins⟩
    use bytes, ⟨spells, short⟩, begins

/-- An unsigned integer fails to be read as its groups do. -/
theorem varUint_eq_error_iff (input : List UInt8) (e : CodecError) :
  (varUint.outcome input).1 = .error e ↔ ((groups 9).outcome input).1 = .error e
  := by
  rw [outcome_varUint]
  cases ((groups 9).outcome input).1 with
  | ok n => apply iff_of_false nofun nofun
  | error e' => simp only [Except.map, Except.error.injEq]

/-- The data ends when there are fewer than ten bytes and all of them go on. -/
theorem varUint_eq_endOfData_iff (input : List UInt8) :
  (varUint.outcome input).1 = .error .endOfData ↔ input.length < 10 ∧ ∀ b ∈ input, 128 ≤ b
  := by
  rw [varUint_eq_error_iff, groups_eq_endOfData_iff, Nat.lt_succ_iff]

/-- There is an overflow where the data does not end and no spelling in ten bytes stays within 64
bits. -/
theorem varUint_eq_overflow_iff (input : List UInt8) :
  (varUint.outcome input).1 = .error .varIntOverflow
    ↔ (∀ bytes n rest, input = bytes ++ rest → bytes.length ≤ 10 → Spells bytes n → 2 ^ 64 ≤ n)
      ∧ ¬(input.length < 10 ∧ ∀ b ∈ input, 128 ≤ b)
  := by
  rw [← varUint_eq_endOfData_iff]
  constructor
  · intro overflow
    constructor
    · intro bytes n rest begins short spells
      by_contra fits
      have value : (UInt64.ofNat n).toNat = n := by
        rw [UInt64.toNat_ofNat', Nat.mod_eq_of_lt (Nat.lt_of_not_le fits)]
      have found := (varUint_eq_ok_iff input (UInt64.ofNat n) rest).mpr
        ⟨bytes, by rwa [value], short, begins⟩
      rw [found] at overflow
      cases overflow
    · intro ended
      rw [ended] at overflow
      cases overflow
  · rintro ⟨large, whole⟩
    rw [varUint_eq_error_iff] at whole ⊢
    obtain ⟨examined, rest, -, -, ending⟩ := groups_cases 9 input
    rcases ending with ⟨n, h⟩ | ⟨-, -, -, h⟩ | ⟨-, h⟩
    · obtain ⟨bytes, ⟨spells, short, small⟩, begins⟩ := (accepts_groups 9 _ _ _).mp
        (Reader.outcome_eq_ok_iff.mp h)
      have small : n < 2 ^ 64 := small
      have := large bytes n rest begins short spells
      omega
    · exact absurd (congrArg Prod.fst h) whole
    · rw [h]

/-- Ten bytes settle what an unsigned integer is read as. -/
theorem varUint_front (input : List UInt8) :
  (varUint.outcome (input.take 10)).1 = (varUint.outcome input).1
  := by
  by_cases short : input.length < 10
  · rw [List.take_of_length_le (Nat.le_of_lt short)]
  · have length : (input.take 10).length = 10 := by
      rw [List.length_take]
      omega
    have unfinished := mt (varUint_eq_endOfData_iff (input.take 10)).mp (by omega)
    have longer := stable_varUint (input.take 10) (input.drop 10)
    rw [List.take_append_drop] at longer
    unfold Reader.outcome at unfinished ⊢
    cases run : varUint.run (input.take 10) with
    | ok n rest =>
      rw [run] at longer
      dsimp only at longer
      rw [longer]
    | error e rest =>
      rw [run] at longer unfinished
      rcases longer with rfl | ⟨rest', longer⟩
      · exact absurd rfl unfinished
      · rw [longer]

/-- What the bytes spell settles how an unsigned integer is read. -/
theorem varUint_settled (input : List UInt8) :
  VarUintSettled input
  where
  examined := by
    obtain ⟨examined, rest, whole, short, ending⟩ := groups_cases 9 input
    have left : (varUint.outcome input).2 = rest := by
      rw [outcome_varUint]
      rcases ending with ⟨n, h⟩ | ⟨-, -, -, h⟩ | ⟨-, h⟩ <;> rw [h]
    use examined
    constructor
    · rw [left, whole]
    · apply short
  front := varUint_front input
  ok_iff := varUint_eq_ok_iff input
  endOfData_iff := varUint_eq_endOfData_iff input
  overflow_iff := varUint_eq_overflow_iff input

end Decode

/-! ### Writing -/

/-- How many groups of seven bits hold a number: one at least. -/
def groupCount (n : Nat) : Nat :=
  max 1 ((n.size + 6) / 7)

/-- A number of seven bits takes one group. -/
theorem groupCount_of_lt {n : Nat} (low : n < 128) :
  groupCount n = 1
  := by
  have short : n.size ≤ 7 := Nat.size_le.mpr low
  unfold groupCount
  omega

/-- A larger number takes one group more than what is left of it. -/
theorem groupCount_of_le {n : Nat} (high : 128 ≤ n) :
  groupCount n = groupCount (n / 128) + 1
  := by
  have one : 1 ≤ (n / 128).size := Nat.lt_size.mpr (by omega)
  have size : n.size = (n / 128).size + 7 := by
    apply Nat.le_antisymm
    · have below := Nat.lt_size_self (n / 128)
      rw [Nat.size_le, Nat.pow_add]
      omega
    · obtain ⟨k, hk⟩ := Nat.exists_eq_add_of_le' one
      have above : 2 ^ k ≤ n / 128 := Nat.lt_size.mp (by omega)
      rw [hk]
      apply Nat.lt_size.mpr
      rw [Nat.pow_add]
      omega
  unfold groupCount
  omega

/-- A spelling has at least as many bytes as its number needs. -/
theorem Spells.groupCount_le {bytes : List UInt8} {n : Nat} (h : Spells bytes n) :
  groupCount n ≤ bytes.length
  := by
  have positive := h.length_pos
  have small : n < 2 ^ (7 * bytes.length) := by
    rw [Nat.pow_mul]
    apply h.lt_pow
  have size := Nat.size_le.mpr small
  unfold groupCount
  omega

namespace Encode

theorem spells_single {n : Nat} (low : n < 128) :
  Spells [UInt8.ofNat n] n
  := by
  have value : (UInt8.ofNat n).toNat = n := by
    rw [UInt8.toNat_ofNat']
    omega
  have spells : Spells [UInt8.ofNat n] (UInt8.ofNat n).toNat := by
    apply Spells.last
    rwa [lt_128_iff, value]
  rwa [value] at spells

/-- The groups of a number that fits spell it. -/
theorem spells_groups {more n : Nat} (small : n < 128 ^ (more + 1)) :
  Spells (groups more n) n
  := by
  induction more generalizing n with
  | zero => apply spells_single small
  | succ more ih =>
    rw [groups]
    split
    · next low => apply spells_single low
    · have value : (UInt8.ofNat (n % 128 + 128)).toNat = n % 128 + 128 := by
        rw [UInt8.toNat_ofNat']
        omega
      have later : n / 128 < 128 ^ (more + 1) := by
        rw [Nat.pow_succ] at small
        omega
      have spells : Spells (UInt8.ofNat (n % 128 + 128) :: groups more (n / 128))
          ((UInt8.ofNat (n % 128 + 128)).toNat - 128 + 128 * (n / 128)) := by
        apply Spells.more _ (ih later)
        rw [le_128_iff, value]
        apply Nat.le_add_left
      have whole : n % 128 + 128 - 128 + 128 * (n / 128) = n := by omega
      rwa [value, whole] at spells

/-- A number is written in as few groups as it takes. -/
theorem length_groups {more n : Nat} (small : n < 128 ^ (more + 1)) :
  (groups more n).length = groupCount n
  := by
  induction more generalizing n with
  | zero => rw [groupCount_of_lt small, groups, List.length_singleton]
  | succ more ih =>
    rw [groups]
    split
    · next low => rw [groupCount_of_lt low, List.length_singleton]
    · next high =>
      have later : n / 128 < 128 ^ (more + 1) := by
        rw [Nat.pow_succ] at small
        omega
      rw [groupCount_of_le (Nat.le_of_not_lt high), List.length_cons, ih later]

/-- A number of 64 bits fits into ten groups. -/
theorem lt_pow_of_lt {n : Nat} (small : n < 2 ^ 64) :
  n < 128 ^ (9 + 1)
  := Nat.lt_trans small (by decide)

/-- A number of 64 bits takes at most ten groups. -/
theorem length_groups_le {n : Nat} (small : n < 2 ^ 64) :
  (groups 9 n).length ≤ 10
  := by
  have size := Nat.size_le.mpr small
  rw [length_groups (lt_pow_of_lt small)]
  unfold groupCount
  omega

/-! ### Signed integers -/

/-- The zig-zag number of a word is below the words. -/
theorem zigzag_lt (i : Int64) :
  zigzag i.toInt < 2 ^ 64
  := by
  have low := i.le_toInt
  have high := i.toInt_lt
  unfold zigzag
  split <;> omega

end Encode

namespace Decode

/-- The zig-zag number tells the integer. -/
theorem unzigzag_zigzag (i : Int) :
  unzigzag (Encode.zigzag i) = i
  := by
  unfold unzigzag Encode.zigzag
  split <;> split <;> omega

/-- A signed integer is read from the spellings of its zig-zag number. -/
theorem accepts_varInt :
  Accepts varInt fun i b =>
    ∃ n, Spells b n ∧ b.length ≤ 10 ∧ n < 2 ^ 64 ∧ i = Int64.ofInt (unzigzag n)
  := by
  apply ((accepts_groups 9).map fun n => Int64.ofInt (unzigzag n)).of_iff
  intro i b
  constructor
  · rintro ⟨n, value, spells, short, small⟩
    use n, spells, short, small, value
  · rintro ⟨n, spells, short, small, value⟩
    use n, value, spells, short, small

/-- What an unsigned integer is written as is read as it. -/
theorem run_varUint_append (n : UInt64) (rest : List UInt8) :
  varUint.run (Encode.varUint n ++ rest) = .ok n rest
  := by
  apply accepts_varUint.run_append
  constructor
  · apply Encode.spells_groups (Encode.lt_pow_of_lt n.toNat_lt)
  · apply Encode.length_groups_le n.toNat_lt

/-- What a signed integer is written as is read as it. -/
theorem run_varInt_append (i : Int64) (rest : List UInt8) :
  varInt.run (Encode.varInt i ++ rest) = .ok i rest
  := by
  have small := Encode.zigzag_lt i
  apply accepts_varInt.run_append
  use Encode.zigzag i.toInt
  constructor
  · apply Encode.spells_groups (Encode.lt_pow_of_lt small)
  constructor
  · apply Encode.length_groups_le small
  constructor
  · apply small
  rw [unzigzag_zigzag, Int64.ofInt_toInt]

end Decode

end PoolGraph
