import PoolGraph.Proofs.Except
import PoolGraph.Wire.Decode
import PoolGraph.Wire.Encode

/-!
# What a reader accepts

`Accepts p R` says that the reader `p` takes from the front of its input exactly the spellings
that the relation `R` allows, and gives what they spell.  The primitives are described in this
way by the functions that write them, and `Accepts.bind`, `accepts_many` and `accepts_mapM`
describe readers that are put together.
-/

namespace PoolGraph

/-- The reader succeeds on exactly the inputs that begin with a spelling, and leaves the rest. -/
def Accepts (p : Reader α) (R : α → List UInt8 → Prop) : Prop :=
  ∀ input x rest, p.run input = .ok x rest ↔ ∃ b, R x b ∧ input = b ++ rest

namespace Accepts

/-- What spells a value is read as it, whatever follows. -/
theorem run_append {p : Reader α} {R : α → List UInt8 → Prop} (h : Accepts p R) {x : α}
    {b : List UInt8} (hx : R x b) (rest : List UInt8) :
  p.run (b ++ rest) = .ok x rest
  := (h _ _ _).mpr ⟨b, hx, rfl⟩

/-- What a reader accepts may be said in other words. -/
theorem of_iff {p : Reader α} {R S : α → List UInt8 → Prop} (h : Accepts p R)
    (same : ∀ x b, R x b ↔ S x b) :
  Accepts p S
  := by
  intro input x rest
  simp only [h input x rest, same]

/-- Giving a value takes no bytes. -/
theorem pure (x : α) :
  Accepts (Pure.pure x) fun y b => y = x ∧ b = []
  := by
  intro input y rest
  constructor
  · intro h
    obtain ⟨rfl, rfl⟩ := EStateM.Result.ok.inj h
    use []
    constructor
    · exact ⟨rfl, rfl⟩
    · rfl
  · rintro ⟨b, ⟨rfl, rfl⟩, rfl⟩
    rfl

/-- The second reader need only be described for what the first one gives. -/
theorem bind_of {p : Reader α} {f : α → Reader β} {R : α → List UInt8 → Prop}
    {S : α → β → List UInt8 → Prop} (hp : Accepts p R)
    (hf : ∀ x b, R x b → Accepts (f x) (S x)) :
  Accepts (p >>= f) fun y b => ∃ x head tail, R x head ∧ S x y tail ∧ b = head ++ tail
  := by
  intro input y rest
  rw [EStateM.run_bind]
  constructor
  · cases hrun : p.run input with
    | error e s =>
      intro h
      cases h
    | ok x mid =>
      intro h
      obtain ⟨head, hx, rfl⟩ := (hp input x mid).mp hrun
      obtain ⟨tail, hy, rfl⟩ := (hf x head hx mid y rest).mp h
      use head ++ tail
      constructor
      · use x, head, tail, hx, hy
      · apply (List.append_assoc ..).symm
  · rintro ⟨b, ⟨x, head, tail, hx, hy, rfl⟩, rfl⟩
    rw [List.append_assoc, hp.run_append hx]
    apply (hf x head hx).run_append hy rest

/-- Readers in a row accept spellings in a row. -/
theorem bind {p : Reader α} {f : α → Reader β} {R : α → List UInt8 → Prop}
    {S : α → β → List UInt8 → Prop} (hp : Accepts p R) (hf : ∀ x, Accepts (f x) (S x)) :
  Accepts (p >>= f) fun y b => ∃ x head tail, R x head ∧ S x y tail ∧ b = head ++ tail
  := hp.bind_of fun x _ _ => hf x

/-- A reader accepts the spellings of what it makes its values from. -/
theorem map {p : Reader α} {R : α → List UInt8 → Prop} (hp : Accepts p R) (f : α → β) :
  Accepts (p >>= fun x => Pure.pure (f x)) fun y b => ∃ x, y = f x ∧ R x b
  := by
  apply (bind hp fun x => pure (f x)).of_iff
  intro y b
  constructor
  · rintro ⟨x, head, tail, hx, ⟨rfl, rfl⟩, rfl⟩
    rw [List.append_nil]
    use x, rfl, hx
  · rintro ⟨x, rfl, hx⟩
    use x, b, [], hx
    constructor
    · exact ⟨rfl, rfl⟩
    · apply (List.append_nil b).symm

/-- A reader that always refuses accepts nothing. -/
theorem throw (e : CodecError) :
  Accepts (MonadExcept.throw e : Reader α) fun _ _ => False
  := by
  intro input x rest
  constructor
  · intro h
    cases h
  · rintro ⟨b, ⟨⟩, -⟩

/-- A reader that depends on a condition accepts what the reader of that case accepts. -/
theorem ite {c : Prop} [Decidable c] {p q : Reader α} {R S : α → List UInt8 → Prop}
    (hp : Accepts p R) (hq : Accepts q S) :
  Accepts (if c then p else q) fun x b => if c then R x b else S x b
  := by
  split
  · apply hp
  · apply hq

/-- A check that enough bytes are left changes nothing when every spelling is long enough. -/
theorem guard {p : Reader α} {R : α → List UInt8 → Prop} (hp : Accepts p R) (e : CodecError)
    {least : Nat} (long : ∀ x b, R x b → least ≤ b.length) :
  Accepts (do if (← get).length < least then MonadExcept.throw e else p) R
  := by
  intro input x rest
  rw [EStateM.run_bind, EStateM.run_get]
  split
  · next s input' hget =>
    obtain ⟨rfl, rfl⟩ := EStateM.Result.ok.inj hget
    split
    · next short =>
      constructor
      · intro h
        cases h
      · rintro ⟨b, hx, rfl⟩
        have enough := long x b hx
        rw [List.length_append] at short
        omega
    · apply hp
  · next hget => cases hget

end Accepts

/-! ### Primitives -/

namespace Decode

theorem accepts_byte :
  Accepts byte fun x b => b = [x]
  := by
  intro input x rest
  cases input with
  | nil =>
    constructor
    · intro h
      cases h
    · rintro ⟨b, rfl, h⟩
      cases h
  | cons head tail =>
    constructor
    · intro h
      obtain ⟨rfl, rfl⟩ := EStateM.Result.ok.inj h
      use [head], rfl
      rfl
    · rintro ⟨b, rfl, h⟩
      obtain ⟨rfl, rfl⟩ := List.cons.inj h
      rfl

/-- So many bytes are taken off the front, or else the data ends. -/
theorem run_bytes (n : Nat) (input : List UInt8) :
  (bytes n).run input
    = if input.length < n then .error .endOfData input else .ok (input.take n) (input.drop n)
  := by
  have short : (input.take n).length < n ↔ input.length < n := by
    rw [List.length_take]
    omega
  simp only [bytes, EStateM.run_bind, EStateM.run_get, short]
  split <;> rfl

/-- So many bytes spell themselves. -/
theorem accepts_bytes (n : Nat) :
  Accepts (bytes n) fun x b => x.length = n ∧ b = x
  := by
  intro input x rest
  rw [run_bytes]
  constructor
  · intro h
    split at h
    · cases h
    · next long =>
      obtain ⟨rfl, rfl⟩ := EStateM.Result.ok.inj h
      use List.take n input
      constructor
      · constructor
        · rw [List.length_take]
          omega
        · rfl
      · apply (List.take_append_drop n input).symm
  · rintro ⟨b, ⟨rfl, rfl⟩, rfl⟩
    have long : ¬ (b ++ rest).length < b.length := by
      rw [List.length_append]
      omega
    rw [if_neg long, List.take_left, List.drop_left]

/-- Unsigned numbers are read from their bytes, the lowest first. -/
theorem accepts_unsigned (width : Nat) :
  Accepts (unsigned width) fun n b => n < 256 ^ width ∧ b = Encode.unsigned width n
  := by
  apply ((accepts_bytes width).map LittleEndian.value).of_iff
  intro n b
  constructor
  · rintro ⟨x, rfl, rfl, rfl⟩
    constructor
    · apply LittleEndian.value_lt b
    · apply (LittleEndian.bytes_value b).symm
  · rintro ⟨small, rfl⟩
    use LittleEndian.bytes width n
    constructor
    · rw [LittleEndian.value_bytes, Nat.mod_eq_of_lt small]
    constructor
    · apply LittleEndian.length_bytes width n
    · rfl

/-- Signed numbers are read from their two's complement. -/
theorem accepts_signed {width : Nat} (hw : 0 < width) :
  Accepts (signed width) fun i b =>
    -(256 ^ width : Nat) ≤ 2 * i ∧ 2 * i < (256 ^ width : Nat) ∧ b = Encode.signed width i
  := by
  apply ((accepts_bytes width).map fun x =>
    Int.bmod (LittleEndian.value x) (256 ^ width)).of_iff
  obtain ⟨half, even⟩ : ∃ half, 256 ^ width = 2 * half := by
    obtain ⟨w, rfl⟩ := Nat.exists_eq_succ_of_ne_zero (Nat.ne_of_gt hw)
    use 128 * 256 ^ w
    rw [Nat.pow_succ]; omega
  have positive : 0 < 256 ^ width := Nat.pow_pos (by decide)
  have cast : (256 : Int) ^ width = (256 ^ width : Nat) := (Int.natCast_pow 256 width).symm
  intro i b
  constructor
  · rintro ⟨x, rfl, hx, rfl⟩
    have low := Int.le_bmod (x := LittleEndian.value b) positive
    have high := Int.bmod_lt (x := LittleEndian.value b) positive
    have small := LittleEndian.value_lt b
    rw [hx] at small
    constructor
    · omega
    constructor
    · omega
    have residue : ((LittleEndian.value b : Int).bmod (256 ^ width)
        % (256 ^ width : Nat)).toNat = LittleEndian.value b := by
      rw [Int.bmod_emod, Int.emod_eq_of_lt (by omega) (by omega), Int.toNat_natCast]
    rw [Encode.signed, cast, residue, ← hx, LittleEndian.bytes_value]
  · rintro ⟨low, high, rfl⟩
    use LittleEndian.bytes width (i % 256 ^ width).toNat
    constructor
    · have residue := Int.emod_nonneg i (b := (256 ^ width : Nat)) (by omega)
      have bound := Int.emod_lt_of_pos i (b := (256 ^ width : Nat)) (by omega)
      rw [LittleEndian.value_bytes, cast, Nat.mod_eq_of_lt (by omega), Int.toNat_of_nonneg residue,
        Int.emod_bmod]
      symm
      apply (Int.bmod_eq_iff positive).mpr
      constructor
      · omega
      constructor
      · omega
      rw [Int.sub_self]
      apply Int.dvd_zero
    constructor
    · apply LittleEndian.length_bytes width _
    · rfl

/-- A truth value is read from exactly one of two bytes. -/
theorem accepts_bool :
  Accepts bool fun x b => b = Encode.bool x
  := by
  apply (Accepts.bind accepts_byte fun x =>
    Accepts.ite (c := x = 0) (Accepts.pure false)
      (Accepts.ite (c := x = 1) (Accepts.pure true) (Accepts.throw (.invalidBool x)))).of_iff
  intro x b
  constructor
  · rintro ⟨y, head, tail, rfl, h, rfl⟩
    split at h
    · next zero =>
      obtain ⟨rfl, rfl⟩ := h
      rw [zero]
      rfl
    · split at h
      · next one =>
        obtain ⟨rfl, rfl⟩ := h
        rw [one]
        rfl
      · cases h
  · rintro rfl
    cases x with
    | false =>
      use 0, [0], [], rfl
      constructor
      · exact ⟨rfl, rfl⟩
      · rfl
    | true =>
      use 1, [1], [], rfl
      constructor
      · exact ⟨rfl, rfl⟩
      · rfl

theorem accepts_binary32 :
  Accepts binary32 fun x b => b = Encode.binary32 x
  := by
  apply ((accepts_unsigned 4).map fun n => (⟨UInt32.ofNat n⟩ : Binary32)).of_iff
  intro x b
  constructor
  · rintro ⟨n, rfl, small, rfl⟩
    have small : n < 2 ^ 32 := small
    rw [Encode.binary32, Encode.unsigned, UInt32.toNat_ofNat', Nat.mod_eq_of_lt small]
  · rintro rfl
    use x.bits.toNat, by simp, x.bits.toNat_lt
    rfl

theorem accepts_binary64 :
  Accepts binary64 fun x b => b = Encode.binary64 x
  := by
  apply ((accepts_unsigned 8).map fun n => (⟨UInt64.ofNat n⟩ : Binary64)).of_iff
  intro x b
  constructor
  · rintro ⟨n, rfl, small, rfl⟩
    have small : n < 2 ^ 64 := small
    rw [Encode.binary64, Encode.unsigned, UInt64.toNat_ofNat', Nat.mod_eq_of_lt small]
  · rintro rfl
    use x.bits.toNat, by simp, x.bits.toNat_lt
    rfl

/-- Counts are read from what they are written as. -/
theorem accepts_count :
  Accepts count fun n b => Encode.count n = .ok b
  := by
  apply (Accepts.bind (accepts_unsigned 4) fun n =>
    Accepts.ite (c := maxCount < n) (Accepts.throw (.countOutOfRange n)) (Accepts.pure n)).of_iff
  intro n b
  have top : maxCount = 2 ^ 31 - 1 := rfl
  constructor
  · rintro ⟨m, head, tail, ⟨-, rfl⟩, h, rfl⟩
    split at h
    · cases h
    · next small =>
      obtain ⟨rfl, rfl⟩ := h
      rw [Encode.count, if_neg small, List.append_nil]
      rfl
  · intro h
    unfold Encode.count at h
    split at h
    · cases h
    · next small =>
      obtain rfl := Except.ok.inj h
      use n, Encode.unsigned 4 n, []
      constructor
      · constructor
        · omega
        · rfl
      constructor
      · rw [if_neg small]
        exact ⟨rfl, rfl⟩
      · apply (List.append_nil _).symm

/-- Indexes are read from what they are written as, below the size of their pool. -/
theorem accepts_index {cardinality : Nat} (h : cardinality ≤ 2 ^ 32) :
  Accepts (index cardinality) fun i b => Encode.index i cardinality = .ok b
  := by
  apply (Accepts.bind (accepts_unsigned (indexWidth cardinality)) fun i =>
    Accepts.ite (c := i < cardinality) (Accepts.pure i)
      (Accepts.throw (.indexOutOfRange i cardinality))).of_iff
  intro i b
  constructor
  · rintro ⟨j, head, tail, ⟨-, rfl⟩, hj, rfl⟩
    split at hj
    · next inside =>
      obtain ⟨rfl, rfl⟩ := hj
      rw [Encode.index, if_pos inside, List.append_nil]
      rfl
    · cases hj
  · intro hi
    unfold Encode.index at hi
    split at hi
    · next inside =>
      obtain rfl := Except.ok.inj hi
      use i, Encode.unsigned (indexWidth cardinality) i, []
      constructor
      · constructor
        · apply lt_pow_indexWidth inside h
        · rfl
      constructor
      · rw [if_pos inside]
        exact ⟨rfl, rfl⟩
      · apply (List.append_nil _).symm
    · cases hi

/-- Bytes are valid UTF-8 for a text exactly when they are its bytes. -/
theorem fromUTF8?_eq_some_iff {bytes : ByteArray} {s : String} :
  String.fromUTF8? bytes = some s ↔ s.toByteArray = bytes
  := by
  unfold String.fromUTF8?
  constructor
  · intro h
    split at h
    · next valid =>
      obtain rfl := Option.some.inj h
      rfl
    · cases h
  · rintro rfl
    rw [dif_pos s.isValidUTF8]
    rfl

/-- Strings are read from what they are written as. -/
theorem accepts_string :
  Accepts string fun s b => Encode.string s = .ok b
  := by
  refine (Accepts.bind accepts_count fun n => Accepts.bind (accepts_bytes n)
    (S := fun taken s b => s.toByteArray = ⟨taken.toArray⟩ ∧ b = []) fun taken => ?_).of_iff ?_
  · split
    · next s hs =>
      rw [fromUTF8?_eq_some_iff] at hs
      apply (Accepts.pure s).of_iff
      intro t b
      rw [← hs, String.toByteArray_inj]
    · next hs =>
      apply (Accepts.throw .invalidUtf8).of_iff
      intro t b
      constructor
      · intro h
        cases h
      · rintro ⟨ht, -⟩
        rw [fromUTF8?_eq_some_iff.mpr ht] at hs
        cases hs
  · intro s b
    constructor
    · rintro ⟨n, head, tail, hn, ⟨_, taken, _, ⟨hlen, rfl⟩, ⟨hs, rfl⟩, rfl⟩, rfl⟩
      have bytes : s.toByteArray.data.toList = taken := by
        rw [hs]
      rw [List.append_nil, Encode.string, bytes, hlen, hn]
      rfl
    · intro h
      obtain ⟨head, hn, hb⟩ := Except.bind_eq_ok.mp h
      obtain rfl := Except.ok.inj hb
      use s.toByteArray.data.toList.length, head, s.toByteArray.data.toList, hn
      constructor
      · use s.toByteArray.data.toList, s.toByteArray.data.toList, []
        constructor
        · exact ⟨rfl, rfl⟩
        constructor
        · exact ⟨rfl, rfl⟩
        · apply (List.append_nil _).symm
      · rfl

end Decode

/-! ### Limits of writing -/

namespace Encode

/-- A count that is not too large is written. -/
theorem exists_count {n : Nat} (h : n ≤ maxCount) :
  ∃ b, count n = .ok b
  := ⟨_, if_neg (Nat.not_lt.mpr h)⟩

/-- A string that is not too long is written. -/
theorem exists_string {text : String} (h : text.utf8ByteSize ≤ maxCount) :
  ∃ b, string text = .ok b
  := by
  obtain ⟨head, hhead⟩ := exists_count h
  use head ++ text.toByteArray.data.toList, Except.bind_eq_ok.mpr ⟨head, hhead, rfl⟩

/-- A count is refused when it is too large, and for no other reason. -/
theorem count_eq_error {n : Nat} {e : CodecError} :
  count n = .error e ↔ maxCount < n ∧ e = .countOutOfRange n
  := by
  rw [count]
  split
  · next long => rw [Except.error.injEq, and_iff_right long, eq_comm]
  · next short => exact iff_of_false (fun h => by cases h) fun h => short h.1

/-- A string is refused when it is too long, and for no other reason. -/
theorem string_eq_error {text : String} {e : CodecError} :
  string text = .error e
    ↔ maxCount < text.utf8ByteSize ∧ e = .countOutOfRange text.utf8ByteSize
  := by
  rw [string, Except.bind_eq_error]
  constructor
  · rintro (h | ⟨head, -, ⟨⟩⟩)
    apply count_eq_error.mp h
  · intro h
    exact .inl (count_eq_error.mpr h)

end Encode

/-! ### Several values -/

namespace Decode

/-- Items are read one after another behind those that were read before. -/
theorem accepts_manyAfter {item : Reader α} {R : α → List UInt8 → Prop} (h : Accepts item R)
    (n : Nat) (before : List α) :
  Accepts (manyAfter item n before) fun xs b =>
    ∃ ys parts, xs = before.reverse ++ ys ∧ ys.length = n ∧ List.Forall₂ R ys parts
      ∧ b = parts.flatten
  := by
  induction n generalizing before with
  | zero =>
    apply (Accepts.pure before.reverse).of_iff
    intro xs b
    constructor
    · rintro ⟨rfl, rfl⟩
      use [], [], (List.append_nil _).symm, rfl, .nil
      rfl
    · rintro ⟨ys, parts, rfl, hlen, hall, rfl⟩
      obtain rfl := List.eq_nil_of_length_eq_zero hlen
      cases hall
      constructor
      · apply List.append_nil _
      · rfl
  | succ n ih =>
    apply (Accepts.bind h fun x => ih (x :: before)).of_iff
    intro xs b
    constructor
    · rintro ⟨x, head, tail, hx, ⟨ys, parts, rfl, hlen, hall, rfl⟩, rfl⟩
      use x :: ys, head :: parts
      constructor
      · rw [List.reverse_cons, List.append_assoc]
        rfl
      constructor
      · rw [List.length_cons, hlen]
      constructor
      · exact .cons hx hall
      · rfl
    · rintro ⟨ys, parts, rfl, hlen, hall, rfl⟩
      cases hall with
      | nil => cases hlen
      | @cons x head ys parts hx hall =>
        use x, head, parts.flatten, hx
        constructor
        · use ys, parts
          constructor
          · rw [List.reverse_cons, List.append_assoc]
            rfl
          use Nat.succ.inj hlen, hall
        · rfl

/-- Several items are spelled one after another. -/
theorem accepts_many {item : Reader α} {R : α → List UInt8 → Prop} (h : Accepts item R) (n : Nat) :
  Accepts (many item n) fun xs b =>
    xs.length = n ∧ ∃ parts, List.Forall₂ R xs parts ∧ b = parts.flatten
  := by
  apply (accepts_manyAfter h n []).of_iff
  intro xs b
  constructor
  · rintro ⟨ys, parts, rfl, hlen, hall, rfl⟩
    exact ⟨hlen, parts, hall, rfl⟩
  · rintro ⟨hlen, parts, hall, rfl⟩
    use xs, parts, rfl, hlen, hall

end Decode

/-- Values of several kinds are spelled one after another. -/
theorem accepts_mapM {f : α → Reader β} {R : α → β → List UInt8 → Prop}
    (h : ∀ x, Accepts (f x) (R x)) (xs : List α) :
  Accepts (xs.mapM f) fun ys b =>
    ys.length = xs.length
      ∧ ∃ parts, List.Forall₂ (fun (p : α × β) => R p.1 p.2) (xs.zip ys) parts ∧ b = parts.flatten
  := by
  induction xs with
  | nil =>
    rw [List.mapM_nil]
    apply (Accepts.pure []).of_iff
    intro ys b
    constructor
    · rintro ⟨rfl, rfl⟩
      exact ⟨rfl, [], .nil, rfl⟩
    · rintro ⟨hlen, parts, hall, rfl⟩
      obtain rfl := List.eq_nil_of_length_eq_zero hlen
      cases hall
      exact ⟨rfl, rfl⟩
  | cons x xs ih =>
    rw [List.mapM_cons]
    apply (Accepts.bind (h x) fun y => ih.map (y :: ·)).of_iff
    intro ys b
    constructor
    · rintro ⟨y, head, tail, hy, ⟨ys, rfl, hlen, parts, hall, rfl⟩, rfl⟩
      exact ⟨by simp only [List.length_cons, hlen], head :: parts, .cons hy hall, rfl⟩
    · rintro ⟨hlen, parts, hall, rfl⟩
      cases ys with
      | nil => cases hlen
      | cons y ys =>
        cases hall with
        | @cons _ head _ parts hy hall =>
          use y, head, parts.flatten, hy
          constructor
          · use ys, rfl, Nat.succ.inj hlen, parts, hall
          · rfl

end PoolGraph
