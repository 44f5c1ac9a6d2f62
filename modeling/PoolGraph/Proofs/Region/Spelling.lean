import PoolGraph.Proofs.Float.Rounding
import PoolGraph.Proofs.Region.Lookups
import PoolGraph.Proofs.Wire.Reading

/-!
# Spellings of values

`Shape.Spells` relates a value to the bytes that stand for it in a slot.  It is what the decoder
accepts (`Shape.accepts_decode`).  The encoder writes a spelling of the value with its
single-precision numbers rounded (`Shape.spells_round_of_encode`), and writes every spelling
whose floating-point numbers are canonical (`Shape.encode_of_spells`).
-/

namespace PoolGraph

/-! ### Ranges of integers -/

namespace IntWidth

/-- A signed width holds the numbers of its two's complement. -/
theorem contains_signed_iff (width : IntWidth) (i : Int) :
  width.contains false i = true
    ↔ -(256 ^ width.bytes : Nat) ≤ 2 * i ∧ 2 * i < (256 ^ width.bytes : Nat)
  := by
  cases width <;>
    simp only [contains, minValue, maxValue, bits, bytes, Bool.and_eq_true, decide_eq_true_eq,
      Bool.false_eq_true, if_false] <;>
    omega

/-- An unsigned width holds the numbers below its power. -/
theorem contains_unsigned_iff (width : IntWidth) (n : Nat) :
  width.contains true n = true ↔ n < 256 ^ width.bytes
  := by
  cases width <;>
    simp only [contains, minValue, maxValue, bits, bytes, Bool.and_eq_true, decide_eq_true_eq,
      if_true] <;>
    omega

theorem bytes_pos (width : IntWidth) :
  0 < width.bytes
  := by
  cases width <;> decide

/-- No width is wider than a word. -/
theorem pow_bytes_le (width : IntWidth) :
  256 ^ width.bytes ≤ 2 ^ 64
  := by
  cases width <;> decide

end IntWidth

/-! ### Lengths of primitives -/

namespace Encode

/-- A count takes four bytes. -/
theorem length_of_count {n : Nat} {b : List UInt8} (h : count n = .ok b) :
  b.length = 4
  := by
  unfold count at h
  split at h
  · cases h
  · obtain rfl := Except.ok.inj h
    apply LittleEndian.length_bytes

/-- A count that is written is not above the maximum. -/
theorem le_maxCount_of_count {n : Nat} {b : List UInt8} (h : count n = .ok b) :
  n ≤ maxCount
  := by
  unfold count at h
  split at h
  · cases h
  · omega

/-- An index takes as many bytes as its pool asks for. -/
theorem length_of_index {i cardinality : Nat} {b : List UInt8} (h : index i cardinality = .ok b) :
  b.length = indexWidth cardinality
  := by
  unfold index at h
  split at h
  · obtain rfl := Except.ok.inj h
    apply LittleEndian.length_bytes
  · cases h

/-- A string takes at least the bytes of its length. -/
theorem length_of_string {s : String} {b : List UInt8} (h : string s = .ok b) :
  4 ≤ b.length
  := by
  obtain ⟨head, hhead, hb⟩ := Except.bind_eq_ok.mp h
  obtain rfl := Except.ok.inj hb
  rw [List.length_append, length_of_count hhead]
  omega

end Encode

namespace Shape

/-! ### Spellings -/

/-- The bytes that stand for a value in a slot of this shape. -/
def Spells (size : Nat → Nat) : Shape → Value → List UInt8 → Prop
  | .integer width false, v, b => ∃ i : Int64, v = .int i ∧ width.contains false i.toInt = true
      ∧ b = Encode.signed width.bytes i.toInt
  | .integer width true, v, b => ∃ n : UInt64, v = .uint n ∧ width.contains true n.toNat = true
      ∧ b = Encode.unsigned width.bytes n.toNat
  | .float .w32, v, b => ∃ y : Binary32, v = .float y.widen ∧ b = Encode.binary32 y
  | .float .w64, v, b => ∃ x : Binary64, v = .float x ∧ b = Encode.binary64 x
  | .bool, v, b => ∃ x, v = .bool x ∧ b = Encode.bool x
  | .string, v, b => ∃ s, v = .string s ∧ Encode.string s = .ok b
  | .reference id _, v, b => ∃ i, v = .ref ⟨id, i⟩ ∧ Encode.index i (size id) = .ok b
  | .list item, v, b => ∃ items head parts, v = .list items ∧ Encode.count items.length = .ok head
      ∧ List.Forall₂ (item.Spells size) items parts ∧ b = head ++ parts.flatten

/-- The decoder takes exactly the spellings. -/
theorem accepts_decode {size : Nat → Nat} (countable : ∀ id, size id ≤ 2 ^ 32) (shape : Shape) :
  Accepts (shape.decode size) (shape.Spells size)
  := by
  induction shape with
  | integer width unsigned =>
    have small := width.pow_bytes_le
    cases unsigned with
    | false =>
      apply ((Decode.accepts_signed width.bytes_pos).map fun i => Value.int (Int64.ofInt i)).of_iff
      intro v b
      constructor
      · rintro ⟨i, rfl, low, high, rfl⟩
        have exact : (Int64.ofInt i).toInt = i :=
          Int64.toInt_ofInt_of_le (by omega) (by omega)
        refine ⟨Int64.ofInt i, rfl, ?_, by rw [exact]⟩
        rw [exact]
        exact (width.contains_signed_iff i).mpr ⟨low, high⟩
      · rintro ⟨i, rfl, range, rfl⟩
        obtain ⟨low, high⟩ := (width.contains_signed_iff i.toInt).mp range
        use i.toInt, by rw [Int64.ofInt_toInt], low, high
    | true =>
      apply ((Decode.accepts_unsigned width.bytes).map fun n => Value.uint (UInt64.ofNat n)).of_iff
      intro v b
      constructor
      · rintro ⟨n, rfl, range, rfl⟩
        have exact : (UInt64.ofNat n).toNat = n :=
          UInt64.toNat_ofNat_of_lt' (Nat.lt_of_lt_of_le range small)
        refine ⟨UInt64.ofNat n, rfl, ?_, by rw [exact]⟩
        rw [exact]
        apply (width.contains_unsigned_iff n).mpr range
      · rintro ⟨n, rfl, range, rfl⟩
        use n.toNat
        constructor
        · rw [UInt64.ofNat_toNat]
        constructor
        · apply (width.contains_unsigned_iff n.toNat).mp range
        · rfl
  | float width =>
    cases width with
    | w32 => exact Decode.accepts_binary32.map fun y => Value.float y.widen
    | w64 => apply Decode.accepts_binary64.map Value.float
  | bool => apply Decode.accepts_bool.map Value.bool
  | string => apply Decode.accepts_string.map Value.string
  | reference id name => exact (Decode.accepts_index (countable id)).map fun i => Value.ref ⟨id, i⟩
  | list item ih =>
    apply (Decode.accepts_count.bind fun n => (Decode.accepts_many ih n).map Value.list).of_iff
    intro v b
    constructor
    · rintro ⟨n, head, tail, hn, ⟨items, rfl, rfl, parts, hall, rfl⟩, rfl⟩
      exact ⟨items, head, parts, rfl, hn, hall, rfl⟩
    · rintro ⟨items, head, parts, rfl, hn, hall, rfl⟩
      use items.length, head, parts.flatten, hn
      constructor
      · use items, rfl, rfl, parts, hall
      · rfl

/-- A spelling has at least the bytes that the decoder asks for beforehand. -/
theorem leastBytes_le {size : Nat → Nat} {shape : Shape} {v : Value} {b : List UInt8}
    (h : shape.Spells size v b) :
  shape.leastBytes size ≤ b.length
  := by
  cases shape with
  | integer width unsigned =>
    cases unsigned <;>
      · obtain ⟨_, -, -, rfl⟩ := h
        apply Nat.le_of_eq (LittleEndian.length_bytes _ _).symm
  | float width =>
    cases width <;>
      · obtain ⟨_, -, rfl⟩ := h
        apply Nat.le_of_eq (LittleEndian.length_bytes _ _).symm
  | bool =>
    obtain ⟨_, -, rfl⟩ := h
    apply Nat.le_refl
  | string =>
    obtain ⟨s, -, hs⟩ := h
    apply Encode.length_of_string hs
  | reference id name =>
    obtain ⟨i, -, hi⟩ := h
    apply Nat.le_of_eq (Encode.length_of_index hi).symm
  | list item =>
    obtain ⟨items, head, parts, -, hn, -, rfl⟩ := h
    rw [List.length_append, Encode.length_of_count hn]
    apply Nat.le_add_right

/-- Whether a value can stand in a slot of this shape, in a region whose pools have the given
sizes. -/
def fits (size : Nat → Nat) : Shape → Value → Bool
  | .integer width false, .int i => width.contains false i.toInt
  | .integer width true, .uint n => width.contains true n.toNat
  | .float _, .float _ => true
  | .bool, .bool _ => true
  | .string, .string _ => true
  | .reference _ _, .null => true
  | .reference id _, .ref target => target.struct == id && decide (target.index < size id)
  | .list item, .list items => items.all (item.fits size)
  | _, _ => false

/-- What a spelling stands for fits the slot. -/
theorem fits_of_spells {size : Nat → Nat} {shape : Shape} {v : Value} {b : List UInt8}
    (h : shape.Spells size v b) :
  shape.fits size v = true
  := by
  induction shape generalizing v b with
  | integer width unsigned =>
    cases unsigned <;>
      · obtain ⟨i, rfl, range, -⟩ := h
        apply range
  | float width =>
    cases width <;>
      · obtain ⟨_, rfl, -⟩ := h
        rfl
  | bool =>
    obtain ⟨_, rfl, -⟩ := h
    rfl
  | string =>
    obtain ⟨s, rfl, -⟩ := h
    rfl
  | reference id name =>
    obtain ⟨i, rfl, hi⟩ := h
    unfold Encode.index at hi
    split at hi
    · next inside => simp only [fits, BEq.rfl, inside, decide_true, Bool.and_self]
    · cases hi
  | list item ih =>
    obtain ⟨items, head, parts, rfl, -, hall, -⟩ := h
    apply List.all_eq_true.mpr
    intro v hv
    obtain ⟨i, hi, rfl⟩ := List.getElem_of_mem hv
    apply ih (hall.get hi (by rw [← hall.length_eq]; exact hi))

/-- Whether every reference in a value is set. -/
def AllSet : Shape → Value → Prop
  | .reference _ _, v => v ≠ .null
  | .list item, .list items => ∀ v ∈ items, item.AllSet v
  | _, _ => True

/-- What bytes spell has no gap. -/
theorem allSet_of_spells {size : Nat → Nat} {shape : Shape} {v : Value} {b : List UInt8}
    (h : shape.Spells size v b) :
  shape.AllSet v
  := by
  induction shape generalizing v b with
  | reference id name =>
    obtain ⟨i, rfl, -⟩ := h
    rintro ⟨⟩
  | list item ih =>
    obtain ⟨items, head, parts, rfl, -, hall, -⟩ := h
    intro v hv
    obtain ⟨i, hi, rfl⟩ := List.getElem_of_mem hv
    apply ih (hall.get hi (by rw [← hall.length_eq]; exact hi))
  | _ => cases v <;> trivial

/-! ### From the encoder -/

/-- A value with the numbers in single-precision slots rounded to single precision. -/
def round : Shape → Value → Value
  | .float .w32, .float x => .float x.narrow.widen
  | .list item, .list items => .list (items.map item.round)
  | _, v => v

/-- The encoder writes a spelling of the rounded value. -/
theorem spells_round_of_encode {size : Nat → Nat} {struct field : String} {shape : Shape}
    {v : Value} {b : List UInt8} (h : shape.encode size struct field v = .ok b) :
  shape.Spells size (shape.round v) b
  := by
  induction shape generalizing v b with
  | integer width unsigned =>
    cases unsigned <;> cases v <;> try cases h
    all_goals
      next i =>
        simp only [encode] at h
        split at h
        · next range => exact ⟨i, rfl, range, (Except.ok.inj h).symm⟩
        · cases h
  | float width =>
    cases width <;> cases v <;> try cases h
    · exact ⟨_, rfl, rfl⟩
    · exact ⟨_, rfl, rfl⟩
  | bool =>
    cases v <;> cases h
    exact ⟨_, rfl, rfl⟩
  | string =>
    cases v <;> try cases h
    exact ⟨_, rfl, h⟩
  | reference id name =>
    cases v <;> try cases h
    next target =>
      simp only [encode] at h
      split at h
      · next here =>
        subst here
        exact ⟨target.index, rfl, h⟩
      · cases h
  | list item ih =>
    cases v <;> try cases h
    next items =>
      obtain ⟨head, hn, h⟩ := Except.bind_eq_ok.mp h
      obtain ⟨parts, hparts, h⟩ := Except.bind_eq_ok.mp h
      obtain rfl := Except.ok.inj h
      refine ⟨items.map item.round, head, parts, rfl, by rw [List.length_map]; exact hn, ?_, rfl⟩
      apply List.forall₂_map_left_iff.mpr
      apply (Except.mapM_eq_ok.mp hparts).imp fun _ _ => ih

/-! ### To the encoder -/

/-- Whether the not-a-numbers in floating-point slots are canonical. -/
def Canonical : Shape → Value → Prop
  | .float _, .float x => x.IsCanonical
  | .list item, .list items => ∀ v ∈ items, item.Canonical v
  | _, _ => True

/-- The encoder writes a spelling of a value without other not-a-numbers. -/
theorem encode_of_spells {size : Nat → Nat} (struct field : String) {shape : Shape} {v : Value}
    {b : List UInt8} (h : shape.Spells size v b) (canonical : shape.Canonical v) :
  shape.encode size struct field v = .ok b
  := by
  induction shape generalizing v b with
  | integer width unsigned =>
    cases unsigned <;>
      · obtain ⟨i, rfl, range, rfl⟩ := h
        simp only [encode, range, if_true]
  | float width =>
    cases width with
    | w32 =>
      obtain ⟨y, rfl, rfl⟩ := h
      have hy : y.IsCanonical := y.isCanonical_widen.mp canonical
      simp only [encode, Binary32.narrow_widen hy]
    | w64 =>
      obtain ⟨x, rfl, rfl⟩ := h
      rfl
  | bool =>
    obtain ⟨x, rfl, rfl⟩ := h
    rfl
  | string =>
    obtain ⟨s, rfl, hs⟩ := h
    apply hs
  | reference id name =>
    obtain ⟨i, rfl, hi⟩ := h
    simp only [encode, if_true, hi]
  | list item ih =>
    obtain ⟨items, head, parts, rfl, hn, hall, rfl⟩ := h
    apply Except.bind_eq_ok.mpr
    use head, hn
    refine Except.bind_eq_ok.mpr ⟨parts, Except.mapM_eq_ok.mpr ?_, rfl⟩
    apply ((List.forall₂_and_left (p := item.Canonical) items parts).mpr ⟨canonical, hall⟩).imp
    rintro v b ⟨hv, hb⟩
    apply ih hb hv

/-! ### What rounding changes -/

/-- Rounding leaves a value alone when the numbers in its single-precision slots are rounded. -/
def Rounded : Shape → Value → Prop
  | .float .w32, .float x => ∃ y : Binary32, x = y.widen
  | .list item, .list items => ∀ v ∈ items, item.Rounded v
  | _, _ => True

/-- Rounding changes a value unless it is rounded already. -/
theorem round_eq_self_iff (shape : Shape) (v : Value) :
  shape.round v = v ↔ shape.Rounded v
  := by
  induction shape generalizing v with
  | float width =>
    cases width <;> cases v <;> try exact iff_of_true rfl trivial
    next x =>
      simp only [round, Rounded, Value.float.injEq]
      constructor
      · intro h
        use x.narrow, h.symm
      · rintro ⟨y, rfl⟩
        apply Binary32.widen_narrow_widen
  | list item ih =>
    cases v <;> try exact iff_of_true rfl trivial
    next items =>
      simp only [round, Rounded, Value.list.injEq, ← ih]
      have same := List.map_inj_left (l := items) (f := item.round) (g := id)
      rw [List.map_id] at same
      apply same
  | _ => apply iff_of_true rfl trivial

end Shape

end PoolGraph
