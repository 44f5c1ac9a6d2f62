import Mathlib.Tactic.Use
import PoolGraph.Proofs.Wire.VarInt

/-!
# Reading back what was written

Items of any kinds that are written one after another are read back in the same order
(`Item.readAll_kept`).  What cannot be written leaves no bytes, and a reader, whether it succeeds or
fails, leaves the bytes behind those that it took (`Trims`), so that the position of a buffer moves
forward only and never past the end.
-/

namespace PoolGraph

/-! ### What readers leave -/

/-- Whether a reader leaves the last part of its input, also when it fails. -/
def Trims (p : Reader α) : Prop :=
  ∀ input, (p.outcome input).2 <:+ input

namespace Trims

theorem pure (x : α) :
  Trims (Pure.pure x)
  := List.suffix_refl

theorem throw (e : CodecError) :
  Trims (MonadExcept.throw e : Reader α)
  := List.suffix_refl

/-- Readers that leave a suffix, one after the other, leave a suffix. -/
theorem bind {p : Reader α} {f : α → Reader β} (hp : Trims p) (hf : ∀ x, Trims (f x)) :
  Trims (p >>= f)
  := by
  intro input
  have first := hp input
  rw [Reader.outcome_bind]
  rcases ending : p.outcome input with ⟨_ | x, rest⟩ <;> rw [ending] at first
  · apply first
  · apply (hf x rest).trans first

/-- What is made of the result does not matter for what is left. -/
theorem map {p : Reader α} (hp : Trims p) (f : α → β) :
  Trims (p >>= fun x => Pure.pure (f x))
  := by
  apply hp.bind
  intro x
  apply pure

/-- A test whose branches leave a suffix leaves a suffix. -/
theorem ite {c : Prop} [Decidable c] {p q : Reader α} (hp : Trims p) (hq : Trims q) :
  Trims (if c then p else q)
  := by
  split
  · apply hp
  · apply hq

end Trims

namespace Decode

theorem trims_byte :
  Trims byte
  := by
  intro input
  cases input with
  | nil => apply List.suffix_refl
  | cons b rest => apply List.suffix_cons

/-- Fixed-width reading leaves what is behind. -/
theorem trims_bytes (n : Nat) :
  Trims (bytes n)
  := by
  intro input
  have left : ((bytes n).outcome input).2 = if input.length < n then input else input.drop n := by
    rw [Reader.outcome, run_bytes]
    by_cases short : input.length < n
    · rw [if_pos short, if_pos short]
    · rw [if_neg short, if_neg short]
  rw [left]
  split
  · apply List.suffix_refl
  · apply List.drop_suffix

theorem trims_unsigned (width : Nat) :
  Trims (unsigned width)
  := (trims_bytes width).map _

/-- Groups are taken from the front, by induction on their number. -/
theorem trims_groups (more : Nat) :
  Trims (groups more)
  := by
  intro input
  obtain ⟨examined, rest, rfl, -, ending⟩ := groups_cases more input
  have left : ((groups more).outcome (examined ++ rest)).2 = rest := by
    rcases ending with ⟨n, h⟩ | ⟨-, -, -, h⟩ | ⟨-, h⟩ <;> rw [h]
  rw [left]
  apply List.suffix_append

theorem trims_bool :
  Trims bool
  := by
  apply trims_byte.bind
  intro b
  apply Trims.ite (Trims.pure false)
  apply Trims.ite (Trims.pure true) (Trims.throw _)

theorem trims_count :
  Trims count
  := by
  apply (trims_unsigned 4).bind
  intro n
  apply Trims.ite (Trims.throw _) (Trims.pure n)

theorem trims_index (cardinality : Nat) :
  Trims (index cardinality)
  := by
  apply (trims_unsigned _).bind
  intro i
  apply Trims.ite (Trims.pure i) (Trims.throw _)

/-- A string is taken with its length. -/
theorem trims_string :
  Trims string
  := by
  apply trims_count.bind
  intro n
  apply (trims_bytes n).bind
  intro taken
  split
  · apply Trims.pure
  · apply Trims.throw

end Decode

/-- Every reader leaves a suffix of its input. -/
theorem ItemKind.trims_decode (kind : ItemKind) :
  Trims kind.decode
  := by
  cases kind with
  | bool => apply Decode.trims_bool.map
  | byte => apply Decode.trims_byte.map
  | integer width unsigned =>
    cases unsigned with
    | true => apply (Decode.trims_unsigned _).map
    | false => apply ((Decode.trims_bytes _).map _).map _
  | float width =>
    cases width with
    | w32 => apply ((Decode.trims_unsigned 4).map _).map _
    | w64 => apply ((Decode.trims_unsigned 8).map _).map _
  | varUint => apply ((Decode.trims_groups 9).map _).map _
  | varInt => apply ((Decode.trims_groups 9).map _).map _
  | bytes length => apply (Decode.trims_bytes length).map
  | count => apply Decode.trims_count.map
  | string => apply Decode.trims_string.map
  | index cardinality => apply (Decode.trims_index cardinality).map

/-! ### One item -/

/-- What is made of a result changes nothing about the rest. -/
theorem run_map_of_eq_ok {p : Reader α} {input rest : List UInt8} {x : α}
    (h : p.run input = .ok x rest) (f : α → β) :
  (p >>= fun x => pure (f x)).run input = .ok (f x) rest
  := by
  rw [EStateM.run_bind, h]
  rfl

namespace Item

/-- A width has as many values in bytes as in bits. -/
theorem pow_bytes (width : IntWidth) :
  256 ^ width.bytes = 2 ^ width.bits
  := Nat.pow_mul 2 8 width.bytes |>.symm

/-- An item that can be written is read back, whatever stands behind it. -/
theorem run_decode_append {item : Item} {raw : List UInt8} (h : item.encode = .ok raw)
    (countable : ∀ i cardinality, item = .index i cardinality → cardinality ≤ maxCount)
    (rest : List UInt8) :
  item.kind.decode.run (raw ++ rest) = .ok item rest
  := by
  cases item with
  | bool b =>
    obtain rfl := Except.ok.inj h
    apply run_map_of_eq_ok (Decode.accepts_bool.run_append rfl rest) _
  | byte b =>
    obtain rfl := Except.ok.inj h
    apply run_map_of_eq_ok (Decode.accepts_byte.run_append rfl rest) _
  | unsigned width n =>
    obtain rfl := Except.ok.inj h
    have small : n.toNat < 256 ^ width.bytes := by
      rw [pow_bytes]
      apply n.isLt
    have read := Decode.accepts_unsigned width.bytes |>.run_append ⟨small, rfl⟩ rest
    have whole := run_map_of_eq_ok read fun n => unsigned width (BitVec.ofNat _ n)
    rwa [BitVec.ofNat_toNat, BitVec.setWidth_eq] at whole
  | signed width i =>
    obtain rfl := Except.ok.inj h
    have positive : 0 < width.bytes := by
      cases width <;> decide
    have low : -((256 ^ width.bytes : Nat) : Int) ≤ 2 * i.toInt := by
      rw [pow_bytes, Int.natCast_pow]
      apply i.le_two_mul_toInt
    have high : 2 * i.toInt < ((256 ^ width.bytes : Nat) : Int) := by
      rw [pow_bytes, Int.natCast_pow]
      apply i.two_mul_toInt_lt
    have read := Decode.accepts_signed positive |>.run_append ⟨low, high, rfl⟩ rest
    have whole := run_map_of_eq_ok read fun i => signed width (BitVec.ofInt _ i)
    rwa [BitVec.ofInt_toInt] at whole
  | binary32 x =>
    obtain rfl := Except.ok.inj h
    apply run_map_of_eq_ok (Decode.accepts_binary32.run_append rfl rest) _
  | binary64 x =>
    obtain rfl := Except.ok.inj h
    apply run_map_of_eq_ok (Decode.accepts_binary64.run_append rfl rest) _
  | varUint n =>
    obtain rfl := Except.ok.inj h
    apply run_map_of_eq_ok (Decode.run_varUint_append n rest) _
  | varInt i =>
    obtain rfl := Except.ok.inj h
    apply run_map_of_eq_ok (Decode.run_varInt_append i rest) _
  | bytes raw' =>
    obtain rfl := Except.ok.inj h
    exact run_map_of_eq_ok ((Decode.accepts_bytes _).run_append ⟨rfl, rfl⟩ rest) _
  | count n => apply run_map_of_eq_ok (Decode.accepts_count.run_append h rest) _
  | string text => apply run_map_of_eq_ok (Decode.accepts_string.run_append h rest) _
  | index i cardinality =>
    have small : cardinality ≤ 2 ^ 32 := Nat.le_trans (countable i cardinality rfl) (by decide)
    apply run_map_of_eq_ok ((Decode.accepts_index small).run_append h rest) _

end Item

/-! ### Positions -/

namespace Buffer

/-- A reader leaves the bytes from the new position on, which is no earlier than the old one and not
past the end. -/
theorem read_spec {b : Buffer} (within : b.position ≤ b.data.length) (kind : ItemKind) :
  (b.read kind).2.data = b.data
    ∧ (b.read kind).2.left = (kind.decode.outcome b.left).2
    ∧ b.position ≤ (b.read kind).2.position
    ∧ (b.read kind).2.position ≤ b.data.length
  := by
  have trimmed := kind.trims_decode b.left
  have shorter := trimmed.length_le
  have part := trimmed.trans (List.drop_suffix b.position b.data)
  have place : (b.read kind).2.position
      = b.data.length - (kind.decode.outcome b.left).2.length := rfl
  rw [left, List.length_drop] at shorter
  constructor
  · rfl
  constructor
  · apply (List.suffix_iff_eq_drop.mp part).symm
  constructor
  · rw [place, left]
    omega
  · rw [place]
    apply Nat.sub_le

/-- Reading on and on never changes the data and never passes its end. -/
theorem readAll_spec {b : Buffer} (within : b.position ≤ b.data.length) (kinds : List ItemKind) :
  (b.readAll kinds).2.data = b.data ∧ (b.readAll kinds).2.position ≤ b.data.length
  := by
  induction kinds generalizing b with
  | nil => exact ⟨rfl, within⟩
  | cons kind kinds ih =>
    obtain ⟨same, -, -, inside⟩ := read_spec within kind
    rw [← same] at inside ⊢
    apply ih inside

end Buffer

/-! ### Items one after another -/

namespace Item

/-- Whether a count, or that of the bytes of a string, is small enough, and a reference is one into
its pool. -/
def Fits : Item → Prop
  | .count n => n ≤ maxCount
  | .string text => text.utf8ByteSize ≤ maxCount
  | .index i cardinality => i < cardinality
  | _ => True

instance : DecidablePred Fits
  | .count n => inferInstanceAs (Decidable (n ≤ maxCount))
  | .string text => inferInstanceAs (Decidable (text.utf8ByteSize ≤ maxCount))
  | .index i cardinality => inferInstanceAs (Decidable (i < cardinality))
  | .bool _ | .byte _ | .unsigned _ _ | .signed _ _ | .binary32 _ | .binary64 _ | .varUint _
  | .varInt _ | .bytes _ => inferInstanceAs (Decidable True)

/-- Only what does not fit has no bytes. -/
theorem exists_encode_iff (item : Item) :
  (∃ raw, item.encode = .ok raw) ↔ item.Fits
  := by
  cases item with
  | count n =>
    constructor
    · rintro ⟨raw, h⟩
      by_contra long
      have failed := Encode.count_eq_error.mpr ⟨Nat.lt_of_not_le long, rfl⟩
      cases h.symm.trans failed
    · apply Encode.exists_count
  | string text =>
    constructor
    · rintro ⟨raw, h⟩
      by_contra long
      have failed := Encode.string_eq_error.mpr ⟨Nat.lt_of_not_le long, rfl⟩
      cases h.symm.trans failed
    · apply Encode.exists_string
  | index i cardinality =>
    rw [encode, Encode.index]
    split
    · next inside => exact iff_of_true ⟨_, rfl⟩ inside
    · next outside =>
      constructor
      · rintro ⟨raw, h⟩
        cases h
      · intro inside
        apply absurd inside outside
  | _ => exact iff_of_true ⟨_, rfl⟩ trivial

/-- What does not fit has an error in place of its bytes. -/
theorem exists_encode_error {item : Item} (outside : ¬ item.Fits) :
  ∃ e, item.encode = .error e
  := by
  cases h : item.encode with
  | error e => use e
  | ok raw =>
    apply absurd _ outside
    apply (exists_encode_iff item).mp ⟨raw, h⟩

/-- The bytes that an item leaves when it is written. -/
def trace (item : Item) : List UInt8 :=
  item.encode.toOption.getD []

/-- Writing appends the bytes of the item, or nothing. -/
theorem append_eq (item : Item) (out : List UInt8) :
  item.append out = (item.encode.map fun _ => (), out ++ item.trace)
  := by
  unfold append trace
  cases item.encode with
  | ok raw => rfl
  | error e =>
    rw [Except.toOption, Option.getD_none, List.append_nil]
    rfl

/-- What an item leaves is what is written at the beginning. -/
theorem append_nil_eq (item : Item) :
  (item.append []).2 = item.trace
  := by
  rw [append_eq, List.nil_append]

/-- Writing succeeds for what fits, whatever was written before. -/
theorem append_eq_ok_iff (item : Item) (out : List UInt8) :
  (item.append out).1 = .ok () ↔ item.Fits
  := by
  rw [append_eq, ← exists_encode_iff]
  cases item.encode with
  | ok raw => exact iff_of_true rfl ⟨raw, rfl⟩
  | error e => apply iff_of_false nofun nofun

/-- Writing appends nothing when it fails. -/
theorem append_of_error {item : Item} {out : List UInt8} {e : CodecError}
    (failed : (item.append out).1 = .error e) :
  (item.append out).2 = out
  := by
  rw [append_eq] at failed ⊢
  cases h : item.encode with
  | error e' =>
    rw [trace, h]
    apply List.append_nil out
  | ok raw =>
    rw [h] at failed
    cases failed

/-- Writing one item after another is one write for each item, behind what was written before. -/
theorem appendAll_eq (items : List Item) (out : List UInt8) :
  appendAll items out
    = (items.map fun item => (item.append out).1, out ++ items.flatMap fun item => (item.append []).2)
  := by
  induction items generalizing out with
  | nil => rw [List.map_nil, List.flatMap_nil, List.append_nil, appendAll]
  | cons item items ih =>
    simp only [appendAll, append_eq, ih, List.map_cons, List.flatMap_cons, List.append_assoc,
      List.nil_append]

/-- The items of a list whose writing succeeds. -/
def kept (items : List Item) : List Item :=
  ((items.zip (appendAll items []).1).filter fun (_, outcome) => outcome.isOk).map Prod.fst

/-- What fits stays in front of what else fits. -/
theorem filter_fits_of_pos {item : Item} (fits : item.Fits) (items : List Item) :
  ((item :: items).filter fun item => item.Fits) = item :: items.filter fun item => item.Fits
  := List.filter_cons_of_pos (decide_eq_true fits)

/-- What does not fit is left out. -/
theorem filter_fits_of_neg {item : Item} (outside : ¬ item.Fits) (items : List Item) :
  ((item :: items).filter fun item => item.Fits) = items.filter fun item => item.Fits
  := by
  apply List.filter_cons_of_neg
  rw [decide_eq_false outside]
  apply Bool.false_ne_true

/-- The items whose writing succeeds are those that fit. -/
theorem kept_eq (items : List Item) :
  kept items = items.filter fun item => item.Fits
  := by
  rw [kept, appendAll_eq]
  dsimp only
  induction items with
  | nil => rfl
  | cons item items ih =>
    rw [List.map_cons, List.zip_cons_cons, append_eq]
    by_cases fits : item.Fits
    · obtain ⟨raw, h⟩ := (exists_encode_iff item).mpr fits
      rw [h, filter_fits_of_pos fits, ← ih]
      rfl
    · obtain ⟨e, h⟩ := exists_encode_error fits
      rw [h, filter_fits_of_neg fits, ← ih]
      rfl

/-- What the items that fit left is read back as these items, whatever stands behind them. -/
theorem readAll_of_left {items : List Item}
    (countable : ∀ i cardinality, .index i cardinality ∈ items → cardinality ≤ maxCount)
    {b : Buffer} (within : b.position ≤ b.data.length) {rest : List UInt8}
    (left : b.left = items.flatMap trace ++ rest) :
  b.readAll ((items.filter fun item => item.Fits).map kind)
    = ((items.filter fun item => item.Fits).map .ok, ⟨b.data, b.data.length - rest.length⟩)
  := by
  induction items generalizing b with
  | nil =>
    have length := congrArg List.length left
    rw [Buffer.left, List.length_drop, List.flatMap_nil, List.nil_append] at length
    have place : b.data.length - rest.length = b.position := by omega
    rw [List.filter_nil, List.map_nil, List.map_nil, Buffer.readAll, place]
  | cons item items ih =>
    have countableRest := fun i cardinality inside =>
      countable i cardinality (List.mem_cons_of_mem _ inside)
    rw [List.flatMap_cons] at left
    by_cases fits : item.Fits
    · obtain ⟨raw, h⟩ := (exists_encode_iff item).mpr fits
      have some : item.trace = raw := by
        rw [trace, h]
        rfl
      rw [some, List.append_assoc] at left
      have run := run_decode_append h
        (fun i cardinality same => countable i cardinality (by rw [same]; apply List.mem_cons_self))
        (items.flatMap trace ++ rest)
      have outcome := Reader.outcome_eq_ok_iff.mpr run
      rw [← left] at outcome
      obtain ⟨same, after, -, inside⟩ := Buffer.read_spec within item.kind
      have first : (b.read item.kind).1 = .ok item := congrArg Prod.fst outcome
      rw [outcome] at after
      rw [← same] at inside
      rw [filter_fits_of_pos fits, List.map_cons, List.map_cons, Buffer.readAll]
      simp only [first, ih countableRest inside after, same]
    · obtain ⟨e, h⟩ := exists_encode_error fits
      have none : item.trace = [] := by
        rw [trace, h]
        rfl
      rw [none, List.nil_append] at left
      rw [filter_fits_of_neg fits]
      apply ih countableRest within left

/-- The bytes of a stream are those that its items left. -/
theorem left_ofData_appendAll (items : List Item) (rest : List UInt8) :
  (Buffer.ofData ((appendAll items []).2 ++ rest)).left = items.flatMap trace ++ rest
  := by
  simp only [appendAll_eq, append_nil_eq]
  rfl

/-- Streams of items of any kinds read back.  A write succeeds exactly unless the item is a count or
a string that is too large or a reference that is not one into its pool, and a write that fails
appends nothing.  Writing a stream is one such write for each item, behind the bytes of those
before, and the items whose writing succeeds are those that fit.  They are read back in their order,
and the reading ends at the number of bytes that were written, whatever stands behind them.  In any
sequence of reads, failing ones included, each goes on with the bytes that the one before left, and
the position never goes back and never past the end. -/
theorem readAll_kept (items : List Item) (rest : List UInt8)
    (countable : ∀ i cardinality, .index i cardinality ∈ items → cardinality ≤ maxCount) :
  (∀ item out, (append item out).1 = .ok () ↔ item.Fits)
    ∧ (∀ item out e, (append item out).1 = .error e → (append item out).2 = out)
    ∧ (∀ out, appendAll items out = (items.map fun item => (item.append out).1,
      out ++ items.flatMap fun item => (item.append []).2))
    ∧ kept items = (items.filter fun item => item.Fits)
    ∧ (Buffer.ofData ((appendAll items []).2 ++ rest)).readAll ((kept items).map kind)
      = ((kept items).map .ok, ⟨(appendAll items []).2 ++ rest, (appendAll items []).2.length⟩)
    ∧ ∀ data kinds kind,
      let before := ((Buffer.ofData data).readAll kinds).2
      let after := (before.read kind).2
      after.data = data ∧ after.left = (kind.decode.outcome before.left).2
        ∧ before.position ≤ after.position ∧ after.position ≤ data.length
  := by
  use append_eq_ok_iff, fun _ _ _ => append_of_error, appendAll_eq items, kept_eq items
  constructor
  · have read := readAll_of_left countable (Nat.zero_le _) (left_ofData_appendAll items rest)
    have length : (Buffer.ofData ((appendAll items []).2 ++ rest)).data.length - rest.length
        = (appendAll items []).2.length := by
      rw [Buffer.ofData, List.length_append, Nat.add_sub_cancel]
    rw [kept_eq, read, length]
    rfl
  · intro data kinds kind
    have start : (Buffer.ofData data).position ≤ (Buffer.ofData data).data.length :=
      Nat.zero_le _
    obtain ⟨same, inside⟩ := Buffer.readAll_spec start kinds
    rw [← same] at inside
    obtain ⟨same', left, forward, within⟩ := Buffer.read_spec inside kind
    rw [same] at same' within
    use same', left, forward, within

/-- Items of several kinds, of which one reference and one count cannot be written. -/
def medley : List Item :=
  [.count 2, .index 3 3, .string "é", .signed .w16 (-2), .varInt (-300), .count (maxCount + 1),
    .index 65536 65537, .binary32 ⟨0x7FC00001⟩]

/-- The bytes of the others. -/
def medleyBytes : List UInt8 :=
  [2, 0, 0, 0, 2, 0, 0, 0, 0xC3, 0xA9, 0xFE, 0xFF, 0xD7, 4, 0, 0, 1, 0, 1, 0, 0xC0, 0x7F]

theorem readAll_kept_medley :
  (∀ i cardinality, Item.index i cardinality ∈ medley → cardinality ≤ maxCount)
    ∧ (appendAll medley []).1.map Except.isOk
      = [true, false, true, true, true, false, true, true]
    ∧ (appendAll medley []).2 = medleyBytes
    ∧ kept medley = [.count 2, .string "é", .signed .w16 (-2), .varInt (-300), .index 65536 65537,
      .binary32 ⟨0x7FC00001⟩]
    ∧ (Buffer.ofData (medleyBytes ++ [7])).readAll
        [.count, .string, .integer .w16 false, .varInt, .index 65537, .float .w32]
      = ([.ok (.count 2), .ok (.string "é"), .ok (.signed .w16 (-2)), .ok (.varInt (-300)),
          .ok (.index 65536 65537), .ok (.binary32 ⟨0x7FC00001⟩)], ⟨medleyBytes ++ [7], 22⟩)
  := by
  have countable : ∀ i cardinality, .index i cardinality ∈ medley → cardinality ≤ maxCount := by
    intro i cardinality inside
    simp only [medley, List.mem_cons, index.injEq, reduceCtorEq, false_or, List.not_mem_nil,
      or_false] at inside
    rcases inside with ⟨-, rfl⟩ | ⟨-, rfl⟩ <;> decide
  obtain ⟨-, -, outcomes, fitting, whole, -⟩ := readAll_kept medley [7] countable
  have written : (appendAll medley []).2 = medleyBytes := by
    rw [outcomes]
    decide
  have left : kept medley = [.count 2, .string "é", .signed .w16 (-2), .varInt (-300),
      .index 65536 65537, .binary32 ⟨0x7FC00001⟩] := by
    rw [fitting]
    decide
  rw [written, left] at whole
  use countable
  constructor
  · rw [outcomes]
    decide
  use written, left
  apply whole

end Item

end PoolGraph
