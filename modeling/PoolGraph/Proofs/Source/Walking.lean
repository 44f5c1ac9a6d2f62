import Mathlib.Logic.Function.Iterate
import PoolGraph.Proofs.Source.Slices
import PoolGraph.Proofs.Wire.Reading
import PoolGraph.Source.Window

/-!
# Walking through a file

A cursor that is put at the beginning of a file and moved on visits the characters of the longest
front of the file that is valid UTF-8, and no others (`Source.walk_longest`).  On the way there it
sees what the windows of the file show (`Source.windowAt_eq`): where the bytes that a first byte
announces are no character, every longer piece of the file is malformed as well.
-/

namespace PoolGraph

/-! ### Windows -/

/-- The first byte announces the size by the window it lies in. -/
theorem announcedSize?_ofNat {n : Nat} (small : n < 256) :
  announcedSize? (UInt8.ofNat n)
    = if n ≤ 0x7F then some 1
      else if 0xC2 ≤ n ∧ n ≤ 0xDF then some 2
      else if 0xE0 ≤ n ∧ n ≤ 0xEF then some 3
      else if 0xF0 ≤ n ∧ n ≤ 0xF4 then some 4
      else none
  := by
  have value : (UInt8.ofNat n).toNat = n := by
    rw [UInt8.toNat_ofNat', Nat.mod_eq_of_lt small]
  simp only [announcedSize?, UInt8.le_iff_toNat_le, value]
  rfl

/-- The first byte of a character announces as many bytes as the character has. -/
theorem announcedSize?_head (c : Char) :
  (String.utf8EncodeChar c).head?.bind announcedSize? = some c.utf8Size
  := by
  have top : c.val.toNat < 0x110000 := by
    have := c.valid
    rcases this with h | ⟨-, h⟩ <;> omega
  have size : c.utf8Size = if c.val.toNat ≤ 0x7F then 1 else if c.val.toNat ≤ 0x7FF then 2
      else if c.val.toNat ≤ 0xFFFF then 3 else 4 := rfl
  rw [size]
  unfold String.utf8EncodeChar
  dsimp only
  generalize c.val.toNat = v at top ⊢
  split
  · rw [List.head?_cons, Option.bind_some, announcedSize?_ofNat (by omega), if_pos (by omega)]
  split
  · rw [List.head?_cons, Option.bind_some, announcedSize?_ofNat (by omega), if_neg (by omega),
      if_pos (by omega)]
  split
  · rw [List.head?_cons, Option.bind_some, announcedSize?_ofNat (by omega), if_neg (by omega),
      if_neg (by omega), if_pos (by omega)]
  · rw [List.head?_cons, Option.bind_some, announcedSize?_ofNat (by omega), if_neg (by omega),
      if_neg (by omega), if_neg (by omega), if_pos (by omega)]

/-- A character begins with its first byte. -/
theorem getElem?_of_utf8DecodeChar? {data : ByteArray} {offset : Nat} {c : Char}
    (h : data.utf8DecodeChar? offset = some c) :
  data.data[offset]? = (String.utf8EncodeChar c).head?
  := by
  have whole := extract_eq_utf8Encode_cons_iff.mpr ⟨h, rfl⟩
  have inside := ByteArray.lt_size_of_isSome_utf8DecodeChar? (Option.isSome_of_eq_some h)
  have long : 0 < (String.utf8EncodeChar c).toArray.size := by
    rw [List.size_toArray, String.length_utf8EncodeChar]
    apply c.utf8Size_pos
  have first : (data.extract offset data.size).data[0]? = data.data[offset]? := by
    rw [ByteArray.data_extract, Array.getElem?_extract, if_pos, Nat.add_zero]
    rw [ByteArray.size] at inside ⊢
    omega
  rw [← first, whole, ByteArray.data_append, List.utf8Encode_singleton, List.data_toByteArray,
    Array.getElem?_append_left long, List.getElem?_toArray, List.head?_eq_getElem?]

/-- A character has the size that its first byte announces. -/
theorem announcedSize?_of_utf8DecodeChar? {data : ByteArray} {offset : Nat} {c : Char}
    (h : data.utf8DecodeChar? offset = some c) :
  data.data[offset]?.bind announcedSize? = some c.utf8Size
  := by
  rw [getElem?_of_utf8DecodeChar? h, announcedSize?_head]

/-- The bytes that a first byte announces are UTF-8 exactly when a character stands there, and then
they are that character. -/
theorem announcedChar?_eq_some_iff {data : ByteArray} {offset : Nat} {c : Char} {size : Nat} :
  announcedChar? data offset = some (c, size)
    ↔ data.utf8DecodeChar? offset = some c ∧ size = c.utf8Size
  := by
  constructor
  · intro h
    unfold announcedChar? at h
    obtain ⟨lead, hlead, h⟩ := Option.bind_eq_some_iff.mp h
    obtain ⟨announced, hsize, h⟩ := Option.bind_eq_some_iff.mp h
    split at h
    · next inside =>
      obtain ⟨text, valid, h⟩ := Option.bind_eq_some_iff.mp h
      obtain ⟨first, begins, h⟩ := Option.bind_eq_some_iff.mp h
      obtain ⟨rfl, rfl⟩ := Prod.mk.inj (Option.some.inj h)
      obtain ⟨more, spelled⟩ := List.head?_eq_some_iff.mp begins
      have bytes := Decode.fromUTF8?_eq_some_iff.mp valid
      rw [← String.utf8Encode_toList, spelled, List.utf8Encode_cons] at bytes
      have whole : data.extract offset data.size
          = [first].utf8Encode
            ++ (more.utf8Encode ++ data.extract (offset + announced) data.size) := by
        rw [← ByteArray.append_assoc, bytes, ByteArray.extract_append_extract]
        congr 1 <;> omega
      have found := (extract_eq_utf8Encode_cons_iff.mp whole).1
      have size := announcedSize?_of_utf8DecodeChar? found
      rw [hlead, Option.bind_some, hsize] at size
      constructor
      · apply found
      · apply Option.some.inj size
    · cases h
  · rintro ⟨h, rfl⟩
    have inside := ByteArray.le_size_of_utf8DecodeChar?_eq_some h
    obtain ⟨lead, hlead, hsize⟩ := Option.bind_eq_some_iff.mp (announcedSize?_of_utf8DecodeChar? h)
    have start : offset ≤ data.size := by omega
    have whole : charactersFrom data offset
        = [c] ++ charactersFrom data (offset + c.utf8Size) :=
      charactersFrom_eq_cons_iff.mpr ⟨h, rfl⟩
    obtain ⟨bytes, -, -⟩ := extract_of_charactersFrom start whole
    rw [textSize_cons, textSize_nil, Nat.add_zero] at bytes
    have valid : String.fromUTF8? (data.extract offset (offset + c.utf8Size))
        = some (String.ofList [c]) := by
      rw [Decode.fromUTF8?_eq_some_iff, String.toByteArray_ofList, bytes]
    simp only [announcedChar?, Option.bind_eq_bind, hlead, hsize, valid, Option.bind_some,
      if_pos inside, String.toList_ofList]
    rfl

/-- What a cursor sees, as a window. -/
def Cursor.window (c : Cursor) : Window :=
  ⟨c.offset, c.advance.offset, c.peek?⟩

namespace Source

/-- The window at an offset is that of the cursor there. -/
theorem windowAt_eq (source : Source) (offset : Nat) :
  source.windowAt offset = (source.cursorAt offset).window
  := by
  unfold windowAt cursorAt
  cases h : source.data.utf8DecodeChar? offset with
  | some c =>
    rw [announcedChar?_eq_some_iff.mpr ⟨h, rfl⟩, charactersFrom_eq_cons_iff.mpr ⟨h, rfl⟩]
    rfl
  | none =>
    have absent : announcedChar? source.data offset = none := by
      apply Option.eq_none_iff_forall_ne_some.mpr
      rintro ⟨c, size⟩ found
      rw [(announcedChar?_eq_some_iff.mp found).1] at h
      cases h
    rw [absent, charactersFrom_eq_nil_iff.mpr h]
    rfl

end Source

/-! ### The longest valid front -/

/-- A text that a file encodes from an offset on begins the characters from there. -/
theorem exists_charactersFrom {data : ByteArray} {offset : Nat} {text : List Char}
    {rest : ByteArray} (h : data.extract offset data.size = text.utf8Encode ++ rest) :
  ∃ more, charactersFrom data offset = text ++ more
  := by
  induction text generalizing offset with
  | nil =>
    use charactersFrom data offset
    rfl
  | cons c text ih =>
    rw [List.utf8Encode_cons, ByteArray.append_assoc, extract_eq_utf8Encode_cons_iff] at h
    obtain ⟨first, later⟩ := h
    obtain ⟨more, found⟩ := ih later
    use more
    apply charactersFrom_eq_cons_iff.mpr ⟨first, found⟩

/-- A text has as many bytes as its characters together. -/
theorem size_utf8Encode (text : List Char) :
  text.utf8Encode.size = textSize text
  := (charactersFrom_zero_eq_iff.mpr rfl).2.symm

/-- Whether the first `size` bytes spell a text and no longer front of the bytes spells any. -/
structure LongestFront (data : ByteArray) (text : List Char) (size : Nat) : Prop where
  inside : size ≤ data.size
  spelled : data.extract 0 size = text.utf8Encode
  longest : ∀ n ≤ data.size, (data.extract 0 n).IsValidUTF8 → n ≤ size

/-- The characters that are read are the longest valid front. -/
theorem longestFront (data : ByteArray) :
  LongestFront data (charactersFrom data 0) (textSize (charactersFrom data 0))
  := by
  obtain ⟨spelled, inside, -⟩ :=
    extract_of_charactersFrom (Nat.zero_le data.size) (List.append_nil (charactersFrom data 0)).symm
  rw [Nat.zero_add] at spelled inside
  refine ⟨inside, spelled, ?_⟩
  rintro n within ⟨text, valid⟩
  have whole : data.extract 0 data.size = text.utf8Encode ++ data.extract n data.size := by
    rw [← valid, ByteArray.extract_append_extract]
    congr 1
    omega
  obtain ⟨more, found⟩ := exists_charactersFrom whole
  have size := congrArg ByteArray.size valid
  rw [ByteArray.size_extract, size_utf8Encode] at size
  rw [found, textSize_append]
  omega

/-! ### Steps -/

namespace Cursor

/-- Stepping over some characters leaves those behind them. -/
theorem iterate_advance_append (offset : Nat) (before rest : List Char) :
  advance^[before.length] ⟨offset, before ++ rest⟩ = ⟨offset + textSize before, rest⟩
  := by
  induction before generalizing offset with
  | nil => rfl
  | cons c before ih =>
    rw [List.length_cons, Function.iterate_succ_apply, List.cons_append, textSize_cons,
      ← Nat.add_assoc, ← ih]
    rfl

/-- A step keeps a cursor on its source. -/
theorem On.advance {source : Source} {c : Cursor} (h : c.On source) :
  c.advance.On source
  := by
  cases hpeek : c.peek? with
  | some first => apply (Took.advance hpeek).on h
  | none =>
    have last : c.advance = c := by
      rw [peek?, List.head?_eq_none_iff] at hpeek
      rw [Cursor.advance, hpeek]
    rw [last]
    apply h

/-- A cursor on its source is the one at its offset. -/
theorem On.cursorAt_offset {source : Source} {c : Cursor} (h : c.On source) :
  source.cursorAt c.offset = c
  := by
  rw [Source.cursorAt, h.rest_eq]

end Cursor

namespace Source

/-- The cursor that was put at the beginning of a file and moved on a number of times. -/
def walk (source : Source) (steps : Nat) : Cursor :=
  Cursor.advance^[steps] (source.cursorAt 0)

/-- One step more is a step from where the walk was. -/
theorem walk_succ (source : Source) (steps : Nat) :
  source.walk (steps + 1) = (source.walk steps).advance
  := Function.iterate_succ_apply' ..

/-- A walk stays on its source. -/
theorem on_walk (source : Source) (steps : Nat) :
  (source.walk steps).On source
  := by
  induction steps with
  | zero => apply Cursor.on_start
  | succ steps ih =>
    rw [walk_succ]
    apply ih.advance

/-- Behind the characters of a part of the text the cursor has the others before it. -/
theorem walk_of_append {source : Source} {before rest : List Char}
    (h : charactersFrom source.data 0 = before ++ rest) :
  source.walk before.length = ⟨textSize before, rest⟩
  := by
  rw [walk, cursorAt, h, Cursor.iterate_advance_append, Nat.zero_add]

/-- Beyond the last character a walk stays at the end. -/
theorem walk_of_le {source : Source} {steps : Nat}
    (h : (charactersFrom source.data 0).length ≤ steps) :
  source.walk steps = ⟨textSize (charactersFrom source.data 0), []⟩
  := by
  obtain ⟨more, rfl⟩ := Nat.exists_eq_add_of_le' h
  rw [walk, Function.iterate_add_apply]
  change Cursor.advance^[more] (source.walk _) = _
  rw [walk_of_append (List.append_nil _).symm]
  apply Function.iterate_fixed
  rfl

/-- A walk is at the end when it has passed every character. -/
theorem isEnd_walk_iff (source : Source) (steps : Nat) :
  (source.walk steps).isEnd = true ↔ (charactersFrom source.data 0).length ≤ steps
  := by
  constructor
  · intro ended
    by_contra short
    have inside := Nat.lt_of_not_le short
    have whole := (List.take_append_drop steps (charactersFrom source.data 0)).symm
    have place := walk_of_append whole
    rw [List.length_take, Nat.min_eq_left (Nat.le_of_lt inside)] at place
    rw [place, Cursor.isEnd, List.isEmpty_iff, List.drop_eq_nil_iff] at ended
    omega
  · intro past
    rw [walk_of_le past]
    rfl

/-- The windows move as the cursor does. -/
theorem iterate_nextWindow (source : Source) (steps : Nat) :
  source.nextWindow^[steps] (source.windowAt 0) = (source.walk steps).window
  := by
  induction steps with
  | zero => apply windowAt_eq
  | succ steps ih =>
    have later := (source.on_walk steps).advance.cursorAt_offset
    rw [Function.iterate_succ_apply', ih, walk_succ, nextWindow, Cursor.window, windowAt_eq, later]

/-- A cursor that walks through a file visits the characters of the longest front of the file that
is valid UTF-8, in their order, each at the offset of its bytes.  It comes to the end right behind
them and stays there.  From anywhere, going back to the offset of a visited character shows that
character again; and the windows of the file show the same all the way. -/
theorem walk_longest (source : Source) :
  ∃ text size, LongestFront source.data text size
    ∧ (∀ before c after, text = before ++ c :: after →
        (source.walk before.length).offset = textSize before
          ∧ (source.walk before.length).peek? = some c)
    ∧ (∀ steps, (source.walk steps).isEnd = true ↔ text.length ≤ steps)
    ∧ (∀ steps, text.length ≤ steps →
        (source.walk steps).offset = size ∧ source.walk steps = source.walk text.length)
    ∧ (∀ steps, source.cursorAt (source.walk steps).offset = source.walk steps)
    ∧ ∀ steps, source.nextWindow^[steps] (source.windowAt 0)
        = ⟨(source.walk steps).offset, (source.walk (steps + 1)).offset, (source.walk steps).peek?⟩
  := by
  use charactersFrom source.data 0, textSize (charactersFrom source.data 0),
    longestFront source.data
  constructor
  · intro before c after h
    rw [walk_of_append h]
    exact ⟨rfl, rfl⟩
  constructor
  · apply source.isEnd_walk_iff
  constructor
  · intro steps past
    rw [walk_of_le past, walk_of_le (Nat.le_refl _)]
    exact ⟨rfl, rfl⟩
  constructor
  · intro steps
    apply (source.on_walk steps).cursorAt_offset
  · intro steps
    rw [iterate_nextWindow, Cursor.window, walk_succ]

end Source

end PoolGraph
