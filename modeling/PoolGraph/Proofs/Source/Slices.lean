import Mathlib.Tactic.Use
import PoolGraph.Proofs.Source.Parser

/-!
# Slices between cursors

What stands between two cursors of a file is a slice of its bytes (`Cursor.Took.slice`): the offsets
of a parser that moves forward are never out of order or past the end, and no character between
them is replaced.
-/

namespace PoolGraph

/-! ### Decoding what was encoded -/

namespace Text

theorem headChar?_append (c : Char) (bytes : List UInt8) :
  headChar? (String.utf8EncodeChar c ++ bytes) = some c
  := by
  have short : (String.utf8EncodeChar c).length ≤ 4 := by
    rw [String.length_utf8EncodeChar]
    apply c.utf8Size_le_four
  have first : ByteArray.mk ((String.utf8EncodeChar c ++ bytes).take 4).toArray
      = [c].utf8Encode ++ ByteArray.mk (bytes.take (4 - (String.utf8EncodeChar c).length)).toArray := by
    apply ByteArray.ext
    rw [ByteArray.data_append, List.utf8Encode_singleton, List.data_toByteArray, List.take_append,
      List.take_of_length_le short, List.append_toArray]
  rw [headChar?, first, List.utf8DecodeChar?_utf8Encode_singleton_append]

theorem decodeLossy_append (c : Char) (bytes : List UInt8) :
  decodeLossy (String.utf8EncodeChar c ++ bytes) = c :: decodeLossy bytes
  := by
  have first := headChar?_append c bytes
  have size := String.length_utf8EncodeChar c
  cases h : String.utf8EncodeChar c with
  | nil =>
    rw [h, List.length_nil] at size
    exact absurd size.symm (Nat.ne_of_gt c.utf8Size_pos)
  | cons lead rest =>
    rw [h, List.length_cons] at size
    rw [h, List.cons_append] at first
    rw [List.cons_append, decodeLossy, first]
    dsimp only
    rw [← size, Nat.add_sub_cancel, List.drop_left]

/-- Nothing is replaced in the encoding of a text. -/
theorem decodeLossy_utf8Encode (text : List Char) :
  decodeLossy text.utf8Encode.data.toList = text
  := by
  rw [List.utf8Encode, List.toList_data_toByteArray]
  induction text with
  | nil => rw [List.flatMap_nil, decodeLossy]
  | cons c text ih => rw [List.flatMap_cons, decodeLossy_append, ih]

end Text

/-! ### Cursors of a file -/

/-- The bytes of the characters from an offset on. -/
theorem extract_of_charactersFrom {data : ByteArray} {offset : Nat} (inside : offset ≤ data.size)
    {text rest : List Char} (h : charactersFrom data offset = text ++ rest) :
  data.extract offset (offset + textSize text) = text.utf8Encode
    ∧ offset + textSize text ≤ data.size ∧ charactersFrom data (offset + textSize text) = rest
  := by
  induction text generalizing offset with
  | nil =>
    constructor
    · rw [textSize_nil, Nat.add_zero, List.utf8Encode_nil, ByteArray.extract_eq_empty_iff]
      omega
    use inside, h
  | cons c text ih =>
    obtain ⟨hc, after⟩ := charactersFrom_eq_cons_iff.mp h
    have fits := ByteArray.le_size_of_utf8DecodeChar?_eq_some hc
    obtain ⟨bytes, within, later⟩ := ih fits after
    have first : data.extract offset (offset + c.utf8Size) = [c].utf8Encode := by
      have whole := extract_eq_utf8Encode_cons_iff.mpr ⟨hc, rfl⟩
      have part : (data.extract offset data.size).extract 0 c.utf8Size
          = data.extract offset (offset + c.utf8Size) := by
        rw [ByteArray.extract_extract]
        congr 1
        omega
      rw [← part, whole, ByteArray.extract_append_eq_left (size_utf8Encode_singleton c).symm]
    rw [textSize_cons, ← Nat.add_assoc]
    constructor
    · rw [List.utf8Encode_cons, ← first, ← bytes, ByteArray.extract_append_extract]
      congr 1 <;> omega
    use within, later

/-- Whether a cursor stands in a file, in front of what is left of it. -/
structure Cursor.On (source : Source) (c : Cursor) : Prop where
  inside : c.offset ≤ source.data.size
  rest_eq : charactersFrom source.data c.offset = c.rest

theorem Cursor.on_start (source : Source) :
  (Progress.start source).cursor.On source
  := ⟨Nat.zero_le _, rfl⟩

namespace Cursor.Took

variable {source : Source} {c later : Cursor} {text : List Char}

theorem on (took : c.Took text later) (h : c.On source) :
  later.On source
  := by
  obtain ⟨-, within, rest⟩ := extract_of_charactersFrom h.inside (h.rest_eq.trans took.1)
  rw [← took.2] at within rest
  exact ⟨within, rest⟩

/-- A later cursor of the file bounds a slice, and the slice is the text between them. -/
theorem slice (took : c.Took text later) (h : c.On source) :
  source.slice c.offset later.offset = .ok (c.textUntil later)
  := by
  obtain ⟨bytes, within, -⟩ := extract_of_charactersFrom h.inside (h.rest_eq.trans took.1)
  rw [Source.slice, took.textUntil, took.2, if_pos ⟨Nat.le_add_right _ _, within⟩, bytes,
    Text.decodeLossy_utf8Encode]

end Cursor.Took

end PoolGraph
