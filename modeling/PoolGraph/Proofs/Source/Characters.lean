import Mathlib.Tactic.Use
import PoolGraph.Source.Cursor

/-!
# The characters of a file

`charactersFrom` reads a whole file exactly when the file is the UTF-8 encoding of what it reads
(`charactersFrom_eq_iff`).  `Cursor.span` and `Cursor.textUntil` are described on a cursor whose
rest begins with a known text.
-/

namespace PoolGraph

/-- The number of bytes of a text. -/
def textSize (text : List Char) : Nat :=
  (text.map Char.utf8Size).sum

@[simp]
theorem textSize_nil :
  textSize [] = 0
  := rfl

@[simp]
theorem textSize_cons (c : Char) (text : List Char) :
  textSize (c :: text) = c.utf8Size + textSize text
  := by
  rw [textSize, List.map_cons, List.sum_cons, textSize]

@[simp]
theorem textSize_append (text text' : List Char) :
  textSize (text ++ text') = textSize text + textSize text'
  := by
  rw [textSize, List.map_append, List.sum_append, textSize, textSize]

/-! ### UTF-8 -/

/-- A character takes as many bytes as it says. -/
theorem size_utf8Encode_singleton (c : Char) :
  [c].utf8Encode.size = c.utf8Size
  := by
  rw [List.utf8Encode_singleton, List.size_toByteArray, String.length_utf8EncodeChar]

/-- The bytes from an offset on, by their first character. -/
theorem extract_eq_utf8Encode_cons_iff {data : ByteArray} {offset : Nat} {c : Char}
    {bytes : ByteArray} :
  data.extract offset data.size = [c].utf8Encode ++ bytes
    ↔ data.utf8DecodeChar? offset = some c
      ∧ data.extract (offset + c.utf8Size) data.size = bytes
  := by
  have later : (data.extract offset data.size).extract c.utf8Size (data.size - offset)
      = data.extract (offset + c.utf8Size) data.size := by
    rw [ByteArray.extract_extract]
    congr 1
    omega
  rw [ByteArray.utf8DecodeChar?_eq_utf8DecodeChar?_extract]
  constructor
  · intro h
    rw [← later, h, List.utf8DecodeChar?_utf8Encode_singleton_append]
    constructor
    · rfl
    apply ByteArray.extract_append_eq_right (size_utf8Encode_singleton c).symm
    have size := congrArg ByteArray.size h
    rw [ByteArray.size_extract, ByteArray.size_append] at size
    omega
  · rintro ⟨hc, rfl⟩
    have first := ByteArray.eq_of_utf8DecodeChar?_eq_some hc
    rw [ByteArray.size_extract, Nat.min_self, later, ← List.utf8Encode_singleton] at first
    apply first

/-- No characters begin at an offset where none is decoded. -/
theorem charactersFrom_eq_nil_iff {data : ByteArray} {offset : Nat} :
  charactersFrom data offset = [] ↔ data.utf8DecodeChar? offset = none
  := by
  rw [charactersFrom.eq_def]
  split
  · next h => simp [h]
  · next c h => simp [h]

/-- The characters from an offset are the one that is decoded there and those behind it. -/
theorem charactersFrom_eq_cons_iff {data : ByteArray} {offset : Nat} {c : Char}
    {text : List Char} :
  charactersFrom data offset = c :: text
    ↔ data.utf8DecodeChar? offset = some c ∧ charactersFrom data (offset + c.utf8Size) = text
  := by
  rw [charactersFrom.eq_def]
  split
  · next h => simp [h]
  · next c' h =>
    rw [h, List.cons.injEq, Option.some.injEq]
    constructor <;> rintro ⟨rfl, rest⟩ <;> exact ⟨rfl, rest⟩

/-- All bytes from an offset on are characters exactly when they encode them. -/
theorem charactersFrom_eq_iff {data : ByteArray} {offset : Nat} (inside : offset ≤ data.size)
    {t : List Char} :
  charactersFrom data offset = t ∧ offset + textSize t = data.size
    ↔ data.extract offset data.size = t.utf8Encode
  := by
  induction t generalizing offset with
  | nil =>
    rw [List.utf8Encode_nil, ByteArray.extract_eq_empty_iff, textSize_nil,
      charactersFrom_eq_nil_iff]
    constructor
    · rintro ⟨-, h⟩
      omega
    · intro h
      constructor
      · apply Option.eq_none_iff_forall_ne_some.mpr
        intro c hc
        have := ByteArray.lt_size_of_isSome_utf8DecodeChar? (Option.isSome_of_eq_some hc)
        omega
      · omega
  | cons c text ih =>
    rw [List.utf8Encode_cons, extract_eq_utf8Encode_cons_iff, textSize_cons,
      charactersFrom_eq_cons_iff]
    constructor
    · rintro ⟨⟨hc, rest⟩, total⟩
      constructor
      · apply hc
      · apply (ih (by omega)).mp ⟨rest, by omega⟩
    · rintro ⟨hc, rest⟩
      have := ByteArray.le_size_of_utf8DecodeChar?_eq_some hc
      obtain ⟨rest, total⟩ := (ih (by omega)).mpr rest
      constructor
      · exact ⟨hc, rest⟩
      · omega

/-- The characters from the start fill a file exactly when it is their encoding. -/
theorem charactersFrom_zero_eq_iff {data : ByteArray} {text : List Char} :
  charactersFrom data 0 = text ∧ textSize text = data.size ↔ data = text.utf8Encode
  := by
  have h := charactersFrom_eq_iff (Nat.zero_le data.size) (t := text)
  rw [Nat.zero_add, ByteArray.extract_zero_size] at h
  apply h

/-! ### Cursors on a known text -/

namespace Cursor

/-- A span ends in front of the first character that does not belong to it. -/
theorem span_append {p : Char → Bool} {taken rest : List Char} (all : ∀ c ∈ taken, p c = true)
    (stops : ∀ c ∈ rest.head?, p c = false) (offset : Nat) :
  span ⟨offset, taken ++ rest⟩ p = (taken, ⟨offset + textSize taken, rest⟩)
  := by
  have ends : rest.takeWhile p = [] ∧ rest.dropWhile p = rest := by
    cases rest with
    | nil => exact ⟨rfl, rfl⟩
    | cons c rest =>
      have hc := stops c rfl
      rw [List.takeWhile_cons, List.dropWhile_cons, hc]
      exact ⟨rfl, rfl⟩
  simp only [span, List.takeWhile_append_of_pos all, List.dropWhile_append_of_pos all, ends,
    List.append_nil, textSize]

/-- The characters up to an offset are those that were taken up to it. -/
theorem charactersUntil_append (offset : Nat) (text rest : List Char) :
  charactersUntil (offset + textSize text) offset (text ++ rest) = text
  := by
  induction text generalizing offset with
  | nil =>
    cases rest with
    | nil => rfl
    | cons c rest =>
      rw [List.nil_append, charactersUntil, textSize_nil, Nat.add_zero, if_neg (Nat.lt_irrefl _)]
  | cons c text ih =>
    have advances := c.utf8Size_pos
    rw [List.cons_append, charactersUntil, textSize_cons, if_pos (by omega), ← Nat.add_assoc, ih]

/-- The text up to a cursor is what was taken up to it. -/
theorem textUntil_append (offset : Nat) (text rest : List Char) :
  textUntil ⟨offset, text ++ rest⟩ ⟨offset + textSize text, rest⟩ = String.ofList text
  := by
  rw [textUntil, charactersUntil_append]

end Cursor

end PoolGraph
