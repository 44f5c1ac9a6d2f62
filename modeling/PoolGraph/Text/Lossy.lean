/-!
# Lossy decoding of UTF-8

`decodeLossy` reads bytes that need not be UTF-8: every maximal malformed part becomes one
replacement character.
-/

namespace PoolGraph.Text

/-- The character that well-formed UTF-8 starts with. -/
def headChar? (bytes : List UInt8) : Option Char :=
  (ByteArray.mk (bytes.take 4).toArray).utf8DecodeChar? 0

/-- The second bytes that may follow a lead byte of three or four bytes. -/
def secondByteRange? (lead : UInt8) : Option (UInt8 × UInt8) :=
  if lead == 0xE0 then some (0xA0, 0xBF)
  else if lead == 0xED then some (0x80, 0x9F)
  else if 0xE1 ≤ lead && lead ≤ 0xEF then some (0x80, 0xBF)
  else if lead == 0xF0 then some (0x90, 0xBF)
  else if 0xF1 ≤ lead && lead ≤ 0xF3 then some (0x80, 0xBF)
  else if lead == 0xF4 then some (0x80, 0x8F)
  else none

/-- How many bytes after `lead` belong to the same malformed character: those that could have
begun a well-formed one. -/
def brokenTail (lead : UInt8) (rest : List UInt8) : Nat :=
  match secondByteRange? lead, rest with
  | some (low, high), second :: more =>
    if low ≤ second && second ≤ high then
      match more with
      | third :: _ => if 0xF0 ≤ lead && 0x80 ≤ third && third ≤ 0xBF then 2 else 1
      | [] => 1
    else 0
  | _, _ => 0

/-- The characters of the bytes, with one replacement character for each maximal malformed
part. -/
def decodeLossy : List UInt8 → List Char
  | [] => []
  | lead :: rest =>
    match headChar? (lead :: rest) with
    | some c => c :: decodeLossy (rest.drop (c.utf8Size - 1))
    | none => '\uFFFD' :: decodeLossy (rest.drop (brokenTail lead rest))
  termination_by bytes => bytes.length
  decreasing_by all_goals (simp only [List.length_cons, List.length_drop]; omega)

end PoolGraph.Text
