import PoolGraph.Source.Cursor

/-!
# Windows

The first byte of a character announces how many bytes the character has.  `announcedChar?` decodes
just these bytes, when they are there and are UTF-8.  A `Window` is the place of one character of a
file; `Source.windowAt` puts it anywhere, and `Source.nextWindow` moves it behind its character.
-/

namespace PoolGraph

/-- The number of bytes of the characters that begin with a byte. -/
def announcedSize? (lead : UInt8) : Option Nat :=
  if lead ≤ 0x7F then some 1
  else if 0xC2 ≤ lead ∧ lead ≤ 0xDF then some 2
  else if 0xE0 ≤ lead ∧ lead ≤ 0xEF then some 3
  else if 0xF0 ≤ lead ∧ lead ≤ 0xF4 then some 4
  else none

/-- The character at an offset and the number of its bytes. -/
def announcedChar? (data : ByteArray) (offset : Nat) : Option (Char × Nat) := do
  let lead ← data.data[offset]?
  let size ← announcedSize? lead
  if offset + size ≤ data.size then
    let text ← String.fromUTF8? (data.extract offset (offset + size))
    let c ← text.toList.head?
    return (c, size)
  else none

/-- The bytes from `start` up to `stop`, which are those of a character; where there is none, the
two are the same. -/
structure Window where
  start : Nat
  stop : Nat
  shown : Option Char
  deriving DecidableEq

namespace Source

/-- The window at an offset of a file. -/
def windowAt (source : Source) (offset : Nat) : Window :=
  match announcedChar? source.data offset with
  | some (c, size) => ⟨offset, offset + size, some c⟩
  | none => ⟨offset, offset, none⟩

/-- The window behind the character of this one; where there is none, it stays. -/
def nextWindow (source : Source) (w : Window) : Window :=
  source.windowAt w.stop

end Source

end PoolGraph
