import PoolGraph.Numbers
import PoolGraph.Source.Basic
import PoolGraph.Text.Blank

/-!
# Cursors

A `Cursor` is an offset in a file with the characters from there on, which end at the first
malformed byte.  Moving it forward takes characters off the front; `Source.cursorAt` puts one
anywhere.
-/

namespace PoolGraph

/-- The characters of the bytes from `offset` on, up to the first malformed one. -/
def charactersFrom (data : ByteArray) (offset : Nat) : List Char :=
  match _h : data.utf8DecodeChar? offset with
  | none => []
  | some c => c :: charactersFrom data (offset + c.utf8Size)
  termination_by data.size - offset
  decreasing_by
    have inside := ByteArray.lt_size_of_isSome_utf8DecodeChar? (Option.isSome_of_eq_some _h)
    have advances := c.utf8Size_pos
    omega

/-- An offset with the characters that are left. -/
structure Cursor where
  offset : Nat
  rest : List Char
  deriving DecidableEq

/-- The cursor at an offset of a file. -/
def Source.cursorAt (source : Source) (offset : Nat) : Cursor :=
  ⟨offset, charactersFrom source.data offset⟩

namespace Cursor

/-- The character under the cursor; there is none at the end of the well-formed text. -/
def peek? (c : Cursor) : Option Char :=
  c.rest.head?

/-- Whether there is no character under the cursor. -/
def isEnd (c : Cursor) : Bool :=
  c.rest.isEmpty

/-- The cursor after the current character; at the end it stays. -/
def advance (c : Cursor) : Cursor :=
  match c.rest with
  | [] => c
  | first :: rest => ⟨c.offset + first.utf8Size, rest⟩

/-- The characters that satisfy `p` up to the first that does not, and the cursor there. -/
def span (c : Cursor) (p : Char → Bool) : List Char × Cursor :=
  let taken := c.rest.takeWhile p
  (taken, ⟨c.offset + (taken.map Char.utf8Size).sum, c.rest.dropWhile p⟩)

/-- The first of the characters, which begin at `offset`, as far as they lie before `stop`. -/
def charactersUntil (stop offset : Nat) : List Char → List Char
  | [] => []
  | c :: rest => if offset < stop then c :: charactersUntil stop (offset + c.utf8Size) rest else []

/-- The text between this cursor and a later one. -/
def textUntil (c later : Cursor) : String :=
  String.ofList (charactersUntil later.offset c.offset c.rest)

end Cursor

/-! ### Classes of characters -/

/-- ASCII letters. -/
def isLetter (c : Char) : Bool := c.isAlpha

/-- ASCII digits. -/
def isDigit (c : Char) : Bool := c.isDigit

/-- The characters that a name may begin with. -/
def isNameStart (c : Char) : Bool := isLetter c || c == '_'

/-- The characters that a name may go on with. -/
def isNamePart (c : Char) : Bool := isLetter c || isDigit c || c == '_'

end PoolGraph
