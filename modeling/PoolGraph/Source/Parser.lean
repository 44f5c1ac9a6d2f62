import PoolGraph.Source.Cursor

/-!
# Parsers that backtrack

A `Parser` moves a cursor and may fail, and then leaves the cursor where it failed.  Going back
is explicit: `attempt` returns to where it began and keeps the furthest offset that was given
up, since an error is reported there.
-/

namespace PoolGraph

/-- The state of a parser: the cursor, the furthest offset at which something was given up,
and the first offset at which nesting was refused. -/
structure Progress where
  cursor : Cursor
  furthest : Nat
  refused : Option Nat

namespace Progress

/-- The beginning of a file. -/
def start (source : Source) : Progress :=
  ⟨source.cursorAt 0, 0, none⟩

/-- Counts the current offset as given up. -/
def giveUp (s : Progress) : Progress :=
  { s with furthest := max s.furthest s.cursor.offset }

/-- Gives up at the current offset and goes on at another place. -/
def recover (s : Progress) (cursor : Cursor) : Progress :=
  { s.giveUp with cursor }

/-- Remembers the first offset at which nesting was refused. -/
def refuse (s : Progress) : Progress :=
  { s with refused := s.refused <|> some s.cursor.offset }

end Progress

/-- A computation that moves a cursor and may fail. -/
abbrev Parser := OptionT (StateM Progress)

namespace Parser

/-- The current cursor. -/
def cursor : Parser Cursor := do
  return (← get).cursor

/-- Moves the cursor. -/
def moveTo (c : Cursor) : Parser Unit :=
  modify fun s => { s with cursor := c }

/-- What `p` gives, or nothing when it fails; then the cursor is where it was before. -/
def attempt (p : Parser α) : Parser (Option α) := OptionT.mk do
  let before := (← get).cursor
  match ← p.run with
  | some x => return some (some x)
  | none =>
    modify fun s => s.recover before
    return some none

/-- The results of `p` behind those that stand in `before` in reverse, until `p` fails or was
applied as often as the first argument says. -/
def manyWithin (p : Parser α) : Nat → List α → Parser (List α)
  | 0, before => pure before.reverse
  | more + 1, before => do
    match ← attempt p with
    | some x => manyWithin p more (x :: before)
    | none => pure before.reverse

/-- The results of `p` until it fails, for a `p` that takes at least one character whenever it
succeeds. -/
def many (p : Parser α) : Parser (List α) := do
  manyWithin p ((← cursor).rest.length + 1) []

/-- Takes the given character. -/
def char (c : Char) : Parser Unit := do
  let here ← cursor
  if here.peek? = some c then moveTo here.advance else failure

/-- Takes the characters of a word one by one and stops before the first that differs. -/
def word : List Char → Parser Unit
  | [] => pure ()
  | c :: rest => do
    char c
    word rest

/-- Takes all characters up to the first that does not satisfy `p`. -/
def takeWhile (p : Char → Bool) : Parser (List Char) := do
  let (taken, after) := (← cursor).span p
  moveTo after
  return taken

/-- Takes white space, if there is any. -/
def blanks : Parser Unit := do
  let _ ← takeWhile Text.isBlank

end Parser

/-- How many lists and structs may be open at once. -/
def maxDepth : Nat := 256

/-- How many levels are open. -/
structure Nesting where
  depth : Nat

namespace Nesting

/-- Opens a level, unless as many are open as there may be; then the place is remembered. -/
def enter (n : Nesting) (s : Progress) : Bool × Nesting × Progress :=
  if n.depth < maxDepth then (true, ⟨n.depth + 1⟩, s) else (false, n, s.refuse)

/-- Tries to open levels as often as the first argument says and tells how many were opened. -/
def enterMany : Nat → Nesting → Progress → Nat × Nesting × Progress
  | 0, n, s => (0, n, s)
  | more + 1, n, s =>
    let (opened, n, s) := n.enter s
    let (count, n, s) := enterMany more n s
    (count + opened.toNat, n, s)

/-- Closes a level. -/
def leave (n : Nesting) : Except Fault Nesting :=
  match n.depth with
  | 0 => .error .notNested
  | depth + 1 => .ok ⟨depth⟩

end Nesting

end PoolGraph
