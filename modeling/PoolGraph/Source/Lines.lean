import PoolGraph.Source.Basic

/-!
# The table of lines

`Source.lineStarts` is the table of the offsets at which the lines of a file begin.
`Source.lineInfo` finds the line of an offset in this table by bisection and cuts it out of the
file; a cut past its ends would be a fault.
-/

namespace PoolGraph

/-- The first number from `low` on that does not satisfy `p`, or `high` when all below it do.  The
numbers that satisfy `p` must come before those that do not. -/
def bisect (p : Nat → Bool) (low high : Nat) : Nat :=
  if low < high then
    let middle := low + (high - low) / 2
    if p middle then bisect p (middle + 1) high else bisect p low middle
  else low
  termination_by high - low

/-- The text without the occurrences of a character at its end. -/
def Text.trimEnd (c : Char) (text : List Char) : List Char :=
  (text.reverse.dropWhile (· == c)).reverse

namespace Source

/-- The offsets behind the line feeds of bytes that begin at an offset. -/
def behindLineFeeds (offset : Nat) (bytes : List UInt8) : List Nat :=
  ((bytes.zipIdx offset).filter fun (byte, _) => byte == lineFeed).map fun (_, place) => place + 1

/-- The offsets at which lines begin. -/
def lineStarts (source : Source) : Array Nat :=
  (0 :: behindLineFeeds 0 source.data.data.toList).toArray

/-- Where the byte at `offset` is, by the table of lines; an offset past the end means the end. -/
def lineInfo (source : Source) (offset : Nat) : Except Fault LineInfo := do
  let starts := source.lineStarts
  let offset := min offset source.data.size
  let line := bisect (fun i => starts[i]?.any (· ≤ offset)) 0 starts.size
  match starts[line - 1]? with
  | none => throw (.noItem (line - 1))
  | some start =>
    let head ← source.slice start offset
    let text ← source.slice start (starts[line]?.getD source.data.size)
    return {
      line
      column := head.length + 1
      text := String.ofList (Text.trimEnd '\r' (Text.trimEnd '\n' text.toList)) }

end Source

end PoolGraph
