import PoolGraph.Fault
import PoolGraph.Text.Lossy

/-!
# Source files

A `Span` is a range of bytes of one file and a `Token` the text that a span covers.
`Source.slice` cuts a text out of a file; a cut past its ends is a fault.
-/

namespace PoolGraph

/-- The bytes from `start` up to, but not including, `stop` of a file. -/
structure Span where
  file : Nat
  start : Nat
  stop : Nat
  deriving DecidableEq, Inhabited

/-- A span with the text it covers. -/
structure Token where
  span : Span
  text : String
  deriving DecidableEq, Inhabited

/-- A file. -/
structure Source where
  name : String
  data : ByteArray

/-- A place in a file for a human reader: line and column count from one, the column counts
characters, and the text is the whole line without its end. -/
structure LineInfo where
  line : Nat
  column : Nat
  text : String
  deriving DecidableEq

namespace Source

/-- The byte that ends a line. -/
def lineFeed : UInt8 := 10

/-- The text of the bytes from `start` up to `stop`, malformed parts replaced. -/
def slice (source : Source) (start stop : Nat) : Except Fault String :=
  if start ≤ stop ∧ stop ≤ source.data.size then
    .ok (String.ofList (Text.decodeLossy (source.data.extract start stop).data.toList))
  else .error (.noSlice start stop)

end Source

end PoolGraph
