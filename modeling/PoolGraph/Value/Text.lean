import PoolGraph.Float.Layout
import PoolGraph.Text.Quoted
import PoolGraph.Value

/-!
# Texts of values

`Value.appendText` writes a value with references shown by a given function, and
`Value.text` shows a reference by its two numbers, which needs no schema.
-/

namespace PoolGraph.Value

mutual

/-- Appends the text of a value, in which `reference` shows the references. -/
def appendText [Monad m] (reference : Instance → m String) (out : String) : Value → m String
  | .null => pure (out ++ "null")
  | .int i => pure (out ++ toString i.toInt)
  | .uint n => pure (out ++ toString n.toNat)
  | .float x => pure (out ++ x.text)
  | .bool true => pure (out ++ "true")
  | .bool false => pure (out ++ "false")
  | .string text => pure (out ++ Text.listing text)
  | .ref target => do return out ++ (← reference target)
  | .list items => do return (← appendItems reference "" (out ++ "[") items) ++ "]"

/-- Appends items with commas between them; `separator` goes before the first. -/
def appendItems [Monad m] (reference : Instance → m String) (separator out : String) :
    List Value → m String
  | [] => pure out
  | item :: rest => do
    appendItems reference ", " (← appendText reference (out ++ separator) item) rest

end

/-- The text of a value without its region. -/
def text (value : Value) : String :=
  Id.run (appendText (fun target => pure s!"@{target.struct}#{target.index}") "" value)

end PoolGraph.Value
