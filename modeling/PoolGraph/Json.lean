import PoolGraph.Float.Layout
import PoolGraph.Text.Quoted

/-!
# JSON trees

`Json` is a JSON value whose members keep their order, `Json.sortedObject` builds an object
with sorted keys, and `Json.pretty` writes a tree with two spaces of indentation a level.
-/

namespace PoolGraph

/-- A JSON value.  A number is kept as an integer or by the bits of a double, so that the two
zeros differ. -/
inductive Json where
  | null
  | bool (b : Bool)
  | int (i : Int)
  | float (x : Binary64)
  | string (text : String)
  | array (items : List Json)
  | object (members : List (String × Json))
  deriving Inhabited

namespace Json

/-- A number, or null when it is not finite. -/
def ofFloat (x : Binary64) : Json :=
  if x.isFinite then .float x else .null

/-- The members with one more, put where the order of keys asks; an equal key loses its old
value. -/
def insertMember (key : String) (value : Json) : List (String × Json) → List (String × Json)
  | [] => [(key, value)]
  | (other, old) :: rest =>
    if key < other then (key, value) :: (other, old) :: rest
    else if key = other then (key, value) :: rest
    else (other, old) :: insertMember key value rest

/-- The object with the given members, sorted by key; of equal keys the last one stays. -/
def sortedObject (members : List (String × Json)) : Json :=
  .object (members.foldl (fun sorted member => insertMember member.1 member.2 sorted) [])

/-- A line break and the indentation of the given level. -/
def lineBreak (level : Nat) : String :=
  String.ofList ('\n' :: List.replicate (2 * level) ' ')

mutual

/-- Appends the text of a value that stands at the given level of indentation. -/
def append (level : Nat) (out : String) : Json → String
  | .null => out ++ "null"
  | .bool true => out ++ "true"
  | .bool false => out ++ "false"
  | .int i => out ++ toString i
  | .float x => out ++ NumberLayout.json.render x
  | .string text => out ++ Text.json text
  | .array [] => out ++ "[]"
  | .array items => appendItems level "" (out ++ "[") items ++ lineBreak level ++ "]"
  | .object [] => out ++ "\x7b\x7d"
  | .object members =>
    appendMembers level "" (out ++ "\x7b") members ++ lineBreak level ++ "\x7d"

/-- Appends items, each on its own line; `separator` goes before the first. -/
def appendItems (level : Nat) (separator out : String) : List Json → String
  | [] => out
  | item :: rest =>
    appendItems level "," (append (level + 1) (out ++ separator ++ lineBreak (level + 1)) item) rest

/-- Appends members, each on its own line; `separator` goes before the first. -/
def appendMembers (level : Nat) (separator out : String) : List (String × Json) → String
  | [] => out
  | (key, value) :: rest =>
    appendMembers level ","
      (append (level + 1)
        (out ++ separator ++ lineBreak (level + 1) ++ Text.json key ++ ": ") value)
      rest

end

/-- The text of a JSON value over several lines. -/
def pretty (value : Json) : String :=
  append 0 "" value

end Json

end PoolGraph
