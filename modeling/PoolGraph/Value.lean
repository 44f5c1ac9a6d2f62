import PoolGraph.Float.Binary64
import PoolGraph.Schema.FieldType

/-!
# Values

A `Value` is what a field of an object can hold.  A reference names its object by struct and
position and means something only beside the region that holds the object.
-/

namespace PoolGraph

/-- The object of a region at a position of the pool of one struct. -/
structure Instance where
  struct : Nat
  index : Nat
  deriving DecidableEq, Inhabited

/-- The contents of a field. -/
inductive Value where
  /-- A reference that was never set. -/
  | null
  | int (i : Int64)
  | uint (n : UInt64)
  | float (x : Binary64)
  | bool (b : Bool)
  | string (text : String)
  | ref (target : Instance)
  | list (items : List Value)
  deriving Inhabited

namespace Value

/-- What a field of the type holds before it is assigned. -/
def zero : FieldType → Value
  | .integer _ true => .uint 0
  | .integer _ false => .int 0
  | .float _ => .float Binary64.zero
  | .bool => .bool false
  | .string => .string ""
  | .struct _ => .null
  | .list _ => .list []

/-- The kind of the value, as messages name it. -/
def kind : Value → String
  | .null => "null"
  | .int _ => "signed integer"
  | .uint _ => "unsigned integer"
  | .float _ => "float"
  | .bool _ => "bool"
  | .string _ => "string"
  | .ref _ => "struct"
  | .list _ => "list"

/-! ### Views, with a default for the other kinds -/

def asBool : Value → Bool
  | .bool b => b
  | _ => false

def asInt : Value → Int64
  | .int i => i
  | _ => 0

def asUInt : Value → UInt64
  | .uint n => n
  | _ => 0

def asFloat : Value → Binary64
  | .float x => x
  | _ => Binary64.zero

def asString : Value → String
  | .string text => text
  | _ => ""

def asInstance? : Value → Option Instance
  | .ref target => some target
  | _ => none

def asList : Value → List Value
  | .list items => items
  | _ => []

/-- Adds an item at the end of a list; other values stay as they are. -/
def push (value item : Value) : Value :=
  match value with
  | .list items => .list (items ++ [item])
  | other => other

mutual

/-- Equality of values, where numbers compare by what they stand for. -/
def equals : Value → Value → Bool
  | .null, .null => true
  | .int i, .int j => i == j
  | .uint m, .uint n => m == n
  | .float x, .float y => x.equals y
  | .bool a, .bool b => a == b
  | .string s, .string t => s == t
  | .ref i, .ref j => i == j
  | .list xs, .list ys => listEquals xs ys
  | _, _ => false

/-- Equality of lists, item by item. -/
def listEquals : List Value → List Value → Bool
  | [], [] => true
  | x :: xs, y :: ys => equals x y && listEquals xs ys
  | _, _ => false

end

end Value

end PoolGraph
