import PoolGraph.Numbers

/-!
# Field types

`FieldType` is the closed set of types that a field, a list item or a literal can have.
Struct and list types are positions in the tables of a region schema; list types are kept
once per item type, so that two of them are the same type exactly when they are the same
position.
-/

namespace PoolGraph

/-- The width of an integer type. -/
inductive IntWidth where
  | w8
  | w16
  | w32
  | w64
  deriving DecidableEq

namespace IntWidth

def bytes : IntWidth → Nat
  | .w8 => 1
  | .w16 => 2
  | .w32 => 4
  | .w64 => 8

def bits (w : IntWidth) : Nat := 8 * w.bytes

/-- The largest integer of this width. -/
def maxValue (w : IntWidth) (unsigned : Bool) : Nat :=
  if unsigned then 2 ^ w.bits - 1 else 2 ^ (w.bits - 1) - 1

/-- The smallest integer of this width. -/
def minValue (w : IntWidth) (unsigned : Bool) : Int :=
  if unsigned then 0 else -2 ^ (w.bits - 1)

end IntWidth

/-- The width of a floating-point type. -/
inductive FloatWidth where
  | w32
  | w64
  deriving DecidableEq

namespace FloatWidth

def bytes : FloatWidth → Nat
  | .w32 => 4
  | .w64 => 8

def bits (w : FloatWidth) : Nat := 8 * w.bytes

end FloatWidth

/-- The type of a field, a list item or a literal. -/
inductive FieldType where
  | integer (width : IntWidth) (unsigned : Bool)
  | float (width : FloatWidth)
  | bool
  | string
  /-- The struct at this position of the schema. -/
  | struct (id : Nat)
  /-- The list type at this position of the schema. -/
  | list (id : Nat)
  deriving DecidableEq

namespace FieldType

/-- The type of a literal integer that nothing else determines. -/
def int64 : FieldType := .integer .w64 false

/-- The primitive types with their names. -/
def primitives : List (String × FieldType) :=
  [("int8", .integer .w8 false), ("int16", .integer .w16 false),
    ("int32", .integer .w32 false), ("int64", .integer .w64 false),
    ("uint8", .integer .w8 true), ("uint16", .integer .w16 true),
    ("uint32", .integer .w32 true), ("uint64", .integer .w64 true),
    ("float32", .float .w32), ("float64", .float .w64), ("bool", .bool), ("string", .string)]

/-- The name of a primitive type. -/
def primitiveName? (type : FieldType) : Option String :=
  (primitives.find? fun named => named.2 = type).map Prod.fst

/-- Whether a slot of this type takes a value of the other type. -/
def canHold (slot value : FieldType) : Bool :=
  slot = value

end FieldType

end PoolGraph
