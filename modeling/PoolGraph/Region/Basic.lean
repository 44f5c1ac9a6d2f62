import PoolGraph.Pool
import PoolGraph.Schema.Shape

/-!
# Regions

A `Region` holds one pool of objects for each struct of its schema.  Objects are allocated
with zero values and never removed.  `Region.assign` stores a value that conforms to the type
of the field, `Region.setField` any value.
-/

namespace PoolGraph

/-- The values of an object, by field number. -/
abbrev Object := List Value

/-- The value of an existing field of an object. -/
def Object.value (object : Object) (field : Nat) : Except Fault Value :=
  match object[field]? with
  | some value => .ok value
  | none => .error (.noField field)

/-- The objects of every struct of a schema. -/
structure Region where
  schema : RegionSchema
  pools : List (Pool Object)

/-- Whether an integer lies in the range of an integer type. -/
def IntWidth.contains (width : IntWidth) (unsigned : Bool) (i : Int) : Bool :=
  width.minValue unsigned ≤ i && i ≤ width.maxValue unsigned

namespace Region

/-- The region of a schema without objects. -/
def empty (schema : RegionSchema) : Region :=
  ⟨schema, List.replicate schema.structs.length Pool.empty⟩

/-- Whether the region has no objects. -/
def isEmpty (r : Region) : Bool :=
  r.pools.all Pool.isEmpty

/-- The number of objects of a struct; there are none of a struct that does not exist. -/
def size (r : Region) (struct : Nat) : Nat :=
  match r.pools[struct]? with
  | some pool => pool.size
  | none => 0

/-- The number of objects of each struct. -/
def sizes (r : Region) : List Nat :=
  r.pools.map Pool.size

/-- The objects of an existing struct. -/
def pool (r : Region) (struct : Nat) : Except Fault (Pool Object) :=
  match r.pools[struct]? with
  | some pool => .ok pool
  | none => .error (.noStruct struct)

/-- The number of objects of an existing struct. -/
def poolSize (r : Region) (struct : Nat) : Except Fault Nat := do
  return (← r.pool struct).size

/-- An existing object. -/
def object (r : Region) (target : Instance) : Except Fault Object := do
  match (← r.pool target.struct).get? ⟨target.index⟩ with
  | some object => return object
  | none => throw (.noObject target)

/-- The value of an existing field. -/
def field (r : Region) (target : Instance) (field : Nat) : Except Fault Value := do
  (← r.object target).value field

/-- The value of a field by its name, if the struct has such a field. -/
def get (r : Region) (target : Instance) (name : String) : Except Fault (Option Value) := do
  match (← r.schema.struct target.struct).field? name with
  | some (field, _) => return some (← r.field target field)
  | none => return none

/-- Adds an object whose fields are all zero. -/
def allocateStruct (r : Region) (struct : Nat) : Except Fault (Instance × Region) := do
  let s ← r.schema.struct struct
  let object := s.fields.map fun field => Value.zero field.type
  let index ← r.poolSize struct
  return (⟨struct, index⟩,
    { r with pools := r.pools.modify struct fun pool => (pool.push object).2 })

/-- Adds an object of the struct with the given name, if there is one. -/
def allocate (r : Region) (name : String) : Except Fault (Option Instance × Region) := do
  match r.schema.structIndex? name with
  | some struct =>
    let (target, r) ← r.allocateStruct struct
    return (some target, r)
  | none => return (none, r)

/-- Puts an object in place of an existing one. -/
def setObject (r : Region) (target : Instance) (object : Object) : Region :=
  { r with
    pools := r.pools.modify target.struct fun pool => pool.modify ⟨target.index⟩ fun _ => object }

/-- Stores a value without comparing it to the schema. -/
def setField (r : Region) (target : Instance) (field : Nat) (value : Value) :
    Except Fault Region := do
  let object ← r.object target
  if field < object.length then return r.setObject target (object.set field value)
  else throw (.noField field)

mutual

/-- Whether a value conforms to a type in this region.  A pool or a list type is looked up only
where the value is of the kind that needs it. -/
def conforms (r : Region) : Value → FieldType → Except Fault Bool
  | .int i, .integer width false => .ok (width.contains false i.toInt)
  | .uint n, .integer width true => .ok (width.contains true n.toNat)
  | .float _, .float _ => .ok true
  | .bool _, .bool => .ok true
  | .string _, .string => .ok true
  | .null, .struct _ => .ok true
  | .ref target, .struct id => do
    if target.struct = id then return decide (target.index < (← r.poolSize id)) else return false
  | .list items, .list id => do r.itemsConform items (← r.schema.listItem id)
  | _, _ => .ok false

/-- Whether the items of a list conform to a type.  The first that does not decides. -/
def itemsConform (r : Region) : List Value → FieldType → Except Fault Bool
  | [], _ => .ok true
  | item :: rest, type => do
    if ← r.conforms item type then r.itemsConform rest type else return false

end

/-- Stores a value that conforms to the type of the field. -/
def assign (r : Region) (target : Instance) (field : Nat) (value : Value) :
    Except Fault Region := do
  match (← r.schema.struct target.struct).fields[field]? with
  | none => throw (.noField field)
  | some slot =>
    if ← r.conforms value slot.type then r.setField target field value
    else throw (.misfit value field (← r.schema.typeName slot.type))

/-- Whether two lists of objects hold equal values. -/
def objectsEqual : List Object → List Object → Bool
  | [], [] => true
  | x :: xs, y :: ys => Value.listEquals x y && objectsEqual xs ys
  | _, _ => false

/-- Whether each of the pools, which are those of the structs from `struct` on, has the objects
that the region holds of the same struct.  The first pool that differs decides, and the pools
behind it are not looked up. -/
def holdsPools (r : Region) (struct : Nat) : List (Pool Object) → Except Fault Bool
  | [] => .ok true
  | pool :: rest => do
    if objectsEqual pool.toList (← r.pool struct).toList then r.holdsPools (struct + 1) rest
    else return false

/-- Whether the objects of every struct of the first region are those of the second, which must
have as many structs up to the first that differs. -/
def equals (r s : Region) : Except Fault Bool :=
  s.holdsPools 0 r.pools

end Region

end PoolGraph
