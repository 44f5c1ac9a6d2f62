import PoolGraph.Json
import PoolGraph.Region.Basic

/-!
# Texts of regions

`Region.text` lists the objects of a region one a line, and `Region.toJson` gives its pools as
JSON with sorted keys.  Both show a reference as the name of its struct and its position.  The pool
of a struct and the value of a field are looked up by their numbers, and what is not there is a
fault.
-/

namespace PoolGraph

/-- A reference as the name of its struct and its position. -/
def RegionSchema.label (schema : RegionSchema) (target : Instance) : Except Fault String := do
  return s!"{(← schema.struct target.struct).name}#{target.index}"

namespace Region

/-- Appends the values of an object in the given fields, which are numbered from `number` on, with
commas between them; `separator` goes before the first. -/
def appendFields (schema : RegionSchema) (object : Object) (number : Nat)
    (separator out : String) : List Field → Except Fault String
  | [] => .ok out
  | field :: rest => do
    let value ← object.value number
    let out ← value.appendText schema.label (out ++ separator ++ field.name ++ ": ")
    appendFields schema object (number + 1) ", " out rest

/-- Appends the objects of a struct, numbered from `index` on. -/
def appendObjects (schema : RegionSchema) (s : StructSchema) (index : Nat) (out : String) :
    List Object → Except Fault String
  | [] => .ok out
  | object :: rest => do
    let out := out ++ s.name ++ "#" ++ toString index ++ " \x7b"
    let out ← appendFields schema object 0 "" out s.fields
    appendObjects schema s (index + 1) (out ++ "\x7d\n") rest

/-- The listing of a region. -/
def text (r : Region) : Except Fault String :=
  r.schema.structs.zipIdx.foldlM
    (fun out (s, struct) => do appendObjects r.schema s 0 out (← r.pool struct).toList) ""

end Region

mutual

/-- A value as JSON. -/
def Value.toJson (schema : RegionSchema) : Value → Except Fault Json
  | .null => .ok .null
  | .int i => .ok (.int i.toInt)
  | .uint n => .ok (.int n.toNat)
  | .float x => .ok (.ofFloat x)
  | .bool b => .ok (.bool b)
  | .string text => .ok (.string text)
  | .ref target => do return .string (← schema.label target)
  | .list items => do return .array (← Value.toJsonItems schema [] items)

/-- Items as JSON, behind those that stand in `before` in reverse. -/
def Value.toJsonItems (schema : RegionSchema) (before : List Json) :
    List Value → Except Fault (List Json)
  | [] => .ok before.reverse
  | item :: rest => do Value.toJsonItems schema ((← item.toJson schema) :: before) rest

end

namespace Region

/-- An object as JSON. -/
def objectJson (schema : RegionSchema) (s : StructSchema) (object : Object) :
    Except Fault Json := do
  return .sortedObject (← s.fields.zipIdx.mapM fun (field, number) => do
    return (field.name, ← (← object.value number).toJson schema))

/-- The pools of a region as JSON, by the names of their structs. -/
def toJson (r : Region) : Except Fault Json := do
  return .sortedObject (← r.schema.structs.zipIdx.mapM fun (s, struct) => do
    return (s.name, .array (← (← r.pool struct).toList.mapM (objectJson r.schema s))))

end Region

end PoolGraph
