import PoolGraph.Value.Text

/-!
# Faults

A `Fault` is a broken precondition: the caller addressed something that does not exist, or
stored a value where it does not fit.  Unlike the errors of the data, faults are mistakes of
the calling program.
-/

namespace PoolGraph

/-- A broken precondition. -/
inductive Fault where
  /-- No struct has this position. -/
  | noStruct (id : Nat)
  /-- No list type has this position. -/
  | noList (id : Nat)
  /-- The object has no field at this position. -/
  | noField (field : Nat)
  /-- The region holds no such object. -/
  | noObject (target : Instance)
  /-- The list has no item at this position. -/
  | noItem (index : Nat)
  /-- No file has this position. -/
  | noFile (id : Nat)
  /-- The bytes have no such part. -/
  | noSlice (first last : Nat)
  /-- Columns count from one. -/
  | noColumn
  /-- More levels were closed than opened. -/
  | notNested
  /-- A literal of digits does not read as a number. -/
  | notDigits (text : String)
  /-- A literal integer was typed as something that is no number. -/
  | notNumeric (type : String)
  /-- A region refuses to allocate a struct of its own schema. -/
  | notAllocatable (struct : String)
  /-- Only lists have items. -/
  | notIndexable (kind : String)
  /-- The value does not conform to the type of the field. -/
  | misfit (value : Value) (field : Nat) (type : String)
  /-- No field of a declaration takes such a value. -/
  | unassignable (value : Value) (field struct : Nat)
  /-- A list of declarations was given something else. -/
  | notReference (struct : String) (value : Value)
  /-- Declarations have no pool at this position. -/
  | noDeclarationPool (struct : Nat)

/-- The wording of a fault, for those that have one. -/
def Fault.message? : Fault → Option String
  | .notIndexable kind => some s!"cannot index a {kind} value"
  | .misfit value field type =>
    some s!"value {value.text} does not fit field {field} of type {type}"
  | .unassignable value field struct =>
    some s!"cannot assign {value.text} to field {field} of TypeDecl struct {struct}"
  | .notReference struct value => some s!"expected a {struct} reference, got {value.text}"
  | .noDeclarationPool struct => some s!"TypeDecl has no struct {struct}"
  | _ => none

/-- The item of a list at a position. -/
def Value.item : Value → Nat → Except Fault Value
  | .list items, index =>
    match items[index]? with
    | some item => .ok item
    | none => .error (.noItem index)
  | value, _ => .error (.notIndexable value.kind)

end PoolGraph
