import PoolGraph.Expr.Basic
import PoolGraph.Region.Basic
import PoolGraph.Source.Diagnostic
import PoolGraph.Text.Digits
import PoolGraph.Text.Quoted

/-!
# Binding expressions

`bind` gives an expression its types and stores it in a region: every struct literal becomes
an object.  It goes on after an error, so that all errors of a file are reported together.
What it needs of a region is the class `ObjectStore`.
-/

namespace PoolGraph

/-- A region into which expressions can be bound. -/
class ObjectStore (S : Type) where
  schema : S → RegionSchema
  /-- Adds a zero object of the struct with the given name, if there is one. -/
  allocate : S → String → Except Fault (Option Instance × S)
  /-- Stores a value in a field of an object. -/
  assign : S → Instance → Nat → Value → Except Fault S

instance : ObjectStore Region where
  schema := Region.schema
  allocate := Region.allocate
  assign := Region.assign

/-- What is wrong with an expression. -/
inductive BindError where
  /-- No struct has the name. -/
  | unresolvedType (name : String)
  /-- The literal is of another type than its slot. -/
  | wrongType (expected found : String)
  /-- Neither the literal nor its slot determines a type. -/
  | undeterminedType
  /-- A struct literal stands in the slot of another type. -/
  | notStruct (type : String)
  /-- A list literal stands in the slot of another type. -/
  | notList (type : String)
  /-- The struct has no such field. -/
  | noField (struct field : String)
  /-- The field has a value already. -/
  | redefined (field : String)
  /-- The number lies outside the range of its type. -/
  | outOfRange (digits type : String)
  deriving DecidableEq

/-- The wording of an error. -/
def BindError.message : BindError → String
  | .unresolvedType name => "cannot resolve type " ++ Text.json name
  | .wrongType expected found => s!"expected type {expected}, but got type {found}"
  | .undeterminedType => "cannot determine type"
  | .notStruct type => s!"attempted to instantiate type {type} as a struct"
  | .notList type => s!"attempted to instantiate type {type} as a list"
  | .noField struct field => s!"type {struct} does not have field " ++ Text.json field
  | .redefined field => "attempted to re-define " ++ Text.json field
  | .outOfRange digits type => s!"{digits} out of range for an {type}"

namespace Binding

/-- A region under construction with the errors found so far. -/
structure State (S : Type) where
  store : S
  reported : Array Diagnostic

/-- Computations that fill a region and report errors. -/
abbrev BindM (S : Type) := StateT (State S) (Except Fault)

/-- Reports an error about a span; the result is that there is no value. -/
def report {S : Type} (span : Span) (error : BindError) : BindM S (Option α) := do
  modify fun s => { s with reported := s.reported.push ⟨span, error.message⟩ }
  return none

/-- The type of an expression in a slot of the expected type, or what is wrong with it.
Untyped structs and lists are of the expected type, and so are integers in the slot of a
number. -/
def inferType (schema : RegionSchema) (expected : Option FieldType) (e : Expr) :
    Except Fault (Except BindError FieldType) := do
  let own : Except BindError (Option FieldType) := match e with
    | .string _ _ => .ok (some .string)
    | .bool _ _ => .ok (some .bool)
    | .integer _ =>
      match expected with
      | some (.integer width unsigned) => .ok (some (.integer width unsigned))
      | some (.float width) => .ok (some (.float width))
      | _ => .ok (some .int64)
    | .struct (some type) _ _ =>
      match schema.structIndex? type.text with
      | some id => .ok (some (.struct id))
      | none => .error (.unresolvedType type.text)
    | .struct none _ _ => .ok none
    | .list _ _ => .ok none
  match own, expected with
  | .error error, _ => return .error error
  | .ok (some found), some slot =>
    if slot.canHold found then return .ok found
    else return .error (.wrongType (← schema.typeName slot) (← schema.typeName found))
  | .ok (some found), none => return .ok found
  | .ok none, some slot => return .ok slot
  | .ok none, none => return .error .undeterminedType

/-- The value of a run of digits as a number of the given type, or what is wrong with it. -/
def numberOf (schema : RegionSchema) (type : FieldType) (digits : String) :
    Except Fault (Except BindError Value) :=
  match type with
  | .integer width unsigned =>
    match Text.digitsValue? digits with
    | none => .error (.notDigits digits)
    | some n =>
      if n ≤ width.maxValue unsigned then
        .ok (.ok (if unsigned then .uint (UInt64.ofNat n) else .int (Int64.ofNat n)))
      else do return .error (.outOfRange digits (← schema.typeName type))
  | .float width =>
    match Text.digitsValue? digits with
    | none => .error (.notDigits digits)
    | some n =>
      let x := Binary64.ofNat n
      let fits := match width with
        | .w32 => x.narrow.isFinite
        | .w64 => x.isFinite
      if fits then .ok (.ok (.float x))
      else do return .error (.outOfRange digits (← schema.typeName type))
  | _ => do .error (.notNumeric (← schema.typeName type))

/-- Adds a zero object of a struct of the region. -/
def allocate {S : Type} [ObjectStore S] (struct : String) : BindM S Instance :=
  fun ⟨store, reported⟩ => do
    let (target?, store) ← ObjectStore.allocate store struct
    match target? with
    | some target => return (target, ⟨store, reported⟩)
    | none => throw (.notAllocatable struct)

/-- Stores a value in a field. -/
def assign {S : Type} [ObjectStore S] (target : Instance) (field : Nat) (value : Value) :
    BindM S Unit :=
  fun ⟨store, reported⟩ => do
    let store ← ObjectStore.assign store target field value
    return ((), ⟨store, reported⟩)

variable {S : Type} [ObjectStore S]

mutual

/-- Binds an expression in a slot of the expected type, if one is expected.  There is a value
when no error was found inside the expression. -/
def bind (schema : RegionSchema) (expected : Option FieldType) (e : Expr) :
    BindM S (Option Value) := do
  match ← inferType schema expected e with
  | .error error => report e.errorSpan error
  | .ok type =>
    match e with
    | .string _ value => return some (.string value)
    | .bool _ value => return some (.bool value)
    | .integer raw =>
      match ← numberOf schema type raw.text with
      | .ok value => return some value
      | .error error => report raw.span error
    | .struct _ brace arguments =>
      match type with
      | .struct id =>
        let s ← schema.struct id
        let target ← allocate s.name
        let complete ← bindArguments schema s target [] true arguments
        return if complete then some (.ref target) else none
      | _ => report brace (.notStruct (← schema.typeName type))
    | .list bracket items =>
      match type with
      | .list id =>
        let item ← schema.listItem id
        return (← bindItems schema item (some []) items).map .list
      | _ => report bracket (.notList (← schema.typeName type))

/-- Binds the arguments of a struct literal to fields of its object, of which those in
`defined` have been named.  The result says whether all went well, given that it did so far. -/
def bindArguments (schema : RegionSchema) (s : StructSchema) (target : Instance)
    (defined : List Nat) (complete : Bool) : List (Token × Expr) → BindM S Bool
  | [] => return complete
  | (name, value) :: rest => do
    match s.field? name.text with
    | none =>
      let _ : Option Unit ← report name.span (.noField s.name name.text)
      bindArguments schema s target defined false rest
    | some (number, field) =>
      if defined.contains number then
        let _ : Option Unit ← report name.span (.redefined name.text)
        bindArguments schema s target defined false rest
      else
        match ← bind schema (some field.type) value with
        | some bound =>
          assign target number bound
          bindArguments schema s target (number :: defined) complete rest
        | none => bindArguments schema s target (number :: defined) false rest

/-- Binds the items of a list literal, behind those that stand in `before` in reverse; nothing
stands there when one of them has no value. -/
def bindItems (schema : RegionSchema) (type : FieldType) (before : Option (List Value)) :
    List Expr → BindM S (Option (List Value))
  | [] => return before.map List.reverse
  | item :: rest => do
    let bound ← bind schema (some type) item
    bindItems schema type (do return (← bound) :: (← before)) rest

end

end Binding

/-- Binds a whole file, whose root names its own type.  The result is the region with all that
was stored, and the value of the root or the errors. -/
def bindRoot {S : Type} [ObjectStore S] (store : S) (e : Expr) :
    Except Fault (Except (List Diagnostic) Value × S) := do
  let (value?, s) ← (Binding.bind (ObjectStore.schema store) none e).run ⟨store, #[]⟩
  match value? with
  | some value =>
    if s.reported.isEmpty then return (.ok value, s.store)
    else return (.error s.reported.toList, s.store)
  | none => return (.error s.reported.toList, s.store)

end PoolGraph
