import PoolGraph.Schema.Scope

/-!
# Building a schema in place

A `Draft` is a region schema with the tables by which its structs, their fields and its list types
are found.  The operations of this module change a draft and a scope statement by statement; each
statement stays done when a later one fails.  A `SchemaCall` is one of the operations with what it
is called with: `SchemaCall.perform` makes it in place, `SchemaCall.settle` by the operations on
schemas without tables.
-/

namespace PoolGraph

/-- A field of a draft with its number. -/
structure NumberedField where
  name : String
  type : FieldType
  number : Nat
  deriving DecidableEq

/-- A struct of a draft.  Its table gives the number of a field by its name; in every table a new
entry stands in front of the others. -/
structure DraftStruct where
  name : String
  fields : List NumberedField
  numbers : List (String × Nat)
  deriving DecidableEq

/-- A schema with tables from the names of structs and from the item types of list types to their
positions. -/
structure Draft where
  name : String
  structs : List DraftStruct
  structIds : List (String × Nat)
  lists : List FieldType
  listIds : List (FieldType × Nat)
  deriving DecidableEq

namespace DraftStruct

/-- The field with the given name, at the number that the table has for it. -/
def field? (s : DraftStruct) (name : String) : Except Fault (Option NumberedField) :=
  match s.numbers.lookup name with
  | none => .ok none
  | some number =>
    match s.fields[number]? with
    | some field => .ok (some field)
    | none => .error (.noField number)

/-- Adds a field behind the others, unless its name is taken. -/
def addField (field : Field) : EStateM SchemaError DraftStruct Unit := do
  let s ← get
  if (s.numbers.lookup field.name).isSome then throw (.duplicateField s.name field.name)
  let number := s.fields.length
  modify fun s => { s with numbers := (field.name, number) :: s.numbers }
  modify fun s => { s with fields := s.fields ++ [⟨field.name, field.type, number⟩] }

/-- Gives a struct fields in place of those it has. -/
def defineFields (fields : List Field) : EStateM SchemaError DraftStruct Unit := do
  modify fun s => { s with fields := [] }
  modify fun s => { s with numbers := [] }
  fields.forM addField

/-- The struct without its table. -/
def plain (s : DraftStruct) : StructSchema :=
  ⟨s.name, s.fields.map fun field => ⟨field.name, field.type⟩⟩

end DraftStruct

namespace Draft

/-- A draft without types. -/
def empty (name : String) : Draft := ⟨name, [], [], [], []⟩

/-- The position of the struct with the given name. -/
def structIndex? (d : Draft) (name : String) : Option Nat :=
  d.structIds.lookup name

/-- The list type with the given item type, if there is one. -/
def findList? (d : Draft) (item : FieldType) : Option FieldType :=
  (d.listIds.lookup item).map .list

/-- The schema without its tables. -/
def schema (d : Draft) : RegionSchema :=
  ⟨d.name, d.structs.map DraftStruct.plain, d.lists⟩

end Draft

/-- What is changed while a schema is built. -/
structure Building where
  scope : Scope
  draft : Draft

namespace Building

/-- Operations that build a schema.  A failure leaves what was built before it. -/
abbrev BuildM := EStateM SchemaError Building

/-- Changes the draft. -/
def modifyDraft (f : Draft → Draft) : BuildM Unit :=
  modify fun s => { s with draft := f s.draft }

/-- Adds a struct that has no fields yet and tells its position. -/
def declareStruct (name : String) : BuildM Nat := do
  let d := (← get).draft
  if (d.structIds.lookup name).isSome then throw (.duplicateType name)
  let id := d.structs.length
  modifyDraft fun d => { d with structs := d.structs ++ [⟨name, [], []⟩] }
  modifyDraft fun d => { d with structIds := (name, id) :: d.structIds }
  return id

/-- Declares a struct under a name that is free in the scope and in the schema. -/
def registerStruct (name : String) : BuildM Nat := do
  if ((← get).scope.get? name).isSome then throw (.duplicateType name)
  let id ← declareStruct name
  modify fun s => { s with scope := ⟨s.scope.types ++ [(name, .struct id)]⟩ }
  return id

/-- Gives a struct fields in place of those it has and tells whether all names differ.  Where one
does not, the fields in front of it stay. -/
def defineFields (id : Nat) (fields : List Field) (s : Building) :
    Except Fault (Except SchemaError Unit × Building) :=
  match s.draft.structs[id]? with
  | none => .error (.noStruct id)
  | some struct =>
    let (defined, struct) := match (DraftStruct.defineFields fields).run struct with
      | .ok _ struct => (.ok (), struct)
      | .error error struct => (.error error, struct)
    .ok (defined, { s with draft := { s.draft with structs := s.draft.structs.set id struct } })

/-- The list type with the given item type, made when there is none. -/
def list (item : FieldType) : BuildM FieldType := do
  match (← get).draft.listIds.lookup item with
  | some id => return .list id
  | none =>
    let id := (← get).draft.lists.length
    modifyDraft fun d => { d with lists := d.lists ++ [item] }
    modifyDraft fun d => { d with listIds := (item, id) :: d.listIds }
    return .list id

/-- The type that a reference, given by its characters, stands for. -/
def resolveChars : List Char → BuildM (Option FieldType)
  | '[' :: ']' :: rest => do
    match ← resolveChars rest with
    | some item => return some (← list item)
    | none => return none
  | chars => return (← get).scope.get? (String.ofList chars)

/-- The type that a reference stands for; list types are made as they are needed. -/
def resolve (reference : String) : BuildM (Option FieldType) :=
  resolveChars reference.toList

end Building

/-! ### Calls -/

/-- A call of an operation that builds a schema, or a change to another scope. -/
inductive SchemaCall where
  | declareStruct (name : String)
  | registerStruct (name : String)
  | defineFields (id : Nat) (fields : List Field)
  | list (item : FieldType)
  | resolve (reference : String)
  | enter (scope : Scope)

/-- What a call gives. -/
inductive SchemaAnswer where
  | struct (id : Nat)
  | type (type? : Option FieldType)
  | done
  deriving DecidableEq

namespace SchemaCall

/-- The end of an operation as the answer to a call. -/
def answer (f : α → SchemaAnswer) :
    EStateM.Result SchemaError Building α → Except SchemaError SchemaAnswer × Building
  | .ok x s => (.ok (f x), s)
  | .error error s => (.error error, s)

/-- Makes a call in place. -/
def perform (call : SchemaCall) (s : Building) :
    Except Fault (Except SchemaError SchemaAnswer × Building) :=
  match call with
  | .declareStruct name => .ok (answer .struct ((Building.declareStruct name).run s))
  | .registerStruct name => .ok (answer .struct ((Building.registerStruct name).run s))
  | .defineFields id fields => do
    let (defined, s) ← s.defineFields id fields
    return (defined.map fun _ => .done, s)
  | .list item => .ok (answer (fun type => .type (some type)) ((Building.list item).run s))
  | .resolve reference => .ok (answer .type ((Building.resolve reference).run s))
  | .enter scope => .ok (.ok .done, { s with scope })

/-- Makes calls one after another, also behind one that failed. -/
def performAll : List SchemaCall → Building →
    Except Fault (List (Except SchemaError SchemaAnswer) × Building)
  | [], s => .ok ([], s)
  | call :: rest, s => do
    let (given, s) ← call.perform s
    let (others, s) ← performAll rest s
    return (given :: others, s)

/-- Makes a call by the operations on schemas without tables. -/
def settle (call : SchemaCall) (scope : Scope) (schema : RegionSchema) :
    Except Fault (Except SchemaError SchemaAnswer × Scope × RegionSchema) :=
  match call with
  | .declareStruct name =>
    match schema.declareStruct name with
    | .ok (id, schema) => .ok (.ok (.struct id), scope, schema)
    | .error error => .ok (.error error, scope, schema)
  | .registerStruct name =>
    match scope.registerStruct schema name with
    | .ok (id, scope, schema) => .ok (.ok (.struct id), scope, schema)
    | .error error => .ok (.error error, scope, schema)
  | .defineFields id fields => do
    let (schema, defined) ← schema.defineFields id fields
    return (defined.map fun _ => .done, scope, schema)
  | .list item =>
    let (type, schema) := schema.list item
    .ok (.ok (.type (some type)), scope, schema)
  | .resolve reference =>
    match scope.resolve schema reference with
    | some (type, schema) => .ok (.ok (.type (some type)), scope, schema)
    | none => .ok (.ok (.type none), scope, schema)
  | .enter scope => .ok (.ok .done, scope, schema)

/-- Makes calls one after another by the operations on schemas without tables. -/
def settleAll : List SchemaCall → Scope → RegionSchema →
    Except Fault (List (Except SchemaError SchemaAnswer) × Scope × RegionSchema)
  | [], scope, schema => .ok ([], scope, schema)
  | call :: rest, scope, schema => do
    let (given, scope, schema) ← call.settle scope schema
    let (others, scope, schema) ← settleAll rest scope schema
    return (given :: others, scope, schema)

end SchemaCall

end PoolGraph
