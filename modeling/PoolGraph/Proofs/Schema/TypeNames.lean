import PoolGraph.Proofs.Declaration.Names
import PoolGraph.Proofs.Declaration.References
import PoolGraph.Proofs.Lookup
import PoolGraph.Proofs.Schema.Drafting

/-!
# Types and their names

Where the names of structs are identifiers, every type of a schema has a name, and the name resolves
to the type and to nothing new (`Scope.Spells.resolveChars_name`); what a reference resolves to is
named by the reference.  So types and names determine each other.  A schema that is built from the
primitive types by registering structs and resolving references stays of this kind, whatever fails
on the way (`SchemaCall.names_performAll`).
-/

namespace PoolGraph

open Grammar

/-! ### Names of types -/

namespace RegionSchema

variable {schema schema' : RegionSchema} {type item : FieldType}

/-- The name of a type is that of the shape it unfolds to. -/
theorem typeName_of_unfolds (wf : schema.WellFormed) (knows : schema.Knows type) {shape : Shape}
    (h : schema.Unfolds type shape) :
  schema.typeName type = .ok shape.name
  := by
  obtain ⟨shape', hshape⟩ := wf.shape knows
  obtain rfl := h.unique (unfolds_of_shapeWithin hshape)
  rw [typeName, hshape]
  rfl

/-- A list type is found at the place of its item type. -/
theorem findList?_eq_some_iff (distinct : schema.lists.Nodup) {id : Nat} :
  schema.findList? item = some (.list id) ↔ schema.lists[id]? = some item
  := by
  have images : (schema.lists.map fun item => item).Nodup := by
    rwa [List.map_id']
  rw [findList?, Option.map_eq_some_iff]
  constructor
  · rintro ⟨id', found, same⟩
    obtain rfl := FieldType.list.inj same
    obtain ⟨_, hitem, rfl⟩ := (findIdx?_eq_some_iff_of_nodup images).mp found
    apply hitem
  · intro hitem
    exact ⟨id, (findIdx?_eq_some_iff_of_nodup images).mpr ⟨item, hitem, rfl⟩, rfl⟩

/-- A list type that is there is found and not made again. -/
theorem list_of_getElem? (distinct : schema.lists.Nodup) {id : Nat}
    (h : schema.lists[id]? = some item) :
  schema.list item = (.list id, schema)
  := by
  rw [list, (findList?_eq_some_iff distinct).mpr h]

/-- No list type is made twice. -/
theorem nodup_lists_list (distinct : schema.lists.Nodup) (item : FieldType) :
  (schema.list item).2.lists.Nodup
  := by
  rw [list]
  split
  · apply distinct
  · next free =>
    have new : item ∉ schema.lists := by
      intro mem
      have absent := List.findIdx?_eq_none_iff.mp (Option.map_eq_none_iff.mp free) item mem
      apply of_decide_eq_false absent rfl
    rw [← List.concat_eq_append]
    apply distinct.concat new

/-- Resolving declarations makes no list type twice. -/
theorem schemaInvariant_nodup_lists :
  SchemaInvariant fun schema => schema.lists.Nodup
  where
  empty _ := List.nodup_nil
  declareStruct h hdeclare := by
    rw [declareStruct] at hdeclare
    split at hdeclare
    · cases hdeclare
    · obtain ⟨-, rfl⟩ := Prod.mk.inj (Except.ok.inj hdeclare)
      apply h
  list item h := nodup_lists_list h item
  defineFields h hdefine := by
    obtain ⟨s, -, hdefine⟩ := Except.bind_eq_ok.mp hdefine
    obtain ⟨rfl, -⟩ := Prod.mk.inj (Except.ok.inj hdefine)
    apply h

end RegionSchema

/-! ### What names stand for -/

/-- Whether a scope knows the primitive types and the structs of a schema by names that differ and
do not look like list types, and no list type stands twice in the schema. -/
structure Scope.Spells (scope : Scope) (schema : RegionSchema) : Prop where
  scope_eq : scope = .ofStructs (schema.structs.map StructSchema.name)
  identifiers : ∀ name ∈ schema.structs.map StructSchema.name, Identifier name.toList
  distinct : (FieldType.primitiveNames ++ schema.structs.map StructSchema.name).Nodup
  lists : schema.lists.Nodup
  wellFormed : schema.WellFormed

namespace Scope

variable {scope scope' : Scope} {schema schema' : RegionSchema} {type : FieldType}

namespace Spells

/-- A name of the scope stands for its type. -/
theorem get?_of_mem (h : scope.Spells schema) {name : String}
    (mem : (name, type) ∈ scope.types) :
  scope.get? name = some type
  := by
  rw [get?]
  apply lookup_of_mem _ mem
  rw [h.scope_eq, map_fst_ofStructs]
  apply h.distinct

/-- A name of the scope stands for its type alone, as it does not begin as a list type does. -/
theorem resolveChars_of_mem (h : scope.Spells schema) {name : String}
    (mem : (name, type) ∈ scope.types) :
  scope.resolveChars schema name.toList = some (type, schema)
  := by
  have known : name ∈ FieldType.primitiveNames ++ schema.structs.map StructSchema.name := by
    rw [← map_fst_ofStructs, ← h.scope_eq]
    apply List.mem_map_of_mem mem
  have identifier := identifier_of_mem_append h.identifiers name known
  unfold resolveChars
  split
  · next rest begins => exact absurd begins (identifier.ne_list rest)
  · rw [String.ofList_toList, h.get?_of_mem mem]
    rfl

/-- The name of a type stands for the type, and for nothing that the schema lacks. -/
theorem resolveChars_name (h : scope.Spells schema) {shape : Shape}
    (unfolds : schema.Unfolds type shape) :
  scope.resolveChars schema shape.name.toList = some (type, schema)
  := by
  have primitive {name : String} {type : FieldType} (mem : (name, type) ∈ FieldType.primitives) :
      scope.resolveChars schema name.toList = some (type, schema) := by
    apply h.resolveChars_of_mem
    rw [h.scope_eq]
    apply List.mem_append_left _ mem
  induction unfolds with
  | integer width unsigned =>
    apply primitive
    cases width <;> cases unsigned <;> decide
  | float width =>
    apply primitive
    cases width <;> decide
  | bool => exact primitive (by decide)
  | string => exact primitive (by decide)
  | @struct id s hs =>
    apply h.resolveChars_of_mem
    rw [h.scope_eq]
    apply List.mem_append_right
    have named : (schema.structs.map StructSchema.name)[id]? = some s.name := by
      rw [List.getElem?_map, RegionSchema.struct_eq_ok.mp hs, Option.map_some]
    exact List.mem_map.mpr ⟨(s.name, id), List.mem_zipIdx_iff_getElem?.mpr named, rfl⟩
  | @list id item shape hitem _ ih =>
    have begins : (Shape.list shape).name.toList = '[' :: ']' :: shape.name.toList := by
      rw [Shape.name, String.toList_append]
      rfl
    rw [begins, resolveChars, ih]
    apply congrArg some (RegionSchema.list_of_getElem? h.lists hitem)

/-- A scope that spells a schema names its types. -/
theorem names (h : scope.Spells schema) :
  scope.Names schema
  := by
  intro named hnamed
  rw [h.scope_eq] at hnamed
  rcases List.mem_append.mp hnamed with primitive | struct
  · apply names_primitives schema named primitive
  · obtain ⟨⟨name, id⟩, hid, rfl⟩ := List.mem_map.mp struct
    have inside := (List.getElem?_eq_some_iff.mp (List.mem_zipIdx_iff_getElem?.mp hid)).1
    rwa [List.length_map] at inside

/-- What a reference stands for is named by the reference. -/
theorem typeName_resolveChars (h : scope.Spells schema) {text : List Char}
    (hresolve : scope.resolveChars schema text = some (type, schema')) :
  schema'.typeName type = .ok (String.ofList text)
  := by
  obtain ⟨wf, -, knows⟩ := h.names.resolveChars h.wellFormed hresolve
  rw [h.scope_eq] at hresolve
  obtain ⟨-, -, -, shape, unfolds, spelled⟩ := unfolds_of_resolveChars rfl hresolve
  rw [RegionSchema.typeName_of_unfolds wf knows unfolds, ← spelled, String.ofList_toList]

/-- Every type that is known has a name, and the scope reads it back. -/
theorem exists_typeName (h : scope.Spells schema) (knows : schema.Knows type) :
  ∃ name, schema.typeName type = .ok name
    ∧ scope.resolveChars schema name.toList = some (type, schema)
  := by
  obtain ⟨shape, hshape⟩ := h.wellFormed.shape knows
  have unfolds := RegionSchema.unfolds_of_shapeWithin hshape
  use shape.name
  constructor
  · apply RegionSchema.typeName_of_unfolds h.wellFormed knows unfolds
  · apply h.resolveChars_name unfolds

/-- Types that have the same name are the same. -/
theorem canHold_iff (h : scope.Spells schema) {slot value : FieldType} (hslot : schema.Knows slot)
    (hvalue : schema.Knows value) :
  slot.canHold value = true ↔ schema.typeName slot = schema.typeName value
  := by
  rw [FieldType.canHold, decide_eq_true_eq]
  constructor
  · rintro rfl
    rfl
  · intro same
    obtain ⟨name, hname, resolves⟩ := h.exists_typeName hslot
    obtain ⟨name', hname', resolves'⟩ := h.exists_typeName hvalue
    rw [hname, hname'] at same
    obtain rfl := Except.ok.inj same
    apply congrArg Prod.fst (Option.some.inj (resolves.symm.trans resolves'))

/-! ### Building -/

/-- The primitive types spell the empty schema. -/
theorem start (name : String) :
  primitives.Spells (RegionSchema.empty name)
  := by
  have distinct : (FieldType.primitiveNames ++ []).Nodup := by decide
  exact ⟨rfl, List.forall_mem_nil _, distinct, List.nodup_nil, RegionSchema.wellFormed_empty name⟩

/-- Resolving a name keeps a scope that spells its schema. -/
theorem resolveChars (h : scope.Spells schema) {text : List Char}
    (hresolve : scope.resolveChars schema text = some (type, schema')) :
  scope.Spells schema'
  := by
  obtain ⟨wf, -, -⟩ := h.names.resolveChars h.wellFormed hresolve
  have lists := RegionSchema.schemaInvariant_nodup_lists.resolveChars h.lists hresolve
  have same : schema'.structs = schema.structs := by
    rw [h.scope_eq] at hresolve
    apply (unfolds_of_resolveChars rfl hresolve).2.2.1
  constructor
  · rw [same]
    apply h.scope_eq
  · rw [same]
    apply h.identifiers
  · rw [same]
    apply h.distinct
  · apply lists
  · apply wf

/-- Registering a struct keeps a scope that spells its schema. -/
theorem registerStruct (h : scope.Spells schema) {name : String} {id : Nat}
    (identifier : Identifier name.toList)
    (hregister : scope.registerStruct schema name = .ok (id, scope', schema')) :
  scope'.Spells schema'
  := by
  obtain ⟨wf, -⟩ := h.names.registerStruct h.wellFormed hregister
  rw [Scope.registerStruct] at hregister
  split at hregister
  · cases hregister
  next free =>
  obtain ⟨⟨id', schema₁⟩, hdeclare, hregister⟩ := Except.bind_eq_ok.mp hregister
  obtain ⟨rfl, after⟩ := Prod.mk.inj (Except.ok.inj hregister)
  obtain ⟨rfl, rfl⟩ := Prod.mk.inj after
  rw [RegionSchema.declareStruct] at hdeclare
  split at hdeclare
  · cases hdeclare
  obtain ⟨rfl, rfl⟩ := Prod.mk.inj (Except.ok.inj hdeclare)
  have names : ((schema.structs ++ [StructSchema.mk name []]).map StructSchema.name)
      = schema.structs.map StructSchema.name ++ [name] := List.map_append ..
  constructor
  · rw [names, ofStructs_concat, List.length_map, ← h.scope_eq]
  · rw [names]
    exact List.forall_mem_append.mpr ⟨h.identifiers, List.forall_mem_singleton.mpr identifier⟩
  · rw [h.scope_eq, get?_ofStructs_eq_none_iff] at free
    rw [names, ← List.append_assoc, ← List.concat_eq_append]
    apply h.distinct.concat free
  · apply h.lists
  · apply wf

end Spells

/-- A reference stands for the same type where the list types for it are there. -/
theorem resolveChars_of_begins {chars : List Char}
    (h : scope.resolveChars schema chars = some (type, schema')) {later : RegionSchema}
    (distinct : later.lists.Nodup) (more : schema'.lists <+: later.lists) :
  scope.resolveChars later chars = some (type, later)
  := by
  fun_induction scope.resolveChars schema chars generalizing type schema' with
  | case1 rest ih =>
    obtain ⟨⟨item, schema₁⟩, hitem, h⟩ := Option.bind_eq_some_iff.mp h
    obtain ⟨id, same, there⟩ := schema₁.exists_list item
    have kept := (RegionSchema.grows_list schema₁ item).lists
    have made : schema₁.list item = (type, schema') := Option.some.inj h
    rw [made] at same there kept
    rw [resolveChars, ih hitem (kept.trans more)]
    dsimp only at same
    rw [same]
    exact congrArg some (RegionSchema.list_of_getElem? distinct (getElem?_of_begins more there))
  | case2 chars other =>
    obtain ⟨found, hfound, h⟩ := Option.bind_eq_some_iff.mp h
    obtain ⟨rfl, -⟩ := Prod.mk.inj (Option.some.inj h)
    rw [resolveChars, hfound]
    · rfl
    · apply other

end Scope

/-! ### Building -/

namespace SchemaCall

/-- Whether a call registers a struct under an identifier or resolves a reference. -/
def Plain : SchemaCall → Prop
  | .registerStruct name => Identifier name.toList
  | .resolve _ => True
  | _ => False

variable {scope scope' : Scope} {schema schema' : RegionSchema} {call : SchemaCall}
  {given : Except SchemaError SchemaAnswer}

/-- A call whose answer is settled keeps a scope that spells its schema. -/
theorem spells_settle (h : scope.Spells schema) (plain : call.Plain)
    (hsettle : call.settle scope schema = .ok (given, scope', schema')) :
  scope'.Spells schema'
  := by
  cases call with
  | registerStruct name =>
    rw [settle] at hsettle
    split at hsettle
    · next hregister =>
      obtain ⟨-, after⟩ := Prod.mk.inj (Except.ok.inj hsettle)
      obtain ⟨rfl, rfl⟩ := Prod.mk.inj after
      apply h.registerStruct plain hregister
    · obtain ⟨-, after⟩ := Prod.mk.inj (Except.ok.inj hsettle)
      obtain ⟨rfl, rfl⟩ := Prod.mk.inj after
      apply h
  | resolve reference =>
    rw [settle] at hsettle
    split at hsettle
    · next hresolve =>
      obtain ⟨-, after⟩ := Prod.mk.inj (Except.ok.inj hsettle)
      obtain ⟨rfl, rfl⟩ := Prod.mk.inj after
      apply h.resolveChars hresolve
    · obtain ⟨-, after⟩ := Prod.mk.inj (Except.ok.inj hsettle)
      obtain ⟨rfl, rfl⟩ := Prod.mk.inj after
      apply h
  | _ => apply plain.elim

variable {s s' : Building} {calls : List SchemaCall}
  {answers : List (Except SchemaError SchemaAnswer)}

/-- A call keeps a scope that spells its schema. -/
theorem spells_perform (intact : s.draft.Intact) (h : s.scope.Spells s.draft.schema)
    (plain : call.Plain) (hperform : call.perform s = .ok (given, s')) :
  s'.scope.Spells s'.draft.schema
  := by
  rcases perform_cases intact call with ⟨given', s₁, run, -, settled⟩ | ⟨fault, run, -⟩
  · obtain ⟨-, rfl⟩ := Prod.mk.inj (Except.ok.inj (run.symm.trans hperform))
    apply spells_settle h plain settled
  · rw [run] at hperform
    cases hperform

/-- Plain calls in a row have answers and keep a scope that spells its schema. -/
theorem exists_performAll (intact : s.draft.Intact) (h : s.scope.Spells s.draft.schema)
    (plain : ∀ call ∈ calls, call.Plain) :
  ∃ answers s', performAll calls s = .ok (answers, s') ∧ s'.draft.Intact
    ∧ s'.scope.Spells s'.draft.schema
  := by
  induction calls generalizing s with
  | nil =>
    use [], s
    constructor
    · rfl
    constructor
    · apply intact
    · apply h
  | cons call rest ih =>
    obtain ⟨first, plain⟩ := List.forall_mem_cons.mp plain
    have declared : ∀ id fields, call = .defineFields id fields → id < s.draft.structs.length := by
      rintro id fields rfl
      apply first.elim
    obtain ⟨given, s₁, hcall⟩ := exists_perform declared
    have intact₁ := intact.steps (steps_perform intact hcall)
    have h₁ := spells_perform intact h first hcall
    obtain ⟨others, s', hrest, intact', h'⟩ := ih intact₁ h₁ plain
    use given :: others, s'
    constructor
    · rw [performAll, hcall]
      dsimp only [bind, Except.bind]
      rw [hrest]
      rfl
    constructor
    · apply intact'
    · apply h'

end SchemaCall

namespace Building

variable {s : Building}

/-- Where a reference stands for a type without new list types, nothing is changed. -/
theorem run_resolveChars_of_same (intact : s.draft.Intact) {chars : List Char} {type : FieldType}
    (h : s.scope.resolveChars s.draft.schema chars = some (type, s.draft.schema)) :
  (resolveChars chars).run s = .ok (some type) s
  := by
  have run := run_resolveChars intact chars
  rw [h] at run
  obtain ⟨items, -, same, run⟩ := run
  have lists : s.draft.lists ++ items = s.draft.lists := by
    rw [← Draft.lists_addLists]
    apply congrArg RegionSchema.lists same
  obtain rfl := List.append_right_eq_self.mp lists
  apply run

/-- A reference is resolved to the type that it names, and so it is again; or nothing is changed. -/
theorem exists_run_resolve (intact : s.draft.Intact) (h : s.scope.Spells s.draft.schema)
    (reference : String) :
  ∃ type? s', (resolve reference).run s = .ok type? s'
    ∧ (∀ type, type? = some type → s'.draft.schema.typeName type = .ok reference
      ∧ (resolve reference).run s' = .ok (some type) s')
    ∧ (type? = none → s' = s)
  := by
  have run := run_resolveChars intact reference.toList
  rcases hresolve : s.scope.resolveChars s.draft.schema reference.toList with _ | ⟨type, schema⟩
  · rw [hresolve] at run
    use none, s, run, nofun
    intro _
    rfl
  · rw [hresolve] at run
    obtain ⟨items, steps, rfl, run⟩ := run
    refine ⟨some type, _, run, ?_, nofun⟩
    rintro _ ⟨⟩
    constructor
    · have named := h.typeName_resolveChars hresolve
      rwa [String.ofList_toList] at named
    · have spells := h.resolveChars hresolve
      apply run_resolveChars_of_same (intact.steps steps)
      apply Scope.resolveChars_of_begins hresolve spells.lists List.prefix_rfl

end Building

namespace SchemaCall

/-- After structs were registered under identifiers and references were resolved, in any order and
with any failures, types and names determine each other: a reference is resolved to the type that it
names, each type of the schema has a name and its name resolves to it, and types are compatible
exactly when they have the same name. -/
theorem names_performAll {calls : List SchemaCall} (plain : ∀ call ∈ calls, call.Plain)
    (name : String) :
  ∃ answers s, performAll calls ⟨.primitives, Draft.empty name⟩ = .ok (answers, s)
    ∧ settleAll calls .primitives (RegionSchema.empty name) = .ok (answers, s.scope, s.draft.schema)
    ∧ (∀ reference, ∃ type? s', (Building.resolve reference).run s = .ok type? s'
        ∧ (∀ type, type? = some type → s'.draft.schema.typeName type = .ok reference
          ∧ (Building.resolve reference).run s' = .ok (some type) s')
        ∧ (type? = none → s' = s))
    ∧ (∀ type, s.draft.schema.Knows type → ∃ n, s.draft.schema.typeName type = .ok n
        ∧ (Building.resolve n).run s = .ok (some type) s)
    ∧ ∀ slot value, s.draft.schema.Knows slot → s.draft.schema.Knows value →
        (slot.canHold value = true
          ↔ s.draft.schema.typeName slot = s.draft.schema.typeName value)
  := by
  have start := Draft.intact_empty name
  obtain ⟨answers, s, run, intact, spells⟩ :=
    exists_performAll (s := ⟨.primitives, Draft.empty name⟩) start (Scope.Spells.start name) plain
  use answers, s, run
  constructor
  · have settled := settleAll_eq (s := ⟨.primitives, Draft.empty name⟩) start calls
    rw [run] at settled
    apply settled
  constructor
  · apply Building.exists_run_resolve intact spells
  constructor
  · intro type knows
    obtain ⟨n, hn, resolves⟩ := spells.exists_typeName knows
    use n, hn
    apply Building.run_resolveChars_of_same intact resolves
  · intro slot value hslot hvalue
    apply spells.canHold_iff hslot hvalue

/-- Calls of which two fail: a primitive type has the name, and no struct is named `Q`. -/
def nestedCalls : List SchemaCall :=
  [.registerStruct "P", .registerStruct "int8", .resolve "[][]P", .resolve "[]Q"]

def nestedAnswers : List (Except SchemaError SchemaAnswer) :=
  [.ok (.struct 0), .error (.duplicateType "int8"), .ok (.type (some (.list 1))), .ok (.type none)]

/-- What those calls leave. -/
def nestedBuilding : Building where
  scope := ⟨FieldType.primitives ++ [("P", .struct 0)]⟩
  draft := {
    name := "R"
    structs := [⟨"P", [], []⟩]
    structIds := [("P", 0)]
    lists := [.struct 0, .list 0]
    listIds := [(.list 0, 1), (.struct 0, 0)] }

/-- The list type of list types has a name, which stands for it. -/
theorem names_performAll_nested :
  (∀ call ∈ nestedCalls, call.Plain)
    ∧ performAll nestedCalls ⟨.primitives, Draft.empty "R"⟩ = .ok (nestedAnswers, nestedBuilding)
    ∧ ∃ n, nestedBuilding.draft.schema.typeName (.list 1) = .ok n
      ∧ (Building.resolve n).run nestedBuilding = .ok (some (.list 1)) nestedBuilding
  := by
  have plain : ∀ call ∈ nestedCalls, call.Plain := by
    simp only [nestedCalls, List.forall_mem_cons, Plain, ← isIdentifier_iff]
    constructor
    · decide
    constructor
    · decide
    use trivial, trivial, List.forall_mem_nil _
  have run : performAll nestedCalls ⟨.primitives, Draft.empty "R"⟩
      = .ok (nestedAnswers, nestedBuilding) := rfl
  obtain ⟨answers, s, same, -, -, types, -⟩ := names_performAll plain "R"
  obtain ⟨-, rfl⟩ := Prod.mk.inj (Except.ok.inj (same.symm.trans run))
  constructor
  · apply plain
  constructor
  · apply run
  apply types (.list 1)
  show 1 < 2
  decide

end SchemaCall

end PoolGraph
