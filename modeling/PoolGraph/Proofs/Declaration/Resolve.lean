import PoolGraph.Declaration.Resolve
import PoolGraph.Proofs.Compile.Success
import PoolGraph.Proofs.Schema.WellFormed

/-!
# Resolved schemas are well formed

Resolving a type reference makes the list types that it needs from the inside out, and the structs
of a region are all declared before the type of any field is resolved.  So every schema that comes
out of `Declarations.resolve` is well formed (`Declarations.wellFormed_of_resolve`).
-/

namespace PoolGraph

namespace RegionSchema

/-- Whether a schema has the structs of another one, up to their fields, and its list types. -/
structure Extends (schema schema' : RegionSchema) : Prop where
  structs : schema'.structs.length = schema.structs.length
  lists : schema.lists.length ≤ schema'.lists.length

theorem Extends.refl (schema : RegionSchema) :
  schema.Extends schema
  := ⟨rfl, Nat.le_refl _⟩

variable {schema schema' schema₁ schema₂ : RegionSchema}

theorem Extends.trans (h : schema.Extends schema₁) (h' : schema₁.Extends schema₂) :
  schema.Extends schema₂
  := ⟨h'.structs.trans h.structs, Nat.le_trans h.lists h'.lists⟩

theorem Knows.extends {type : FieldType} (knows : schema.Knows type) (h : schema.Extends schema') :
  schema'.Knows type
  := knows.mono (Nat.le_of_eq h.structs.symm) h.lists

theorem wellFormed_empty (name : String) :
  (RegionSchema.empty name).WellFormed
  where
  items id item h := by
    rw [RegionSchema.empty, List.getElem?_nil] at h
    cases h
  fields := List.forall_mem_nil _

/-- Adding list types of known items keeps a schema well formed. -/
theorem WellFormed.list (h : schema.WellFormed) {item : FieldType} (knows : schema.Knows item) :
  (schema.list item).2.WellFormed ∧ schema.Extends (schema.list item).2
    ∧ (schema.list item).2.Knows (schema.list item).1
  := by
  rw [RegionSchema.list]
  split
  · next type found =>
    obtain ⟨id, hid, rfl⟩ := Option.map_eq_some_iff.mp found
    constructor
    · apply h
    constructor
    · exact .refl schema
    exact (List.findIdx?_eq_some_iff_findIdx_eq.mp hid).1
  · have longer : schema.Extends { schema with lists := schema.lists ++ [item] } := by
      refine ⟨rfl, ?_⟩
      rw [List.length_append]
      apply Nat.le_add_right
    refine ⟨⟨?_, ?_⟩, longer, ?_⟩
    · intro id other hother
      rw [List.getElem?_append] at hother
      split at hother
      · apply h.items id other hother
      · next beyond =>
        have last := (List.getElem?_eq_some_iff.mp hother).1
        rw [List.length_singleton] at last
        obtain rfl : id = schema.lists.length := by omega
        rw [Nat.sub_self] at hother
        obtain rfl := Option.some.inj hother
        apply knows
    · intro s hs field hfield
      apply (h.fields s hs field hfield).extends longer
    · show schema.lists.length < (schema.lists ++ [item]).length
      rw [List.length_append]
      apply Nat.lt_succ_self

/-! ### Fields -/

theorem mem_untilDuplicate {before rest : List Field} {field : Field}
    (h : field ∈ (untilDuplicate before rest).1) :
  field ∈ before ∨ field ∈ rest
  := by
  induction rest generalizing before with
  | nil => exact .inl h
  | cons first rest ih =>
    rw [untilDuplicate] at h
    split at h
    · exact .inl h
    · rcases ih h with h | h
      · rw [List.mem_append, List.mem_singleton] at h
        rcases h with h | rfl
        · exact .inl h
        · exact .inr (.head _)
      · exact .inr (.tail _ h)

/-- Giving a struct fields of known types keeps a schema well formed. -/
theorem WellFormed.defineFields (h : schema.WellFormed) {id : Nat} {fields : List Field}
    (knows : ∀ field ∈ fields, schema.Knows field.type) {defined : Except SchemaError Unit}
    (hdefine : schema.defineFields id fields = .ok (schema', defined)) :
  schema'.WellFormed ∧ schema.Extends schema'
  := by
  obtain ⟨s, hs, hdefine⟩ := Except.bind_eq_ok.mp hdefine
  obtain ⟨rfl, -⟩ := Prod.mk.inj (Except.ok.inj hdefine)
  have same : schema.Extends ⟨schema.name,
      schema.structs.set id ⟨s.name, (untilDuplicate [] fields).1⟩, schema.lists⟩ :=
    ⟨List.length_set, Nat.le_refl _⟩
  refine ⟨⟨?_, ?_⟩, same⟩
  · intro list item hitem
    apply (h.items list item hitem).mono (Nat.le_of_eq same.structs.symm) (Nat.le_refl _)
  · intro other hother field hfield
    apply Knows.extends _ same
    rcases List.mem_or_eq_of_mem_set hother with hother | rfl
    · apply h.fields other hother field hfield
    · apply knows field
      apply (mem_untilDuplicate hfield).resolve_left
      rintro ⟨⟩

end RegionSchema

/-! ### Names -/

namespace Scope

/-- Whether the names of a scope stand for primitive types and for structs of a schema. -/
def Names (scope : Scope) (schema : RegionSchema) : Prop :=
  ∀ named ∈ scope.types, named.2.Within schema.structs.length 0

variable {scope scope' : Scope} {schema schema' : RegionSchema}

theorem names_primitives (schema : RegionSchema) :
  primitives.Names schema
  := by
  simp [Names, primitives, FieldType.primitives, FieldType.Within]

theorem Names.extends (h : scope.Names schema) (longer : schema.Extends schema') :
  scope.Names schema'
  := by
  intro named hnamed
  apply (h named hnamed).mono (Nat.le_of_eq longer.structs.symm) (Nat.le_refl _)

/-- Resolving a type reference makes only list types of known items. -/
theorem Names.resolveChars (names : scope.Names schema) (wf : schema.WellFormed)
    {chars : List Char} {type : FieldType}
    (h : scope.resolveChars schema chars = some (type, schema')) :
  schema'.WellFormed ∧ schema.Extends schema' ∧ schema'.Knows type
  := by
  fun_induction scope.resolveChars schema chars generalizing type schema' with
  | case1 rest ih =>
    obtain ⟨⟨item, schema₁⟩, hitem, h⟩ := Option.bind_eq_some_iff.mp h
    obtain ⟨wf₁, longer₁, knows₁⟩ := ih hitem
    obtain ⟨wf₂, longer₂, knows₂⟩ := wf₁.list knows₁
    obtain ⟨rfl, rfl⟩ := Prod.mk.inj (Option.some.inj h)
    constructor
    · apply wf₂
    use longer₁.trans longer₂, knows₂
  | case2 chars =>
    obtain ⟨found, hfound, h⟩ := Option.bind_eq_some_iff.mp h
    obtain ⟨rfl, rfl⟩ := Prod.mk.inj (Option.some.inj h)
    obtain ⟨before, after, hsplit, -⟩ := List.lookup_eq_some_iff.mp hfound
    constructor
    · apply wf
    constructor
    · exact .refl schema
    have mem : (String.ofList chars, found) ∈ scope.types := by
      rw [hsplit]
      exact List.mem_append_right _ (.head _)
    apply (names _ mem).mono (Nat.le_refl _) (Nat.zero_le _)

/-- Declaring a struct adds it under its name. -/
theorem Names.registerStruct (names : scope.Names schema) (wf : schema.WellFormed) {name : String}
    {id : Nat} (h : scope.registerStruct schema name = .ok (id, scope', schema')) :
  schema'.WellFormed ∧ scope'.Names schema'
  := by
  unfold Scope.registerStruct at h
  split at h
  · cases h
  obtain ⟨⟨id', schema₁⟩, hdeclare, h⟩ := Except.bind_eq_ok.mp h
  obtain ⟨rfl, after⟩ := Prod.mk.inj (Except.ok.inj h)
  obtain ⟨rfl, rfl⟩ := Prod.mk.inj after
  unfold RegionSchema.declareStruct at hdeclare
  split at hdeclare
  · cases hdeclare
  obtain ⟨rfl, rfl⟩ := Prod.mk.inj (Except.ok.inj hdeclare)
  have more : schema.structs.length < (schema.structs ++ [StructSchema.mk name []]).length := by
    rw [List.length_append]
    apply Nat.lt_succ_self
  refine ⟨⟨?_, ?_⟩, ?_⟩
  · intro list item hitem
    apply (wf.items list item hitem).mono (Nat.le_of_lt more) (Nat.le_refl _)
  · intro s hs field hfield
    rcases List.mem_append.mp hs with hs | hs
    · apply (wf.fields s hs field hfield).mono (Nat.le_of_lt more) (Nat.le_refl _)
    · obtain rfl := List.mem_singleton.mp hs
      cases hfield
  · intro named hnamed
    rcases List.mem_append.mp hnamed with hnamed | hnamed
    · apply (names named hnamed).mono (Nat.le_of_lt more) (Nat.le_refl _)
    · obtain rfl := List.mem_singleton.mp hnamed
      apply more

end Scope

/-! ### Declarations -/

namespace Declarations

variable {d : Declarations} {scope scope' : Scope} {schema schema' : RegionSchema}

/-- What registering one struct keeps holds behind the declaration of all. -/
theorem of_declareStructs {P : Scope → RegionSchema → Prop}
    (step : ∀ {scope schema name id scope' schema'}, P scope schema →
      scope.registerStruct schema name = .ok (id, scope', schema') → P scope' schema')
    (before : P scope schema) {refs : List (Ref StructDecl)} {declared : List (StructDecl × Nat)}
    (h : (d.declareStructs scope schema refs).run = .ok (.ok (declared, scope', schema'))) :
  P scope' schema'
  := by
  induction refs generalizing scope schema declared with
  | nil =>
    obtain ⟨-, h⟩ := Prod.mk.inj (Except.ok.inj (Except.ok.inj h))
    obtain ⟨rfl, rfl⟩ := Prod.mk.inj h
    apply before
  | cons r refs ih =>
    obtain ⟨s, -, h⟩ := Compile.bind_eq_ok.mp h
    obtain ⟨-, -, h⟩ := Compile.bind_eq_ok.mp h
    obtain ⟨⟨id, scope₁, schema₁⟩, hregister, h⟩ := Compile.bind_eq_ok.mp h
    obtain ⟨⟨others, scope₂, schema₂⟩, hrest, h⟩ := Compile.bind_eq_ok.mp h
    obtain ⟨-, h⟩ := Prod.mk.inj (Except.ok.inj (Except.ok.inj h))
    obtain ⟨rfl, rfl⟩ := Prod.mk.inj h
    apply ih (step before (Compile.ofSchema_eq_ok.mp hregister)) hrest

theorem knows_of_resolveFields (names : scope.Names schema) (wf : schema.WellFormed)
    {struct : String} {refs : List (Ref FieldDecl)} {fields : List Field}
    (h : (d.resolveFields scope struct schema refs).run = .ok (.ok (fields, schema'))) :
  schema'.WellFormed ∧ schema.Extends schema' ∧ ∀ field ∈ fields, schema'.Knows field.type
  := by
  induction refs generalizing schema fields with
  | nil =>
    obtain ⟨rfl, rfl⟩ := Prod.mk.inj (Except.ok.inj (Except.ok.inj h))
    constructor
    · apply wf
    use .refl schema, List.forall_mem_nil _
  | cons r refs ih =>
    obtain ⟨f, -, h⟩ := Compile.bind_eq_ok.mp h
    obtain ⟨-, -, h⟩ := Compile.bind_eq_ok.mp h
    dsimp only at h
    split at h
    · cases Except.ok.inj h
    split at h
    · cases Except.ok.inj h
    next type schema₁ hresolve =>
    obtain ⟨⟨others, schema₂⟩, hrest, h⟩ := Compile.bind_eq_ok.mp h
    obtain ⟨rfl, rfl⟩ := Prod.mk.inj (Except.ok.inj (Except.ok.inj h))
    obtain ⟨wf₁, longer₁, knows⟩ := names.resolveChars wf hresolve
    obtain ⟨wf₂, longer₂, all⟩ := ih (names.extends longer₁) wf₁ hrest
    constructor
    · apply wf₂
    constructor
    · apply longer₁.trans longer₂
    · exact List.forall_mem_cons.mpr ⟨knows.extends longer₂, all⟩

/-- Declaring structs adds them under their names. -/
theorem wellFormed_of_declareStructs (names : scope.Names schema) (wf : schema.WellFormed)
    {refs : List (Ref StructDecl)} {declared : List (StructDecl × Nat)}
    (h : (d.declareStructs scope schema refs).run = .ok (.ok (declared, scope', schema'))) :
  schema'.WellFormed ∧ scope'.Names schema'
  := by
  apply of_declareStructs (P := fun scope schema => schema.WellFormed ∧ scope.Names schema)
    _ ⟨wf, names⟩ h
  rintro scope schema name id scope' schema' ⟨wf, names⟩ hregister
  apply names.registerStruct wf hregister

/-- What giving one struct its fields keeps holds behind the definition of all. -/
theorem of_defineStructs {P : RegionSchema → Prop}
    (step : ∀ {schema struct refs fields schema₁ id defined schema'}, P schema →
      (d.resolveFields scope struct schema refs).run = .ok (.ok (fields, schema₁)) →
      schema₁.defineFields id fields = .ok (schema', defined) → P schema')
    (before : P schema) {declared : List (StructDecl × Nat)}
    (h : (d.defineStructs scope schema declared).run = .ok (.ok schema')) :
  P schema'
  := by
  induction declared generalizing schema with
  | nil =>
    obtain rfl := Except.ok.inj (Except.ok.inj h)
    apply before
  | cons s declared ih =>
    obtain ⟨s, id⟩ := s
    obtain ⟨⟨fields, schema₁⟩, hfields, h⟩ := Compile.bind_eq_ok.mp h
    obtain ⟨⟨schema₂, defined⟩, hdefine, h⟩ := Compile.bind_eq_ok.mp h
    obtain ⟨-, -, h⟩ := Compile.bind_eq_ok.mp h
    apply ih (step before hfields (Compile.lift_eq_ok.mp hdefine)) h

/-- The schema of a region is well formed. -/
theorem wellFormed_of_resolveRegion {region : RegionDecl}
    (h : (d.resolveRegion region).run = .ok (.ok schema)) :
  schema.WellFormed
  := by
  obtain ⟨⟨declared, scope, schema₁⟩, hdeclare, h⟩ := Compile.bind_eq_ok.mp h
  obtain ⟨wf, names⟩ := wellFormed_of_declareStructs
    (Scope.names_primitives (RegionSchema.empty region.name))
    (RegionSchema.wellFormed_empty region.name) hdeclare
  apply (of_defineStructs (P := fun schema => schema.WellFormed ∧ scope.Names schema)
    ?_ ⟨wf, names⟩ h).1
  rintro schema struct refs fields schema₁ id defined schema' ⟨wf, names⟩ hfields hdefine
  obtain ⟨wf₁, longer₁, knows⟩ := knows_of_resolveFields names wf hfields
  obtain ⟨wf₂, longer₂⟩ := wf₁.defineFields knows hdefine
  constructor
  · apply wf₂
  · apply names.extends (longer₁.trans longer₂)

/-- Each schema of a schema file is that of one of its regions. -/
theorem exists_of_resolveRegions {taken : List String} {refs : List (Ref RegionDecl)}
    {schemas : List RegionSchema} (h : (d.resolveRegions taken refs).run = .ok (.ok schemas)) :
  ∀ schema ∈ schemas, ∃ region, (d.resolveRegion region).run = .ok (.ok schema)
  := by
  induction refs generalizing taken schemas with
  | nil =>
    obtain rfl := Except.ok.inj (Except.ok.inj h)
    apply List.forall_mem_nil
  | cons r refs ih =>
    obtain ⟨region, -, h⟩ := Compile.bind_eq_ok.mp h
    obtain ⟨-, -, h⟩ := Compile.bind_eq_ok.mp h
    dsimp only at h
    split at h
    · cases Except.ok.inj h
    obtain ⟨schema, hschema, h⟩ := Compile.bind_eq_ok.mp h
    obtain ⟨others, hothers, h⟩ := Compile.bind_eq_ok.mp h
    obtain rfl := Except.ok.inj (Except.ok.inj h)
    exact List.forall_mem_cons.mpr ⟨⟨region, hschema⟩, ih hothers⟩

/-- Each schema that declarations resolve to is that of a region among them. -/
theorem exists_of_resolve {root : Ref SchemaDecl} {schemas : List RegionSchema}
    (h : (d.resolve root).run = .ok (.ok schemas)) :
  ∀ schema ∈ schemas, ∃ region, (d.resolveRegion region).run = .ok (.ok schema)
  := by
  obtain ⟨declared, -, h⟩ := Compile.bind_eq_ok.mp h
  apply exists_of_resolveRegions h

/-- Every schema that comes out of declarations is well formed. -/
theorem wellFormed_of_resolve {root : Ref SchemaDecl} {schemas : List RegionSchema}
    (h : (d.resolve root).run = .ok (.ok schemas)) :
  ∀ schema ∈ schemas, schema.WellFormed
  := by
  intro schema hschema
  obtain ⟨region, hregion⟩ := exists_of_resolve h schema hschema
  apply wellFormed_of_resolveRegion hregion

end Declarations

end PoolGraph
