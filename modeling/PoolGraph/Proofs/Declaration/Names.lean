import PoolGraph.Proofs.Declaration.Resolve
import PoolGraph.Proofs.Schema.Names

/-!
# Names in resolved schemas

Resolving builds a schema by declaring structs, making list types and defining fields.  What these
three keep (`SchemaInvariant`) therefore holds of every schema that comes out of
`Declarations.resolve`, and in particular names are distinct (`Declarations.distinct_of_resolve`).
-/

namespace PoolGraph

/-- A property of schemas that the operations which build schemas keep. -/
structure SchemaInvariant (P : RegionSchema → Prop) : Prop where
  empty : ∀ name, P (RegionSchema.empty name)
  declareStruct : ∀ {schema schema' : RegionSchema} {name : String} {id : Nat}, P schema →
    schema.declareStruct name = .ok (id, schema') → P schema'
  list : ∀ {schema : RegionSchema} (item : FieldType), P schema → P (schema.list item).2
  defineFields : ∀ {schema schema' : RegionSchema} {id : Nat} {fields : List Field}
    {defined : Except SchemaError Unit}, P schema →
    schema.defineFields id fields = .ok (schema', defined) → P schema'

namespace SchemaInvariant

variable {P : RegionSchema → Prop} (inv : SchemaInvariant P) {d : Declarations}
  {scope scope' : Scope} {schema schema' : RegionSchema}

include inv

/-- Resolving the name of a type keeps the invariant. -/
theorem resolveChars {chars : List Char} {type : FieldType} (hP : P schema)
    (h : scope.resolveChars schema chars = some (type, schema')) :
  P schema'
  := by
  fun_induction scope.resolveChars schema chars generalizing type schema' with
  | case1 rest ih =>
    obtain ⟨⟨item, schema₁⟩, hitem, h⟩ := Option.bind_eq_some_iff.mp h
    obtain ⟨-, rfl⟩ := Prod.mk.inj (Option.some.inj h)
    apply inv.list item (ih hitem)
  | case2 chars =>
    obtain ⟨found, -, h⟩ := Option.bind_eq_some_iff.mp h
    obtain ⟨-, rfl⟩ := Prod.mk.inj (Option.some.inj h)
    apply hP

/-- Registering a struct keeps the invariant. -/
theorem registerStruct {name : String} {id : Nat} (hP : P schema)
    (h : scope.registerStruct schema name = .ok (id, scope', schema')) :
  P schema'
  := by
  unfold Scope.registerStruct at h
  split at h
  · cases h
  obtain ⟨⟨id', schema₁⟩, hdeclare, h⟩ := Except.bind_eq_ok.mp h
  obtain ⟨-, h⟩ := Prod.mk.inj (Except.ok.inj h)
  obtain ⟨-, rfl⟩ := Prod.mk.inj h
  apply inv.declareStruct hP hdeclare

/-- Resolving fields keeps the invariant. -/
theorem resolveFields {struct : String} {refs : List (Ref FieldDecl)} {fields : List Field}
    (hP : P schema)
    (h : (d.resolveFields scope struct schema refs).run = .ok (.ok (fields, schema'))) :
  P schema'
  := by
  induction refs generalizing schema fields with
  | nil =>
    obtain ⟨-, rfl⟩ := Prod.mk.inj (Except.ok.inj (Except.ok.inj h))
    apply hP
  | cons r refs ih =>
    obtain ⟨f, -, h⟩ := Compile.bind_eq_ok.mp h
    obtain ⟨-, -, h⟩ := Compile.bind_eq_ok.mp h
    dsimp only at h
    split at h
    · cases Except.ok.inj h
    split at h
    · cases Except.ok.inj h
    next type schema₁ hresolve =>
    obtain ⟨⟨others, schema₂⟩, hrest, h⟩ := Compile.bind_eq_ok.mp h
    obtain ⟨-, rfl⟩ := Prod.mk.inj (Except.ok.inj (Except.ok.inj h))
    apply ih (inv.resolveChars hP hresolve) hrest

/-- A region that is resolved has the invariant. -/
theorem resolveRegion {region : RegionDecl}
    (h : (d.resolveRegion region).run = .ok (.ok schema)) :
  P schema
  := by
  obtain ⟨⟨declared, scope, schema₁⟩, hdeclare, h⟩ := Compile.bind_eq_ok.mp h
  have bare : P schema₁ :=
    Declarations.of_declareStructs (P := fun _ schema => P schema) inv.registerStruct
      (inv.empty region.name) hdeclare
  apply Declarations.of_defineStructs _ bare h
  intro schema struct refs fields schema₁ id defined schema' hP hfields hdefine
  apply inv.defineFields (inv.resolveFields hP hfields) hdefine

/-- What building a schema keeps holds of every schema that comes out of declarations. -/
theorem resolve {root : Ref SchemaDecl} {schemas : List RegionSchema}
    (h : (d.resolve root).run = .ok (.ok schemas)) :
  ∀ schema ∈ schemas, P schema
  := by
  intro schema hschema
  obtain ⟨region, hregion⟩ := Declarations.exists_of_resolve h schema hschema
  apply inv.resolveRegion hregion

end SchemaInvariant

namespace Declarations

/-- No operation of the resolver uses a name twice. -/
theorem schemaInvariant_distinct :
  SchemaInvariant RegionSchema.Distinct
  where
  empty := RegionSchema.distinct_empty
  declareStruct h hdeclare := h.declareStruct hdeclare
  list item h := h.list item
  defineFields h hdefine := h.defineFields hdefine

/-- In every schema that comes out of declarations names are distinct. -/
theorem distinct_of_resolve {d : Declarations} {root : Ref SchemaDecl}
    {schemas : List RegionSchema} (h : (d.resolve root).run = .ok (.ok schemas)) :
  ∀ schema ∈ schemas, schema.Distinct
  := schemaInvariant_distinct.resolve h

end Declarations

end PoolGraph
