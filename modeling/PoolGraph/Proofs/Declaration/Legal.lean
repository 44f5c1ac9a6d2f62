import PoolGraph.Proofs.Declaration.Faultless
import PoolGraph.Proofs.Declaration.References
import PoolGraph.Proofs.SideBySide

/-!
# Legal declarations

`Declarations.LegalRegion` says which declared regions make schemas: names are identifiers, names
that could be confused differ, and the type of every field refers to a primitive type or to a
struct of the region.  It mentions neither the order in which structs are declared nor the tables
that are built on the way.  The resolver goes through exactly where it holds
(`Declarations.exists_resolveRegion`), and the schema that comes out says what was declared
(`Declarations.described_of_resolveRegion`).
-/

namespace PoolGraph

open Grammar

/-! ### Names and types -/

/-- The objects that references lead to, in order. -/
def Pool.found (pool : Pool α) (refs : List (Ref α)) : List α :=
  refs.filterMap pool.get?

/-- Whether a declared field has an identifier for a name, and refers to a primitive type, to one of
the named structs or to lists of such. -/
structure FieldDecl.Legal (structs : List String) (f : FieldDecl) : Prop where
  name : Identifier f.name.toList
  type : TypeReference (FieldType.primitiveNames ++ structs) f.type.toList

/-- Whether a field is what a declared field says: it has the name, and its type is spelled as it
is there. -/
structure Field.Spells (schema : RegionSchema) (f : FieldDecl) (field : Field) : Prop where
  name : field.name = f.name
  type : ∃ shape, schema.Unfolds field.type shape ∧ shape.name = f.type

/-- A field spelled in a schema is spelled in every schema that grows from it. -/
theorem Field.Spells.grows {schema schema' : RegionSchema} {f : FieldDecl} {field : Field}
    (h : field.Spells schema f) (grows : schema.Grows schema') :
  field.Spells schema' f
  := by
  obtain ⟨name, shape, unfolds, spelled⟩ := h
  exact ⟨name, shape, unfolds.grows grows, spelled⟩

namespace Declarations

/-! ### What is declared -/

/-- The fields of a declared struct. -/
def fieldsOf (d : Declarations) (s : StructDecl) : List FieldDecl :=
  d.fields.found s.fields

/-- The structs of a declared region. -/
def structsOf (d : Declarations) (region : RegionDecl) : List StructDecl :=
  d.structs.found region.structs

/-- The names of the structs of a declared region. -/
def structNames (d : Declarations) (region : RegionDecl) : List String :=
  (d.structsOf region).map StructDecl.name

/-- Whether the fields of a declared struct are legal, and their names differ. -/
structure LegalFields (d : Declarations) (structs : List String) (s : StructDecl) : Prop where
  fields : ∀ f ∈ d.fieldsOf s, f.Legal structs
  distinct : ((d.fieldsOf s).map FieldDecl.name).Nodup

/-- Whether the names of a declared region and of its structs are identifiers, those of structs
differ from each other and from those of the primitive types, and fields are legal. -/
structure LegalRegion (d : Declarations) (region : RegionDecl) : Prop where
  name : Identifier region.name.toList
  structs : ∀ name ∈ d.structNames region, Identifier name.toList
  fresh : ∀ name ∈ d.structNames region, name ∉ FieldType.primitiveNames
  distinct : (d.structNames region).Nodup
  fields : ∀ s ∈ d.structsOf region, d.LegalFields (d.structNames region) s

/-- Whether a struct is what a declared struct says. -/
structure DescribesStruct (d : Declarations) (schema : RegionSchema) (s : StructDecl)
    (struct : StructSchema) : Prop where
  name : struct.name = s.name
  fields : List.Forall₂ (Field.Spells schema) (d.fieldsOf s) struct.fields

/-- Whether a schema is what a declared region says. -/
structure Describes (d : Declarations) (region : RegionDecl) (schema : RegionSchema) : Prop where
  name : schema.name = region.name
  structs : List.Forall₂ (d.DescribesStruct schema) (d.structsOf region) schema.structs

/-- The fields have the names that were declared. -/
theorem names_of_spells {schema : RegionSchema} {fs : List FieldDecl} {fields : List Field}
    (h : List.Forall₂ (Field.Spells schema) fs fields) :
  fields.map Field.name = fs.map FieldDecl.name
  := (map_eq_map_of_forall₂ (h.imp fun _ _ spelled => spelled.name.symm)).symm

/-- The structs have the names that were declared. -/
theorem Describes.names {d : Declarations} {region : RegionDecl} {schema : RegionSchema}
    (h : d.Describes region schema) :
  schema.structs.map StructSchema.name = d.structNames region
  := (map_eq_map_of_forall₂ (h.structs.imp fun _ _ described => described.name.symm)).symm

/-! ### Looking up -/

/-- Whether looking up references gives these objects, one for each. -/
def Finds [Declared α] (pool : Pool α) (refs : List (Ref α)) (xs : List α) : Prop :=
  List.Forall₂ (fun r x => (find pool r).run = .ok (.ok x)) refs xs

/-- References below the size of a pool find something. -/
theorem finds_found [Declared α] {pool : Pool α} {refs : List (Ref α)}
    (h : ∀ r ∈ refs, r.index < pool.size) :
  Finds pool refs (pool.found refs)
  := by
  induction refs with
  | nil => exact .nil
  | cons r refs ih =>
    obtain ⟨first, others⟩ := List.forall_mem_cons.mp h
    obtain ⟨x, hx⟩ := Pool.get?_eq_some_iff_lt.mpr first
    rw [Pool.found, List.filterMap_cons_some hx]
    refine .cons ?_ (ih others)
    rw [find, hx]
    rfl

/-- What is found is in the pool. -/
theorem Finds.mem [Declared α] {pool : Pool α} {refs : List (Ref α)} {xs : List α}
    (h : Finds pool refs xs) {x : α} (hx : x ∈ xs) :
  x ∈ pool.toList
  := by
  induction h with
  | nil => cases hx
  | cons first _ ih =>
    cases hx with
    | head => apply mem_of_find first
    | tail _ hx => apply ih hx

/-- A name is accepted if it is an identifier. -/
theorem checkName_eq_ok {name : String} :
  (checkName name).run = .ok (.ok ()) ↔ Identifier name.toList
  := by
  rw [checkName, ← isIdentifier_iff]
  split
  · next identifier => exact ⟨fun _ => identifier, fun _ => rfl⟩
  · next other =>
    constructor
    · intro h
      cases Except.ok.inj h
    · intro identifier
      exact absurd identifier other

/-! ### Declaring structs -/

/-- A schema with structs of these names that have no fields yet. -/
def declaring (region : String) (structs : List String) : RegionSchema :=
  ⟨region, structs.map (StructSchema.mk · []), []⟩

/-- The structs declared so far have the names they were given. -/
theorem map_name_declaring (region : String) (structs : List String) :
  (declaring region structs).structs.map StructSchema.name = structs
  := by
  rw [declaring, List.map_map]
  apply List.map_id

variable {d : Declarations} {region : String} {structs : List String}

section

variable {name : String} (fresh : name ∉ FieldType.primitiveNames ++ structs)

include fresh

/-- A name that is new is declared behind the others. -/
theorem declareStruct_of_fresh :
  (declaring region structs).declareStruct name
    = .ok (structs.length, declaring region (structs ++ [name]))
  := by
  have free : (declaring region structs).structIndex? name = none := by
    apply findIdx?_eq_none_iff_notMem.mpr
    rw [map_name_declaring]
    intro taken
    apply fresh (List.mem_append_right _ taken)
  rw [RegionSchema.declareStruct, free]
  simp only [declaring, List.length_map, List.map_append, List.map_singleton]

/-- A struct is registered under a name that no primitive type and no other struct has. -/
theorem registerStruct_of_fresh :
  (Scope.ofStructs structs).registerStruct (declaring region structs) name
    = .ok (structs.length, .ofStructs (structs ++ [name]), declaring region (structs ++ [name]))
  := by
  rw [Scope.registerStruct, Scope.get?_ofStructs_eq_none_iff.mpr fresh]
  dsimp only
  rw [declareStruct_of_fresh fresh, Scope.ofStructs_concat]
  rfl

end

/-- A name that is registered is new. -/
theorem fresh_of_registerStruct {schema : RegionSchema} {name : String}
    {out : Nat × Scope × RegionSchema}
    (h : (Scope.ofStructs structs).registerStruct schema name = .ok out) :
  name ∉ FieldType.primitiveNames ++ structs
  := by
  rw [Scope.registerStruct] at h
  split at h
  · cases h
  · next free => exact Scope.get?_ofStructs_eq_none_iff.mp free

/-- Structs are declared under identifiers that differ from each other and from all names before. -/
theorem declareStructs_of_legal {refs : List (Ref StructDecl)} {xs : List StructDecl}
    (finds : Finds d.structs refs xs) (identifiers : ∀ s ∈ xs, Identifier s.name.toList)
    (fresh : ∀ s ∈ xs, s.name ∉ FieldType.primitiveNames ++ structs)
    (distinct : (xs.map StructDecl.name).Nodup) :
  (d.declareStructs (.ofStructs structs) (declaring region structs) refs).run
    = .ok (.ok (xs.zipIdx structs.length, .ofStructs (structs ++ xs.map StructDecl.name),
      declaring region (structs ++ xs.map StructDecl.name)))
  := by
  induction finds generalizing structs with
  | nil =>
    rw [List.map_nil, List.append_nil]
    rfl
  | @cons r s refs xs first _ ih =>
    obtain ⟨identifier, identifiers⟩ := List.forall_mem_cons.mp identifiers
    obtain ⟨free, fresh⟩ := List.forall_mem_cons.mp fresh
    obtain ⟨new, distinct⟩ := List.nodup_cons.mp distinct
    have later : ∀ s' ∈ xs, s'.name ∉ FieldType.primitiveNames ++ (structs ++ [s.name]) := by
      intro s' hs'
      rw [← List.append_assoc, List.mem_append, List.mem_singleton]
      rintro (taken | same)
      · apply fresh s' hs' taken
      · exact new (same ▸ List.mem_map_of_mem hs')
    have rest := ih identifiers later distinct
    rw [declareStructs, Compile.run_bind_of_eq_ok first,
      Compile.run_bind_of_eq_ok (checkName_eq_ok.mpr identifier),
      Compile.run_bind_of_eq_ok (Compile.ofSchema_eq_ok.mpr (registerStruct_of_fresh free))]
    dsimp only
    rw [Compile.run_bind_of_eq_ok rest, List.length_append, List.append_assoc]
    rfl

/-- What was declared is legal. -/
theorem legal_of_declareStructs {refs : List (Ref StructDecl)} {xs : List StructDecl}
    (finds : Finds d.structs refs xs) {out : List (StructDecl × Nat) × Scope × RegionSchema}
    (h : (d.declareStructs (.ofStructs structs) (declaring region structs) refs).run
      = .ok (.ok out)) :
  (∀ s ∈ xs, Identifier s.name.toList)
    ∧ (∀ s ∈ xs, s.name ∉ FieldType.primitiveNames ++ structs)
    ∧ (xs.map StructDecl.name).Nodup
  := by
  induction finds generalizing structs out with
  | nil =>
    constructor
    · exact List.forall_mem_nil _
    use List.forall_mem_nil _, List.nodup_nil
  | @cons r s refs xs first _ ih =>
    rw [declareStructs, Compile.run_bind_of_eq_ok first] at h
    obtain ⟨_, hname, h⟩ := Compile.bind_eq_ok.mp h
    obtain ⟨registered, hregister, h⟩ := Compile.bind_eq_ok.mp h
    have hregister := Compile.ofSchema_eq_ok.mp hregister
    have free := fresh_of_registerStruct hregister
    obtain rfl := Except.ok.inj ((registerStruct_of_fresh free).symm.trans hregister)
    obtain ⟨others, hrest, -⟩ := Compile.bind_eq_ok.mp h
    obtain ⟨identifiers, fresh, distinct⟩ := ih hrest
    have new : ∀ s' ∈ xs, s'.name ∉ FieldType.primitiveNames ++ structs ∧ s'.name ≠ s.name := by
      intro s' hs'
      have free := fresh s' hs'
      rwa [← List.append_assoc, List.mem_append, List.mem_singleton, not_or] at free
    constructor
    · exact List.forall_mem_cons.mpr ⟨checkName_eq_ok.mp hname, identifiers⟩
    constructor
    · exact List.forall_mem_cons.mpr ⟨free, fun s' hs' => (new s' hs').1⟩
    refine List.nodup_cons.mpr ⟨?_, distinct⟩
    intro taken
    obtain ⟨s', hs', same⟩ := List.mem_map.mp taken
    apply (new s' hs').2 same

/-! ### Resolving fields -/

section

variable {scope : Scope} {struct : String} {schema schema' : RegionSchema}
  {refs : List (Ref FieldDecl)} {fs : List FieldDecl} (finds : Finds d.fields refs fs)
  (named : schema.structs.map StructSchema.name = structs)

include finds named

/-- Fields that are resolved are legal, and what they say. -/
theorem spells_of_resolveFields {fields : List Field}
    (h : (d.resolveFields (.ofStructs structs) struct schema refs).run
      = .ok (.ok (fields, schema'))) :
  (∀ f ∈ fs, f.Legal structs) ∧ schema.Grows schema' ∧ schema'.structs = schema.structs
    ∧ List.Forall₂ (Field.Spells schema') fs fields
  := by
  induction finds generalizing schema fields with
  | nil =>
    obtain ⟨rfl, rfl⟩ := Prod.mk.inj (Except.ok.inj (Except.ok.inj h))
    constructor
    · exact List.forall_mem_nil _
    use .refl schema, rfl, .nil
  | @cons r f refs fs first _ ih =>
    rw [resolveFields, Compile.run_bind_of_eq_ok first] at h
    obtain ⟨_, hname, h⟩ := Compile.bind_eq_ok.mp h
    dsimp only at h
    split at h
    · cases Except.ok.inj h
    split at h
    · cases Except.ok.inj h
    next type schema₁ hresolve =>
    obtain ⟨⟨others, schema₂⟩, hrest, h⟩ := Compile.bind_eq_ok.mp h
    obtain ⟨rfl, rfl⟩ := Prod.mk.inj (Except.ok.inj (Except.ok.inj h))
    obtain ⟨reference, grows, same, shape, unfolds, spelled⟩ :=
      Scope.unfolds_of_resolveChars named hresolve
    obtain ⟨legal, grows', same', spells⟩ := ih (grows.structs.trans named) hrest
    constructor
    · apply List.forall_mem_cons.mpr ⟨⟨checkName_eq_ok.mp hname, reference⟩, legal⟩
    use grows.trans grows', same'.trans same
    refine .cons ⟨rfl, shape, unfolds.grows grows', ?_⟩ spells
    apply String.toList_inj.mp spelled

/-- Legal fields are resolved. -/
theorem exists_resolveFields (identifiers : ∀ name ∈ structs, Identifier name.toList)
    (legal : ∀ f ∈ fs, f.Legal structs) :
  ∃ fields schema', (d.resolveFields (.ofStructs structs) struct schema refs).run
    = .ok (.ok (fields, schema'))
  := by
  induction finds generalizing schema with
  | nil =>
    use [], schema
    rfl
  | @cons r f refs fs first _ ih =>
    obtain ⟨⟨identifier, reference⟩, legal⟩ := List.forall_mem_cons.mp legal
    obtain ⟨type, schema₁, hresolve⟩ := Scope.exists_resolveChars identifiers reference schema
    obtain ⟨-, grows, -⟩ := Scope.unfolds_of_resolveChars named hresolve
    obtain ⟨fields, schema', hrest⟩ := ih (grows.structs.trans named) legal
    have looks := reference.isTypeReference (identifier_of_mem_append identifiers)
    use ⟨f.name, type⟩ :: fields, schema'
    rw [resolveFields, Compile.run_bind_of_eq_ok first,
      Compile.run_bind_of_eq_ok (checkName_eq_ok.mpr identifier), looks]
    simp only [Bool.not_true, Bool.false_eq_true, if_false, Scope.resolve, hresolve]
    rw [Compile.run_bind_of_eq_ok hrest]
    rfl

end

end Declarations

end PoolGraph
