import PoolGraph.Proofs.Compile.TypeSafety
import PoolGraph.Proofs.Declaration.Legal
import PoolGraph.Schema.Text

/-!
# Resolving is faithful and complete

The resolver goes through exactly where the declared regions are legal and their names differ.  The
schemas that come out are then what was declared, region by region: in the description of a schema
every type is spelled as its declaration spells it (`Declarations.resolve_iff_legal`).
-/

namespace PoolGraph.Declarations

variable {d : Declarations} (inRange : d.InRange)

/-! ### Defining structs -/

section

variable {structs : List String} {schema schema' : RegionSchema}
  {declared : List (StructDecl × Nat)} (members : ∀ p ∈ declared, p.1 ∈ d.structs.toList)
  (named : schema.structs.map StructSchema.name = structs)

include inRange members named

/-- Structs whose fields are defined have legal fields, and are what was declared; the others stay
as they are. -/
theorem described_of_defineStructs (places : ∀ p ∈ declared, structs[p.2]? = some p.1.name)
    (distinct : (declared.map Prod.snd).Nodup)
    (h : (d.defineStructs (.ofStructs structs) schema declared).run = .ok (.ok schema')) :
  (∀ p ∈ declared, d.LegalFields structs p.1) ∧ schema.Grows schema'
    ∧ (∀ p ∈ declared, ∃ struct, schema'.structs[p.2]? = some struct
      ∧ d.DescribesStruct schema' p.1 struct)
    ∧ ∀ id, id ∉ declared.map Prod.snd → schema'.structs[id]? = schema.structs[id]?
  := by
  induction declared generalizing schema with
  | nil =>
    obtain rfl := Except.ok.inj (Except.ok.inj h)
    constructor
    · exact List.forall_mem_nil _
    use .refl schema, List.forall_mem_nil _
    intro _ _
    rfl
  | cons p declared ih =>
    obtain ⟨s, id⟩ := p
    obtain ⟨member, members⟩ := List.forall_mem_cons.mp members
    obtain ⟨place, places⟩ := List.forall_mem_cons.mp places
    obtain ⟨fresh, distinct⟩ := List.nodup_cons.mp distinct
    obtain ⟨⟨fields, schema₁⟩, hfields, h⟩ := Compile.bind_eq_ok.mp h
    obtain ⟨⟨schema₂, defined⟩, hdefine, h⟩ := Compile.bind_eq_ok.mp h
    obtain ⟨_, hdefined, h⟩ := Compile.bind_eq_ok.mp h
    obtain rfl := Compile.ofSchema_eq_ok.mp hdefined
    have hdefine := Compile.lift_eq_ok.mp hdefine
    obtain ⟨legal, grows₁, same, spells⟩ :=
      spells_of_resolveFields (finds_found (inRange.fields s member)) named hfields
    have grows₂ := RegionSchema.grows_defineFields hdefine
    obtain ⟨differ, struct, hstruct, rfl⟩ := RegionSchema.defineFields_eq_ok.mp hdefine
    obtain ⟨others, grows₃, described, frame⟩ := ih members
      ((grows₁.trans grows₂).structs.trans named) places distinct h
    rw [names_of_spells spells] at differ
    constructor
    · exact List.forall_mem_cons.mpr ⟨⟨legal, differ⟩, others⟩
    constructor
    · apply grows₁.trans (grows₂.trans grows₃)
    constructor
    · refine List.forall_mem_cons.mpr ⟨?_, described⟩
      use { struct with fields }
      constructor
      · rw [frame id fresh]
        apply List.getElem?_set_self (List.getElem?_eq_some_iff.mp hstruct).1
      constructor
      · have name : (schema₁.structs.map StructSchema.name)[id]? = some s.name := by
          rw [grows₁.structs, named]
          apply place
        rw [List.getElem?_map, hstruct] at name
        apply Option.some.inj name
      · apply spells.imp fun _ _ spelled => spelled.grows (grows₂.trans grows₃)
    · intro other hother
      obtain ⟨apart, beyond⟩ := not_or.mp (List.mem_cons.not.mp hother)
      rw [frame other beyond, ← same]
      exact List.getElem?_set_ne (Ne.symm apart)

/-- Declared structs with legal fields are defined. -/
theorem exists_defineStructs (identifiers : ∀ name ∈ structs, Grammar.Identifier name.toList)
    (inside : ∀ p ∈ declared, p.2 < schema.structs.length)
    (legal : ∀ p ∈ declared, d.LegalFields structs p.1) :
  ∃ schema', (d.defineStructs (.ofStructs structs) schema declared).run = .ok (.ok schema')
  := by
  induction declared generalizing schema with
  | nil =>
    use schema
    rfl
  | cons p declared ih =>
    obtain ⟨s, id⟩ := p
    obtain ⟨member, members⟩ := List.forall_mem_cons.mp members
    obtain ⟨here, inside⟩ := List.forall_mem_cons.mp inside
    obtain ⟨⟨fields, differ⟩, legal⟩ := List.forall_mem_cons.mp legal
    have finds := finds_found (inRange.fields s member)
    obtain ⟨resolved, schema₁, hfields⟩ : ∃ resolved schema₁,
        (d.resolveFields (.ofStructs structs) s.name schema s.fields).run
          = .ok (.ok (resolved, schema₁)) := exists_resolveFields finds named identifiers fields
    obtain ⟨-, grows₁, -, spells⟩ := spells_of_resolveFields finds named hfields
    rw [fieldsOf, ← names_of_spells spells] at differ
    have hstruct := List.getElem?_eq_getElem (grows₁.length_structs.symm ▸ here)
    have hdefine := RegionSchema.defineFields_eq_ok.mpr ⟨differ, _, hstruct, rfl⟩
    have grows := grows₁.trans (RegionSchema.grows_defineFields hdefine)
    obtain ⟨schema', hrest⟩ := ih members (grows.structs.trans named)
      (fun p hp => grows.length_structs.symm ▸ inside p hp) legal
    use schema'
    rw [defineStructs, Compile.run_bind_of_eq_ok hfields,
      Compile.run_bind_of_eq_ok (Compile.lift_eq_ok.mpr hdefine)]
    apply hrest

end

/-! ### Resolving regions -/

section

variable {region : RegionDecl} (member : region ∈ d.regions.toList)

include inRange member

/-- The structs of a region are declared exactly when their names are legal. -/
theorem declareStructs_eq_ok {out : List (StructDecl × Nat) × Scope × RegionSchema} :
  (d.declareStructs .primitives (.empty region.name) region.structs).run = .ok (.ok out)
    ↔ ((∀ name ∈ d.structNames region, Grammar.Identifier name.toList)
        ∧ (∀ name ∈ d.structNames region, name ∉ FieldType.primitiveNames)
        ∧ (d.structNames region).Nodup)
      ∧ out = ((d.structsOf region).zipIdx, .ofStructs (d.structNames region),
        declaring region.name (d.structNames region))
  := by
  have finds : Finds d.structs region.structs (d.structsOf region) :=
    finds_found (inRange.structs region member)
  have legal : ((∀ s ∈ d.structsOf region, Grammar.Identifier s.name.toList)
        ∧ (∀ s ∈ d.structsOf region, s.name ∉ FieldType.primitiveNames ++ [])
        ∧ (d.structNames region).Nodup)
      ↔ ((∀ name ∈ d.structNames region, Grammar.Identifier name.toList)
        ∧ (∀ name ∈ d.structNames region, name ∉ FieldType.primitiveNames)
        ∧ (d.structNames region).Nodup) := by
    rw [structNames, List.forall_mem_map, List.forall_mem_map, List.append_nil]
  have scope : Scope.primitives = .ofStructs [] := rfl
  have schema : RegionSchema.empty region.name = declaring region.name [] := rfl
  rw [← legal, scope, schema]
  constructor
  · intro h
    obtain ⟨identifiers, fresh, distinct⟩ := legal_of_declareStructs finds h
    have same := (declareStructs_of_legal finds identifiers fresh distinct).symm.trans h
    constructor
    · exact ⟨identifiers, fresh, distinct⟩
    · apply (Except.ok.inj (Except.ok.inj same)).symm
  · rintro ⟨⟨identifiers, fresh, distinct⟩, rfl⟩
    apply declareStructs_of_legal finds identifiers fresh distinct

/-- A region that is resolved is legal, and its schema is what was declared. -/
theorem described_of_resolveRegion (identifier : Grammar.Identifier region.name.toList)
    {schema : RegionSchema} (h : (d.resolveRegion region).run = .ok (.ok schema)) :
  d.LegalRegion region ∧ d.Describes region schema
  := by
  have finds : Finds d.structs region.structs (d.structsOf region) :=
    finds_found (inRange.structs region member)
  obtain ⟨_, hdeclare, h⟩ := Compile.bind_eq_ok.mp h
  obtain ⟨⟨identifiers, fresh, distinct⟩, rfl⟩ :=
    (declareStructs_eq_ok inRange member).mp hdeclare
  have members : ∀ p ∈ (d.structsOf region).zipIdx, p.1 ∈ d.structs.toList :=
    fun p hp => finds.mem (List.fst_mem_of_mem_zipIdx hp)
  have places : ∀ p ∈ (d.structsOf region).zipIdx,
      (d.structNames region)[p.2]? = some p.1.name := by
    intro p hp
    rw [structNames, List.getElem?_map, List.mem_zipIdx_iff_getElem?.mp hp]
    rfl
  have positions : ((d.structsOf region).zipIdx.map Prod.snd).Nodup := by
    rw [List.zipIdx_map_snd]
    exact List.nodup_range'
  obtain ⟨legal, grows, described, -⟩ := described_of_defineStructs inRange members
    (map_name_declaring region.name (d.structNames region)) places positions h
  have names : schema.structs.map StructSchema.name = d.structNames region :=
    grows.structs.trans (map_name_declaring region.name (d.structNames region))
  refine ⟨⟨identifier, identifiers, fresh, distinct, ?_⟩, grows.name, ?_⟩
  · intro s hs
    obtain ⟨i, hi⟩ := List.mem_iff_getElem?.mp hs
    exact legal (s, i) (List.mk_mem_zipIdx_iff_getElem?.mpr hi)
  · apply List.forall₂_iff_get.mpr
    have lengths := congrArg List.length names
    rw [structNames, List.length_map, List.length_map] at lengths
    constructor
    · apply lengths.symm
    intro i hs hstruct
    obtain ⟨struct, found, describes⟩ :=
      described (_, i) (List.mk_mem_zipIdx_iff_getElem?.mpr (List.getElem?_eq_getElem hs))
    obtain ⟨_, rfl⟩ := List.getElem?_eq_some_iff.mp found
    exact describes

/-- A legal region is resolved. -/
theorem exists_resolveRegion (legal : d.LegalRegion region) :
  ∃ schema, (d.resolveRegion region).run = .ok (.ok schema)
  := by
  have finds : Finds d.structs region.structs (d.structsOf region) :=
    finds_found (inRange.structs region member)
  have declares := (declareStructs_eq_ok inRange member).mpr
    ⟨⟨legal.structs, legal.fresh, legal.distinct⟩, rfl⟩
  rw [resolveRegion, Compile.run_bind_of_eq_ok declares]
  apply exists_defineStructs inRange (fun p hp => finds.mem (List.fst_mem_of_mem_zipIdx hp))
    (map_name_declaring region.name (d.structNames region)) legal.structs
  · intro p hp
    obtain ⟨inside, -⟩ := List.getElem?_eq_some_iff.mp (List.mem_zipIdx_iff_getElem?.mp hp)
    rw [declaring, structNames, List.length_map, List.length_map]
    apply inside
  · intro p hp
    apply legal.fields p.1 (List.fst_mem_of_mem_zipIdx hp)

end

section

variable {refs : List (Ref RegionDecl)} {regions : List RegionDecl} {taken : List String}
  (finds : Finds d.regions refs regions)

include inRange finds

/-- Regions that are resolved are legal and have different names, and the schemas are what was
declared. -/
theorem described_of_resolveRegions {schemas : List RegionSchema}
    (h : (d.resolveRegions taken refs).run = .ok (.ok schemas)) :
  (∀ region ∈ regions, d.LegalRegion region) ∧ (∀ region ∈ regions, region.name ∉ taken)
    ∧ (regions.map RegionDecl.name).Nodup ∧ List.Forall₂ d.Describes regions schemas
  := by
  induction finds generalizing taken schemas with
  | nil =>
    obtain rfl := Except.ok.inj (Except.ok.inj h)
    constructor
    · exact List.forall_mem_nil _
    use List.forall_mem_nil _, List.nodup_nil, .nil
  | @cons r region refs regions first _ ih =>
    rw [resolveRegions, Compile.run_bind_of_eq_ok first] at h
    obtain ⟨_, hname, h⟩ := Compile.bind_eq_ok.mp h
    dsimp only at h
    split at h
    · cases Except.ok.inj h
    next free =>
    obtain ⟨schema, hschema, h⟩ := Compile.bind_eq_ok.mp h
    obtain ⟨others, hothers, h⟩ := Compile.bind_eq_ok.mp h
    obtain rfl := Except.ok.inj (Except.ok.inj h)
    obtain ⟨legal, describes⟩ := described_of_resolveRegion inRange (mem_of_find first)
      (checkName_eq_ok.mp hname) hschema
    obtain ⟨legals, fresh, distinct, described⟩ := ih hothers
    constructor
    · apply List.forall_mem_cons.mpr ⟨legal, legals⟩
    constructor
    · rw [List.forall_mem_cons]
      constructor
      · rwa [List.contains_iff_mem] at free
      · intro other hother taken
        apply fresh other hother (.tail _ taken)
    constructor
    · refine List.nodup_cons.mpr ⟨?_, distinct⟩
      intro same
      obtain ⟨other, hother, same⟩ := List.mem_map.mp same
      exact fresh other hother (same ▸ .head _)
    · exact .cons describes described

/-- Legal regions of different names are resolved. -/
theorem exists_resolveRegions (legal : ∀ region ∈ regions, d.LegalRegion region)
    (fresh : ∀ region ∈ regions, region.name ∉ taken)
    (distinct : (regions.map RegionDecl.name).Nodup) :
  ∃ schemas, (d.resolveRegions taken refs).run = .ok (.ok schemas)
  := by
  induction finds generalizing taken with
  | nil =>
    use []
    rfl
  | @cons r region refs regions first _ ih =>
    obtain ⟨legal, legals⟩ := List.forall_mem_cons.mp legal
    obtain ⟨free, fresh⟩ := List.forall_mem_cons.mp fresh
    obtain ⟨new, distinct⟩ := List.nodup_cons.mp distinct
    obtain ⟨schema, hschema⟩ := exists_resolveRegion inRange (mem_of_find first) legal
    have later : ∀ other ∈ regions, other.name ∉ region.name :: taken := by
      intro other hother
      rw [List.mem_cons, not_or]
      constructor
      · intro same
        exact new (same ▸ List.mem_map_of_mem hother)
      · apply fresh other hother
    obtain ⟨others, hothers⟩ := ih legals later distinct
    have free : ¬ taken.contains region.name = true := by
      rwa [List.contains_iff_mem]
    use schema :: others
    rw [resolveRegions, Compile.run_bind_of_eq_ok first,
      Compile.run_bind_of_eq_ok (checkName_eq_ok.mpr legal.name), if_neg free,
      Compile.run_bind_of_eq_ok hschema, Compile.run_bind_of_eq_ok hothers]
    rfl

end

/-! ### Descriptions -/

/-- The description of a declared struct: its name, and its fields in order with their types as they
are spelled and their numbers. -/
def describeStruct (d : Declarations) (s : StructDecl) : Json :=
  .object [
    ("name", .string s.name),
    ("fields", .array ((d.fieldsOf s).mapIdx fun id f =>
      .object [("name", .string f.name), ("type", .string f.type), ("id", .int id)]))]

/-- The description of a declared region. -/
def describe (d : Declarations) (region : RegionDecl) : Json :=
  .object [
    ("name", .string region.name),
    ("structs", .array ((d.structsOf region).map d.describeStruct))]

/-- A schema that is what was declared is described as it was declared. -/
theorem Describes.toJson {region : RegionDecl} {schema : RegionSchema} (wf : schema.WellFormed)
    (h : d.Describes region schema) :
  schema.toJson = .ok (d.describe region)
  := by
  obtain ⟨name, structs⟩ := h
  obtain ⟨layout, hlayout⟩ := wf.layout
  have entries : List.Forall₂ (fun s l => d.describeStruct s = StructLayout.toJson l)
      (d.structsOf region) layout := by
    apply forall₂_trans _ structs (Region.entries_of_layout hlayout)
    rintro s struct l ⟨same, fields⟩ ⟨same', shapes⟩
    have named : List.Forall₂ (fun (f : FieldDecl) (p : String × Shape) =>
        f.name = p.1 ∧ f.type = p.2.name) (d.fieldsOf s) l.fields := by
      apply forall₂_trans _ fields shapes
      rintro f field p ⟨same, shape, unfolds, spelled⟩ ⟨same', unfolds'⟩
      rw [← spelled, unfolds.unique unfolds']
      constructor
      · apply (same'.trans same).symm
      · rfl
    rw [describeStruct, StructLayout.toJson, same', same]
    rw [mapIdx_eq_mapIdx _ named]
    rintro i f ⟨name, shape⟩ ⟨rfl, spelled⟩
    rw [spelled]
  rw [RegionSchema.toJson, hlayout, describe, map_eq_map_of_forall₂ entries, ← name]
  rfl

/-! ### Resolving a root -/

/-- The regions that a root declares. -/
def regionsOf (d : Declarations) (root : Ref SchemaDecl) : List RegionDecl :=
  (d.schemas.get? root).elim [] fun declared => d.regions.found declared.regions

/-- Whether the regions that a root declares are legal, and their names differ. -/
structure Legal (d : Declarations) (root : Ref SchemaDecl) : Prop where
  regions : ∀ region ∈ d.regionsOf root, d.LegalRegion region
  distinct : ((d.regionsOf root).map RegionDecl.name).Nodup

section

variable {root : Ref SchemaDecl} (inside : root.index < d.schemas.size)

include inRange inside

theorem resolve_run :
  ∃ refs, Finds d.regions refs (d.regionsOf root)
    ∧ (d.resolve root).run = (d.resolveRegions [] refs).run
  := by
  obtain ⟨declared, hdeclared⟩ := Pool.get?_eq_some_iff_lt.mpr inside
  have first : (find d.schemas root).run = .ok (.ok declared) := by
    rw [find, hdeclared]
    rfl
  use declared.regions
  constructor
  · rw [regionsOf, hdeclared]
    apply finds_found (inRange.regions declared (mem_of_find first))
  · apply Compile.run_bind_of_eq_ok first

/-- What is resolved is legal, and the schemas are what was declared. -/
theorem described_of_resolve {schemas : List RegionSchema}
    (h : (d.resolve root).run = .ok (.ok schemas)) :
  d.Legal root ∧ List.Forall₂ d.Describes (d.regionsOf root) schemas
  := by
  obtain ⟨refs, finds, goes⟩ := resolve_run inRange inside
  obtain ⟨legal, -, distinct, described⟩ := described_of_resolveRegions inRange finds (goes ▸ h)
  constructor
  · exact ⟨legal, distinct⟩
  · apply described

/-- What is legal is resolved. -/
theorem exists_resolve (legal : d.Legal root) :
  ∃ schemas, (d.resolve root).run = .ok (.ok schemas)
  := by
  obtain ⟨refs, finds, goes⟩ := resolve_run inRange inside
  rw [goes]
  exact exists_resolveRegions inRange finds legal.regions (fun _ _ => List.not_mem_nil)
    legal.distinct

/-- Structs of resolved schemas have identifiers for names. -/
theorem identifier_of_resolve {schemas : List RegionSchema}
    (h : (d.resolve root).run = .ok (.ok schemas)) {schema : RegionSchema}
    (hschema : schema ∈ schemas) {s : StructSchema} (hs : s ∈ schema.structs) :
  Grammar.Identifier s.name.toList
  := by
  obtain ⟨legal, described⟩ := described_of_resolve inRange inside h
  obtain ⟨i, hi⟩ := List.mem_iff_getElem?.mp hschema
  obtain ⟨region, hregion, describes⟩ := exists_of_forall₂ described.flip hi
  apply (legal.regions region (List.mem_of_getElem? hregion)).structs
  rw [← describes.names]
  apply List.mem_map_of_mem hs

/-- Declarations are resolved, without a fault, exactly when they are legal, and the schemas are
then described region by region as they were declared. -/
theorem resolve_iff_legal :
  ∃ result, (d.resolve root).run = .ok result
    ∧ ((∃ schemas, result = .ok schemas) ↔ d.Legal root)
    ∧ ∀ schemas, result = .ok schemas →
      schemas.mapM RegionSchema.toJson = .ok ((d.regionsOf root).map d.describe)
  := by
  obtain ⟨result, hresult⟩ := faultless_resolve inRange inside
  use result, hresult
  constructor
  · constructor
    · rintro ⟨schemas, rfl⟩
      apply (described_of_resolve inRange inside hresult).1
    · intro legal
      obtain ⟨schemas, hschemas⟩ := exists_resolve inRange inside legal
      use schemas
      apply Except.ok.inj (hresult.symm.trans hschemas)
  · rintro schemas rfl
    have wf := wellFormed_of_resolve hresult
    obtain ⟨-, described⟩ := described_of_resolve inRange inside hresult
    have all : List.Forall₂ (fun schema region => schema.WellFormed ∧ d.Describes region schema)
        schemas (d.regionsOf root) := (List.forall₂_and_left _ _).mpr ⟨wf, described.flip⟩
    apply Except.mapM_eq_ok.mpr
    rw [List.forall₂_map_right_iff]
    apply all.imp
    rintro schema region ⟨wf, describes⟩
    apply describes.toJson wf

end

/-- Two regions that share a struct, which stands behind another one that refers to it or alone. -/
def gardens : Declarations where
  fields := .ofList [⟨"next", "Node"⟩, ⟨"rows", "[][]Node"⟩, ⟨"stems", "[]Node"⟩]
  structs := .ofList [⟨"Node", [⟨0⟩, ⟨1⟩]⟩, ⟨"Leaf", [⟨2⟩]⟩]
  regions := .ofList [⟨"Trees", [⟨1⟩, ⟨0⟩]⟩, ⟨"Rings", [⟨0⟩]⟩]
  schemas := .ofList [⟨[⟨0⟩, ⟨1⟩]⟩]

/-- The schema of the first of these regions. -/
def trees : RegionSchema :=
  ⟨"Trees", [⟨"Leaf", [⟨"stems", .list 0⟩]⟩, ⟨"Node", [⟨"next", .struct 1⟩, ⟨"rows", .list 1⟩]⟩],
    [.struct 1, .list 0]⟩

/-- The schema of the second one. -/
def rings : RegionSchema :=
  ⟨"Rings", [⟨"Node", [⟨"next", .struct 0⟩, ⟨"rows", .list 1⟩]⟩], [.struct 0, .list 0]⟩

theorem resolve_gardens :
  (gardens.resolve ⟨0⟩).run = .ok (.ok [trees, rings])
  := by
  have compiled : compiled? (gardens.resolve ⟨0⟩).run = some [trees, rings] := by
    decide +kernel
  apply eq_of_compiled? compiled

/-- The shared struct is described alike in both regions. -/
theorem resolve_iff_legal_gardens :
  gardens.InRange ∧ 0 < gardens.schemas.size ∧ gardens.Legal ⟨0⟩
    ∧ [trees, rings].mapM RegionSchema.toJson = .ok ((gardens.regionsOf ⟨0⟩).map gardens.describe)
  := by
  have inRange : gardens.InRange := ⟨by decide, by decide, by decide⟩
  have inside : (Ref.mk 0 : Ref SchemaDecl).index < gardens.schemas.size := by decide
  obtain ⟨result, hresult, legal, described⟩ := resolve_iff_legal inRange inside
  obtain rfl := Except.ok.inj (resolve_gardens.symm.trans hresult)
  constructor
  · apply inRange
  constructor
  · apply inside
  constructor
  · apply legal.mp ⟨_, rfl⟩
  · apply described _ rfl

end PoolGraph.Declarations
