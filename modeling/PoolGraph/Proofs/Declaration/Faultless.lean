import PoolGraph.Proofs.Declaration.Region
import PoolGraph.Proofs.Declaration.Resolve
import PoolGraph.Proofs.Region.References

/-!
# Resolving without faults

Resolving looks declarations up by the references to them, and structs by the positions at which
they were declared.  Where all references of declarations lead to declarations
(`Declarations.InRange`), each of these is found, whatever else is wrong with the declarations
(`Declarations.faultless_resolve`).
-/

namespace PoolGraph.Declarations

/-- Whether all references between declarations lead to declarations. -/
structure InRange (d : Declarations) : Prop where
  fields : ∀ s ∈ d.structs.toList, ∀ r ∈ s.fields, r.index < d.fields.size
  structs : ∀ region ∈ d.regions.toList, ∀ r ∈ region.structs, r.index < d.structs.size
  regions : ∀ s ∈ d.schemas.toList, ∀ r ∈ s.regions, r.index < d.regions.size

/-- References of closed declarations lead to declarations. -/
theorem lt_size_of_refs [Declared α] [Declared β] {d : Declarations} (closed : d.toRegion.Closed)
    {pool : Pool β} {toObject : β → Object}
    (hpool : d.toRegion.pools[Declared.struct β]? = some (pool.map toObject)) {x : β}
    (hx : x ∈ pool.toList) {refs : List (Ref α)} (hrefs : .refs refs ∈ toObject x) {r : Ref α}
    (hr : r ∈ refs) :
  r.index < d.toRegion.size (Declared.struct α)
  := by
  obtain ⟨i, hi⟩ := List.mem_iff_getElem?.mp hx
  have found : d.toRegion.object ⟨Declared.struct β, i⟩ = .ok (toObject x) := by
    refine Region.object_eq_ok.mpr ⟨_, hpool, ?_⟩
    rw [Pool.toList, Array.getElem?_toList] at hi
    rw [Pool.get?, Pool.map, Array.getElem?_map, hi]
    rfl
  apply closed ⟨Declared.struct β, i⟩ ⟨Declared.struct α, r.index⟩
  refine ⟨_, found, _, hrefs, .inside (List.mem_map_of_mem hr) (.here _)⟩

/-- When references of the region with the same objects lead to objects, those of declarations
do. -/
theorem inRange_of_closed {d : Declarations} (closed : d.toRegion.Closed) :
  d.InRange
  where
  fields s hs r hr := by
    rw [← d.size_toRegion.1]
    exact lt_size_of_refs closed rfl hs (.tail _ (.head _)) hr
  structs region hregion r hr := by
    rw [← d.size_toRegion.2.1]
    exact lt_size_of_refs closed rfl hregion (.tail _ (.head _)) hr
  regions s hs r hr := by
    rw [← d.size_toRegion.2.2.1]
    exact lt_size_of_refs closed rfl hs (.head _) hr

/-! ### Looking up -/

/-- Following a reference below the size of the pool is no fault. -/
theorem faultless_find [Declared α] {pool : Pool α} {r : Ref α} (h : r.index < pool.size) :
  (find pool r).Faultless
  := by
  rw [find, Pool.get?, Array.getElem?_eq_getElem h]
  apply Compile.Faultless.pure

/-- A reference leads to a declaration of its pool. -/
theorem mem_of_find [Declared α] {pool : Pool α} {r : Ref α} {x : α}
    (h : (find pool r).run = .ok (.ok x)) :
  x ∈ pool.toList
  := by
  unfold find at h
  split at h
  · next found =>
    obtain rfl := Except.ok.inj (Except.ok.inj h)
    rw [Pool.get?, ← Array.getElem?_toList] at found
    apply List.mem_of_getElem? found
  · cases h

theorem faultless_checkName (name : String) :
  (checkName name).Faultless
  := by
  rw [checkName]
  split
  · apply Compile.Faultless.pure
  · apply Compile.Faultless.throw

/-! ### Resolving -/

variable {d : Declarations} {scope scope' : Scope} {schema schema' : RegionSchema}

/-- Declaring structs finds their declarations, and puts them at positions of the schema. -/
theorem faultless_declareStructs {refs : List (Ref StructDecl)}
    (h : ∀ r ∈ refs, r.index < d.structs.size) :
  (d.declareStructs scope schema refs).Faultless
  := by
  induction refs generalizing scope schema with
  | nil => apply Compile.Faultless.pure
  | cons r refs ih =>
    obtain ⟨first, others⟩ := List.forall_mem_cons.mp h
    apply (faultless_find first).bind
    intro s _
    apply (faultless_checkName s.name).bind
    intro _ _
    apply (Compile.Faultless.ofExcept _).bind
    intro ⟨id, scope, schema⟩ _
    apply (ih others).bind
    intro _ _
    apply Compile.Faultless.pure

/-- A struct that is registered is the last one. -/
theorem length_structs_of_registerStruct {name : String} {id : Nat}
    (h : scope.registerStruct schema name = .ok (id, scope', schema')) :
  id = schema.structs.length ∧ schema'.structs.length = schema.structs.length + 1
  := by
  unfold Scope.registerStruct at h
  split at h
  · cases h
  obtain ⟨⟨id', schema₁⟩, hdeclare, h⟩ := Except.bind_eq_ok.mp h
  obtain ⟨rfl, after⟩ := Prod.mk.inj (Except.ok.inj h)
  obtain ⟨-, rfl⟩ := Prod.mk.inj after
  unfold RegionSchema.declareStruct at hdeclare
  split at hdeclare
  · cases hdeclare
  obtain ⟨rfl, rfl⟩ := Prod.mk.inj (Except.ok.inj hdeclare)
  exact ⟨rfl, List.length_append⟩

/-- The structs that were declared have places in the schema. -/
theorem declared_of_declareStructs {refs : List (Ref StructDecl)}
    {declared : List (StructDecl × Nat)}
    (h : (d.declareStructs scope schema refs).run = .ok (.ok (declared, scope', schema'))) :
  schema.structs.length ≤ schema'.structs.length
    ∧ ∀ p ∈ declared, p.1 ∈ d.structs.toList ∧ p.2 < schema'.structs.length
  := by
  induction refs generalizing scope schema declared with
  | nil =>
    obtain ⟨rfl, after⟩ := Prod.mk.inj (Except.ok.inj (Except.ok.inj h))
    obtain ⟨-, rfl⟩ := Prod.mk.inj after
    constructor
    · apply Nat.le_refl _
    · exact List.forall_mem_nil _
  | cons r refs ih =>
    obtain ⟨s, hs, h⟩ := Compile.bind_eq_ok.mp h
    obtain ⟨-, -, h⟩ := Compile.bind_eq_ok.mp h
    obtain ⟨⟨id, scope₁, schema₁⟩, hregister, h⟩ := Compile.bind_eq_ok.mp h
    obtain ⟨⟨others, scope₂, schema₂⟩, hrest, h⟩ := Compile.bind_eq_ok.mp h
    obtain ⟨rfl, after⟩ := Prod.mk.inj (Except.ok.inj (Except.ok.inj h))
    obtain ⟨rfl, rfl⟩ := Prod.mk.inj after
    obtain ⟨rfl, more⟩ := length_structs_of_registerStruct (Compile.ofSchema_eq_ok.mp hregister)
    obtain ⟨most, all⟩ := ih hrest
    constructor
    · omega
    refine List.forall_mem_cons.mpr ⟨⟨mem_of_find hs, ?_⟩, all⟩
    show schema.structs.length < schema₂.structs.length
    omega

/-- Fields are resolved without a fault. -/
theorem faultless_resolveFields {struct : String} {refs : List (Ref FieldDecl)}
    (h : ∀ r ∈ refs, r.index < d.fields.size) :
  (d.resolveFields scope struct schema refs).Faultless
  := by
  induction refs generalizing schema with
  | nil => apply Compile.Faultless.pure
  | cons r refs ih =>
    obtain ⟨first, others⟩ := List.forall_mem_cons.mp h
    apply (faultless_find first).bind
    intro f _
    apply (faultless_checkName f.name).bind
    intro _ _
    dsimp only
    split
    · exact ⟨_, rfl⟩
    split
    · exact ⟨_, rfl⟩
    apply (ih others).bind
    intro _ _
    apply Compile.Faultless.pure

/-- Structs are defined without a fault. -/
theorem faultless_defineStructs (inRange : d.InRange) (names : scope.Names schema)
    (wf : schema.WellFormed) {declared : List (StructDecl × Nat)}
    (h : ∀ p ∈ declared, p.1 ∈ d.structs.toList ∧ p.2 < schema.structs.length) :
  (d.defineStructs scope schema declared).Faultless
  := by
  induction declared generalizing schema with
  | nil => apply Compile.Faultless.pure
  | cons p declared ih =>
    obtain ⟨s, id⟩ := p
    obtain ⟨⟨hs, hid⟩, others⟩ := List.forall_mem_cons.mp h
    apply (faultless_resolveFields (inRange.fields s hs)).bind
    intro ⟨fields, schema₁⟩ hfields
    obtain ⟨wf₁, longer₁, knows⟩ := knows_of_resolveFields names wf hfields
    have defines : ∃ result, schema₁.defineFields id fields = .ok result := by
      have inside : id < schema₁.structs.length := longer₁.structs ▸ hid
      have found := RegionSchema.struct_eq_ok.mpr (List.getElem?_eq_getElem inside)
      exact ⟨_, Except.bind_eq_ok.mpr ⟨_, found, rfl⟩⟩
    apply (Compile.Faultless.lift defines).bind
    intro ⟨schema₂, defined⟩ hdefine
    obtain ⟨wf₂, longer₂⟩ := wf₁.defineFields knows (Compile.lift_eq_ok.mp hdefine)
    have longer := longer₁.trans longer₂
    apply (Compile.Faultless.ofExcept _).bind
    intro _ _
    apply ih (names.extends longer) wf₂
    rw [longer.structs]
    apply others

/-- A region is resolved without a fault. -/
theorem faultless_resolveRegion (inRange : d.InRange) {region : RegionDecl}
    (h : region ∈ d.regions.toList) :
  (d.resolveRegion region).Faultless
  := by
  apply (faultless_declareStructs (inRange.structs region h)).bind
  intro ⟨declared, scope, schema⟩ hdeclare
  obtain ⟨wf, names⟩ := wellFormed_of_declareStructs
    (Scope.names_primitives (RegionSchema.empty region.name))
    (RegionSchema.wellFormed_empty region.name) hdeclare
  apply faultless_defineStructs inRange names wf (declared_of_declareStructs hdeclare).2

/-- Regions are resolved without a fault. -/
theorem faultless_resolveRegions (inRange : d.InRange) {taken : List String}
    {refs : List (Ref RegionDecl)} (h : ∀ r ∈ refs, r.index < d.regions.size) :
  (d.resolveRegions taken refs).Faultless
  := by
  induction refs generalizing taken with
  | nil => apply Compile.Faultless.pure
  | cons r refs ih =>
    obtain ⟨first, others⟩ := List.forall_mem_cons.mp h
    apply (faultless_find first).bind
    intro region hregion
    apply (faultless_checkName region.name).bind
    intro _ _
    dsimp only
    split
    · exact ⟨_, rfl⟩
    apply (faultless_resolveRegion inRange (mem_of_find hregion)).bind
    intro _ _
    apply (ih others).bind
    intro _ _
    apply Compile.Faultless.pure

/-- Resolving a root meets no fault where all references lead to declarations. -/
theorem faultless_resolve (inRange : d.InRange) {root : Ref SchemaDecl}
    (h : root.index < d.schemas.size) :
  (d.resolve root).Faultless
  := by
  apply (faultless_find h).bind
  intro declared hdeclared
  apply faultless_resolveRegions inRange (inRange.regions declared (mem_of_find hdeclared))

end PoolGraph.Declarations
