import PoolGraph.Proofs.Declaration.Filling
import PoolGraph.Proofs.Declaration.Region
import PoolGraph.Proofs.Region.Regular

/-!
# Declarations and their region through bytes

A schema without floating-point fields has one spelling for each region, the bytes that the region
is written as (`poolsSpell_iff`).  The schema of declarations is such a schema, and the regions that
have a spelling in it are those of declarations (`Declarations.poolsSpell_declarationLayout`).
So it makes no difference whether declarations are written and read by themselves or as a region
(`Declarations.codecs_agree`).
-/

namespace PoolGraph

/-! ### Slots without floating-point numbers -/

namespace Shape

/-- Whether there are no floating-point numbers in slots of this shape. -/
def isExact : Shape → Bool
  | .float _ => false
  | .list item => item.isExact
  | _ => true

/-- Without floating-point numbers nothing is rounded and nothing is spelled in two ways. -/
theorem rounded_and_canonical_of_isExact {shape : Shape} (exact : shape.isExact = true)
    (v : Value) :
  shape.Rounded v ∧ shape.Canonical v
  := by
  induction shape generalizing v with
  | float width => cases exact
  | list item ih =>
    cases v with
    | list items =>
      constructor
      · intro v _
        apply (ih exact v).1
      · intro v _
        apply (ih exact v).2
    | _ => exact ⟨trivial, trivial⟩
  | _ => exact ⟨trivial, trivial⟩

end Shape

/-- Whether the structs have no floating-point fields. -/
def LayoutExact (layout : List StructLayout) : Prop :=
  ∀ s ∈ layout, ∀ field ∈ s.fields, field.2.isExact = true

section

variable {layout : List StructLayout} {pools : List (Pool Object)} {b : List UInt8}

theorem LayoutExact.field (exact : LayoutExact layout) {p : StructLayout × Pool Object}
    (hp : p ∈ layout.zip pools) {object : Object} {q : (String × Shape) × Value}
    (hq : q ∈ p.1.fields.zip object) :
  q.1.2.isExact = true
  := exact p.1 (List.of_mem_zip hp).1 q.1 (List.of_mem_zip hq).1

/-- Without floating-point fields the spellings are what the encoder writes. -/
theorem poolsSpell_iff (exact : LayoutExact layout) :
  PoolsSpell layout pools b
    ↔ PoolsRegular (layout.map fun s => s.fields.length) pools ∧ encodePools layout pools = .ok b
  := by
  constructor
  · intro h
    constructor
    · apply regular_of_poolsSpell h
    apply encodePools_of_poolsSpell h
    intro p hp object _ q hq
    apply (Shape.rounded_and_canonical_of_isExact (exact.field hp hq) _).2
  · rintro ⟨regular, encoded⟩
    have spelled := poolsSpell_of_encodePools regular encoded
    rw [(roundPools_eq_self_iff regular).mpr] at spelled
    · apply spelled
    · intro p hp object _ q hq
      apply (Shape.rounded_and_canonical_of_isExact (exact.field hp hq) _).1

end

/-! ### Objects that are declarations -/

theorem exists_map_of_forall₂ {f : α → β} {R : β → γ → Prop} (h : ∀ y z, R y z → ∃ x, f x = y)
    {ys : List β} {zs : List γ} (hall : List.Forall₂ R ys zs) :
  ∃ xs : List α, xs.map f = ys
  := by
  induction hall with
  | nil =>
    use []
    rfl
  | cons hy _ ih =>
    obtain ⟨x, rfl⟩ := h _ _ hy
    obtain ⟨xs, rfl⟩ := ih
    use x :: xs
    rfl

section

variable {size : Nat → Nat} {b : List UInt8}

theorem Value.exists_refs [Declared α] {name : String} {v : Value}
    (h : (Shape.list (.reference (Declared.struct α) name)).Spells size v b) :
  ∃ refs : List (Ref α), .refs refs = v
  := by
  obtain ⟨items, _, parts, rfl, -, hall, -⟩ := h
  have item : ∀ v part, (Shape.reference (Declared.struct α) name).Spells size v part →
      ∃ r : Ref α, Value.ref ⟨Declared.struct α, r.index⟩ = v := by
    rintro _ part ⟨i, rfl, -⟩
    use ⟨i⟩
  obtain ⟨refs, rfl⟩ := exists_map_of_forall₂ item hall
  use refs
  rfl

theorem StructLayout.Spells.pair {kind field field' : String} {x y : Shape} {object : Object}
    (h : StructLayout.Spells size ⟨kind, [(field, x), (field', y)]⟩ object b) :
  ∃ v w c d, object = [v, w] ∧ x.Spells size v c ∧ y.Spells size w d
  := by
  obtain ⟨width, parts, hall, -⟩ := h
  obtain ⟨v, w, rfl⟩ := List.length_eq_two.mp width
  obtain _ | ⟨hv, _ | ⟨hw, -⟩⟩ := hall
  exact ⟨v, w, _, _, rfl, hv, hw⟩

theorem FieldDecl.exists_toObject {object : Object}
    (h : FieldDecl.layout.Spells size object b) :
  ∃ f : FieldDecl, f.toObject = object
  := by
  obtain ⟨_, _, _, _, rfl, ⟨name, rfl, -⟩, ⟨type, rfl, -⟩⟩ := h.pair
  use ⟨name, type⟩
  rfl

theorem exists_named [Declared α] {kind field : String} {object : Object}
    (h : (namedLayout α kind field).Spells size object b) :
  ∃ (name : String) (refs : List (Ref α)), [.string name, .refs refs] = object
  := by
  obtain ⟨_, _, _, _, rfl, ⟨name, rfl, -⟩, hrefs⟩ := StructLayout.Spells.pair h
  obtain ⟨refs, rfl⟩ := Value.exists_refs hrefs
  use name, refs

theorem StructDecl.exists_toObject {object : Object}
    (h : StructDecl.layout.Spells size object b) :
  ∃ s : StructDecl, s.toObject = object
  := by
  obtain ⟨name, fields, rfl⟩ := exists_named h
  use ⟨name, fields⟩
  rfl

theorem RegionDecl.exists_toObject {object : Object}
    (h : RegionDecl.layout.Spells size object b) :
  ∃ r : RegionDecl, r.toObject = object
  := by
  obtain ⟨name, structs, rfl⟩ := exists_named h
  use ⟨name, structs⟩
  rfl

theorem SchemaDecl.exists_toObject {object : Object}
    (h : SchemaDecl.layout.Spells size object b) :
  ∃ s : SchemaDecl, s.toObject = object
  := by
  obtain ⟨width, parts, hall, -⟩ := h
  obtain ⟨v, rfl⟩ := List.length_eq_one_iff.mp width
  obtain _ | ⟨hv, -⟩ := hall
  obtain ⟨regions, rfl⟩ := Value.exists_refs (α := RegionDecl) hv
  use ⟨regions⟩
  rfl

/-- A pool that is spelled is a pool of declarations when every object that is spelled is one. -/
theorem StructLayout.SpellsPool.exists_map {s : StructLayout} {toObject : α → Object}
    (object : ∀ {o part}, s.Spells size o part → ∃ x, toObject x = o) {pool : Pool Object}
    (h : s.SpellsPool size pool b) :
  ∃ declared : Pool α, declared.map toObject = pool
  := by
  obtain ⟨parts, hall, -⟩ := h
  obtain ⟨xs, hxs⟩ := exists_map_of_forall₂ (fun _ _ => object) hall
  use Pool.ofList xs
  rw [← Pool.toList_inj, Pool.toList_map, Pool.toList_ofList, hxs]

end

/-! ### Both codecs -/

namespace Declarations

theorem layoutExact_declarationLayout :
  LayoutExact declarationLayout
  := by
  unfold LayoutExact
  decide

/-- The pools that have a spelling in the schema of declarations are those of declarations. -/
theorem poolsSpell_declarationLayout {pools : List (Pool Object)} {b : List UInt8} :
  PoolsSpell declarationLayout pools b
    ↔ ∃ d : Declarations, pools = d.toRegion.pools ∧ d.serialize = .ok b
  := by
  constructor
  · intro h
    have encoded := ((poolsSpell_iff layoutExact_declarationLayout).mp h).2
    obtain ⟨same, _, bodies, -, hall, -⟩ := h
    obtain ⟨fields, structs, regions, schemas, rfl⟩ : ∃ p q r s, pools = [p, q, r, s] :=
      List.length_eq_four.mp same
    obtain _ | ⟨hfields, _ | ⟨hstructs, _ | ⟨hregions, _ | ⟨hschemas, -⟩⟩⟩⟩ := hall
    obtain ⟨fields, rfl⟩ := hfields.exists_map FieldDecl.exists_toObject
    obtain ⟨structs, rfl⟩ := hstructs.exists_map StructDecl.exists_toObject
    obtain ⟨regions, rfl⟩ := hregions.exists_map RegionDecl.exists_toObject
    obtain ⟨schemas, rfl⟩ := hschemas.exists_map SchemaDecl.exists_toObject
    use ⟨fields, structs, regions, schemas⟩, rfl
    rw [← encodePools_toRegion]
    apply encoded
  · rintro ⟨d, rfl, h⟩
    apply (poolsSpell_iff layoutExact_declarationLayout).mpr
    constructor
    · apply d.regular_toRegion
    · rw [encodePools_toRegion, h]

/-- Empty declarations are filled from exactly the bytes that begin with those of the
declarations. -/
theorem deserialize_eq_ok {d : Declarations} {bytes : List UInt8} :
  empty.deserialize bytes = (.ok (), d) ↔ ∃ b rest, d.serialize = .ok b ∧ bytes = b ++ rest
  := by
  have fresh : ¬ (!empty.isEmpty) = true := by decide
  rw [deserialize, if_neg fresh]
  constructor
  · intro h
    split at h
    · next s hrun =>
      obtain ⟨-, rfl⟩ := Prod.mk.inj h
      obtain ⟨b, hb, rfl⟩ := (fills_fill _ _ _ s.input s.filled).mp hrun
      use b, s.input, hb
    · cases h
  · rintro ⟨b, rest, hb, rfl⟩
    rw [(fills_fill _ _ () rest d).mpr ⟨b, hb, rfl⟩]

/-- An empty region of the schema of declarations is filled from the same bytes, with the region
that has the same objects. -/
theorem deserialize_toRegion {r : Region} {bytes : List UInt8} :
  (Region.empty declarationSchema).deserialize bytes = .ok (.ok r)
    ↔ ∃ d : Declarations, empty.deserialize bytes = (.ok (), d) ∧ r = d.toRegion
  := by
  rw [Region.deserialize_eq_ok]
  constructor
  · rintro ⟨-, layout, rest, hlayout, hrun, schema⟩
    obtain rfl := Except.ok.inj (layout_declarationSchema.symm.trans hlayout)
    obtain ⟨b, spelled, rfl⟩ := (accepts_decodePools _ _ _ _).mp hrun
    obtain ⟨d, pools, hd⟩ := poolsSpell_declarationLayout.mp spelled
    use d
    constructor
    · apply deserialize_eq_ok.mpr ⟨b, rest, hd, rfl⟩
    obtain ⟨_, _⟩ := r
    rw [toRegion, Region.mk.injEq]
    exact ⟨schema, pools⟩
  · rintro ⟨d, hd, rfl⟩
    obtain ⟨b, rest, hb, rfl⟩ := deserialize_eq_ok.mp hd
    constructor
    · rfl
    use declarationLayout, rest, layout_declarationSchema
    constructor
    · apply (accepts_decodePools _ _ _ _).mpr
      use b
      constructor
      · apply poolsSpell_declarationLayout.mpr ⟨d, rfl, hb⟩
      · rfl
    · rfl

/-- Declarations are written as the region with the same objects is, with the same error where
they cannot be written.  Where bytes fill an empty region with objects they fill empty declarations
with the same objects, and the other way round. -/
theorem codecs_agree :
  (∀ d : Declarations, d.toRegion.serialize = .ok d.serialize)
    ∧ ∀ bytes, ∃ result, (Region.empty declarationSchema).deserialize bytes = .ok result
      ∧ ∀ r, result = .ok r ↔ ∃ d : Declarations,
          empty.deserialize bytes = (.ok (), d) ∧ r = d.toRegion
  := by
  constructor
  · apply serialize_toRegion
  intro bytes
  obtain ⟨result, hresult⟩ := Region.exists_deserialize
    (r := Region.empty declarationSchema) layout_declarationSchema bytes
  use result, hresult
  intro r
  rw [← deserialize_toRegion, hresult, Except.ok.injEq]

end Declarations

end PoolGraph
