import PoolGraph.Proofs.Binding.Files
import PoolGraph.Proofs.Declaration.Region

/-!
# Binding declarations

`Declarations` take what the binder stores as the region of `declarationSchema` with the same
objects does (`Declarations.models`), although one looks at kinds of values and the other one at
types of fields.  So files bound one after another lead to the same results and to the same objects
in both (`Declarations.parseFiles_toRegion`).
-/

namespace PoolGraph

/-- The built-in schema is well formed. -/
theorem wellFormed_declarationSchema :
  declarationSchema.WellFormed
  where
  items := by
    intro id item h
    rcases id with _ | _ | _ | id
    case succ.succ.succ => cases h
    all_goals
      obtain rfl := Option.some.inj h
      show _ < 4
      decide
  fields := by
    unfold RegionSchema.Knows
    decide

/-- No name of the built-in schema is used twice. -/
theorem distinct_declarationSchema :
  declarationSchema.Distinct
  where
  structs := by decide
  fields := by decide

namespace Pool

/-- A new declaration is seen as a new object. -/
theorem map_push (toObject : α → Object) (pool : Pool α) (x : α) :
  (pool.push x).2.map toObject = ((pool.map toObject).push (toObject x)).2
  := by
  rw [push, map, push, map, Array.map_push]

/-- A declaration is seen as the object in its place. -/
theorem get?_map (toObject : α → Object) (pool : Pool α) (r : Ref Object) :
  (pool.map toObject).get? r = (pool.get? ⟨r.index⟩).map toObject
  := Array.getElem?_map ..

/-- Where a declaration is changed, its object is replaced. -/
theorem map_modify {toObject : α → Object} {pool : Pool α} {r : Ref α} {x : α} {f : α → α}
    (hx : pool.get? r = some x) :
  (pool.modify r f).map toObject = (pool.map toObject).modify ⟨r.index⟩ fun _ => toObject (f x)
  := by
  rw [modify, map, modify, map, Pool.mk.injEq]
  apply Array.ext_getElem?
  intro i
  simp only [Array.getElem?_map, Array.getElem?_modify]
  split
  · next here =>
    rw [get?, here] at hx
    rw [hx]
    rfl
  · rfl

end Pool

namespace Declarations

variable {d : Declarations} {target : Instance} {object : Object}

/-- Changing a declaration that is there changes its pool in one place. -/
theorem change_eq {pool : Pool α} {x : α} (hx : pool.get? ⟨target.index⟩ = some x) (f : α → α) :
  change pool target f = .ok (pool.modify ⟨target.index⟩ f)
  := if_pos (Pool.get?_eq_some_iff_lt.mp ⟨x, hx⟩)

/-- Every object of the view is a declaration seen as one. -/
theorem exists_of_object {toObject : α → Object} (pool : Pool α)
    (hpool : d.toRegion.pools[target.struct]? = some (pool.map toObject))
    (h : d.toRegion.object target = .ok object) :
  ∃ x, pool.get? ⟨target.index⟩ = some x ∧ toObject x = object
  := by
  obtain ⟨found, hfound, hobject⟩ := Region.object_eq_ok.mp h
  obtain rfl := Option.some.inj (hpool.symm.trans hfound)
  rw [Pool.get?_map] at hobject
  apply Option.map_eq_some_iff.mp hobject

/-- Items that refer to the struct of a kind are a list of references to it. -/
theorem exists_refs [Declared α] {r : Region} {items : List Value}
    (typed : ∀ v ∈ items, r.HasType v (.struct (Declared.struct α)))
    (set : ∀ v ∈ items, v.IsSet) :
  ∃ refs : List (Ref α), items.mapM (Ref.ofValue α) = .ok refs ∧ Value.list items = .refs refs
  := by
  induction items with
  | nil =>
    use [], rfl
    rfl
  | cons v items ih =>
    obtain ⟨typedFirst, typedRest⟩ := List.forall_mem_cons.mp typed
    obtain ⟨setFirst, setRest⟩ := List.forall_mem_cons.mp set
    obtain ⟨refs, hrefs, same⟩ := ih typedRest setRest
    cases setFirst with
    | ref target =>
      obtain ⟨struct, index⟩ := target
      obtain ⟨rfl, -⟩ := Region.hasType_ref_iff.mp typedFirst
      have first : Ref.ofValue α (.ref ⟨Declared.struct α, index⟩) = .ok ⟨index⟩ := if_pos rfl
      use ⟨index⟩ :: refs
      constructor
      · rw [List.mapM_cons, first, hrefs]
        rfl
      · rw [Value.list.inj same]
        rfl
    | _ => cases typedFirst

/-- A list of references to one kind of declaration is read as such. -/
theorem exists_refs_of_list (α : Type) [Declared α] {r : Region} {value : Value} {id : Nat}
    (typed : r.HasType value (.list id)) (set : value.IsSet)
    (hitem : r.schema.lists[id]? = some (.struct (Declared.struct α))) :
  ∃ items refs, value = .list items ∧ items.mapM (Ref.ofValue α) = .ok refs
    ∧ value = .refs (refs : List (Ref α))
  := by
  cases typed with
  | list hitem' all =>
    obtain rfl := Option.some.inj (hitem.symm.trans hitem')
    cases set with
    | list set =>
      obtain ⟨refs, hrefs, same⟩ := exists_refs all set
      exact ⟨_, refs, rfl, hrefs, same⟩

/-- Allocating a declaration adds the zero object of its struct. -/
theorem toRegion_allocate {id : Nat} {struct : StructSchema}
    (hs : declarationSchema.structs[id]? = some struct) (d : Declarations) :
  (d.allocate struct.name).1 = some ⟨id, d.toRegion.size id⟩
    ∧ (d.allocate struct.name).2.toRegion = d.toRegion.extend [⟨id, struct.zero⟩]
  := by
  rcases id with _ | _ | _ | _ | id
  case zero =>
    obtain rfl := Option.some.inj hs
    constructor
    · rw [d.size_toRegion.1]
      rfl
    · show Region.mk _ [(d.fields.push default).2.map _, _, _, _] = _
      rw [Pool.map_push]
      rfl
  case succ.zero =>
    obtain rfl := Option.some.inj hs
    constructor
    · rw [d.size_toRegion.2.1]
      rfl
    · show Region.mk _ [_, (d.structs.push default).2.map _, _, _] = _
      rw [Pool.map_push]
      rfl
  case succ.succ.zero =>
    obtain rfl := Option.some.inj hs
    constructor
    · rw [d.size_toRegion.2.2.1]
      rfl
    · show Region.mk _ [_, _, (d.regions.push default).2.map _, _] = _
      rw [Pool.map_push]
      rfl
  case succ.succ.succ.zero =>
    obtain rfl := Option.some.inj hs
    constructor
    · rw [d.size_toRegion.2.2.2]
      rfl
    · show Region.mk _ [_, _, _, (d.schemas.push default).2.map _] = _
      rw [Pool.map_push]
      rfl
  case succ.succ.succ.succ => cases hs

section

variable {index : Nat}

/-- Changing a field declaration is storing the object it is seen as. -/
theorem toRegion_change_field {f : FieldDecl} (hf : d.fields.get? ⟨index⟩ = some f)
    (g : FieldDecl → FieldDecl) :
  ∃ d', (do return { d with fields := ← change d.fields ⟨0, index⟩ g }) = Except.ok (ε := Fault) d'
    ∧ d'.toRegion = d.toRegion.setObject ⟨0, index⟩ (g f).toObject
  := by
  refine ⟨_, Except.bind_eq_ok.mpr ⟨_, change_eq hf g, rfl⟩, ?_⟩
  show Region.mk _ [(d.fields.modify _ g).map _, _, _, _] = _
  rw [Pool.map_modify hf]
  rfl

/-- Changing a struct declaration is storing the object it is seen as. -/
theorem toRegion_change_struct {s : StructDecl} (hs : d.structs.get? ⟨index⟩ = some s)
    (g : StructDecl → StructDecl) :
  ∃ d', (do return { d with structs := ← change d.structs ⟨1, index⟩ g })
      = Except.ok (ε := Fault) d'
    ∧ d'.toRegion = d.toRegion.setObject ⟨1, index⟩ (g s).toObject
  := by
  refine ⟨_, Except.bind_eq_ok.mpr ⟨_, change_eq hs g, rfl⟩, ?_⟩
  show Region.mk _ [_, (d.structs.modify _ g).map _, _, _] = _
  rw [Pool.map_modify hs]
  rfl

/-- Changing a region declaration is storing the object it is seen as. -/
theorem toRegion_change_region {r : RegionDecl} (hr : d.regions.get? ⟨index⟩ = some r)
    (g : RegionDecl → RegionDecl) :
  ∃ d', (do return { d with regions := ← change d.regions ⟨2, index⟩ g })
      = Except.ok (ε := Fault) d'
    ∧ d'.toRegion = d.toRegion.setObject ⟨2, index⟩ (g r).toObject
  := by
  refine ⟨_, Except.bind_eq_ok.mpr ⟨_, change_eq hr g, rfl⟩, ?_⟩
  show Region.mk _ [_, _, (d.regions.modify _ g).map _, _] = _
  rw [Pool.map_modify hr]
  rfl

/-- Changing a file declaration is storing the object it is seen as. -/
theorem toRegion_change_schemas {s : SchemaDecl} (hs : d.schemas.get? ⟨index⟩ = some s)
    (g : SchemaDecl → SchemaDecl) :
  ∃ d', (do return { d with schemas := ← change d.schemas ⟨3, index⟩ g })
      = Except.ok (ε := Fault) d'
    ∧ d'.toRegion = d.toRegion.setObject ⟨3, index⟩ (g s).toObject
  := by
  refine ⟨_, Except.bind_eq_ok.mpr ⟨_, change_eq hs g, rfl⟩, ?_⟩
  show Region.mk _ [_, _, _, (d.schemas.modify _ g).map _] = _
  rw [Pool.map_modify hs]
  rfl

end

/-- Storing a value of its type changes the object of the declaration as it does in a region. -/
theorem toRegion_assign {struct : StructSchema} {field : Nat} {slot : Field} {value : Value}
    (hobject : d.toRegion.object target = .ok object)
    (hs : declarationSchema.structs[target.struct]? = some struct)
    (hslot : struct.fields[field]? = some slot) (typed : d.toRegion.HasType value slot.type)
    (set : value.IsSet) :
  ∃ d', d.assign target field value = .ok d'
    ∧ d'.toRegion = d.toRegion.setObject target (object.set field value)
  := by
  obtain ⟨id, index⟩ := target
  rcases id with _ | _ | _ | _ | id
  case zero =>
    obtain rfl := Option.some.inj hs
    obtain ⟨f, hf, rfl⟩ := exists_of_object d.fields rfl hobject
    rcases field with _ | _ | field
    case zero =>
      obtain rfl := Option.some.inj hslot
      cases typed with
      | string name => apply toRegion_change_field hf
    case succ.zero =>
      obtain rfl := Option.some.inj hslot
      cases typed with
      | string type => apply toRegion_change_field hf
    case succ.succ => cases hslot
  case succ.zero =>
    obtain rfl := Option.some.inj hs
    obtain ⟨s, hs, rfl⟩ := exists_of_object d.structs rfl hobject
    rcases field with _ | _ | field
    case zero =>
      obtain rfl := Option.some.inj hslot
      cases typed with
      | string name => apply toRegion_change_struct hs
    case succ.zero =>
      obtain rfl := Option.some.inj hslot
      obtain ⟨items, fields, rfl, hfields, same⟩ := exists_refs_of_list FieldDecl typed set rfl
      obtain ⟨d', hchange, hview⟩ := toRegion_change_struct hs fun s => { s with fields }
      use d'
      constructor
      · apply Except.bind_eq_ok.mpr ⟨fields, hfields, hchange⟩
      rw [hview, same]
      rfl
    case succ.succ => cases hslot
  case succ.succ.zero =>
    obtain rfl := Option.some.inj hs
    obtain ⟨r, hr, rfl⟩ := exists_of_object d.regions rfl hobject
    rcases field with _ | _ | field
    case zero =>
      obtain rfl := Option.some.inj hslot
      cases typed with
      | string name => apply toRegion_change_region hr
    case succ.zero =>
      obtain rfl := Option.some.inj hslot
      obtain ⟨items, structs, rfl, hstructs, same⟩ := exists_refs_of_list StructDecl typed set rfl
      obtain ⟨d', hchange, hview⟩ := toRegion_change_region hr fun r => { r with structs }
      use d'
      constructor
      · apply Except.bind_eq_ok.mpr ⟨structs, hstructs, hchange⟩
      rw [hview, same]
      rfl
    case succ.succ => cases hslot
  case succ.succ.succ.zero =>
    obtain rfl := Option.some.inj hs
    obtain ⟨s, hs, rfl⟩ := exists_of_object d.schemas rfl hobject
    rcases field with _ | field
    case zero =>
      obtain rfl := Option.some.inj hslot
      obtain ⟨items, regions, rfl, hregions, same⟩ := exists_refs_of_list RegionDecl typed set rfl
      obtain ⟨d', hchange, hview⟩ := toRegion_change_schemas hs fun _ => ⟨regions⟩
      use d'
      constructor
      · apply Except.bind_eq_ok.mpr ⟨regions, hregions, hchange⟩
      rw [hview, same]
      rfl
    case succ => cases hslot
  case succ.succ.succ.succ => cases hs

/-- Declarations model a region of the built-in schema. -/
theorem models :
  Models toRegion declarationSchema
  where
  schema_eq _ _ := rfl
  allocate := by
    intro d id struct _ hs
    obtain ⟨hallocate, hview⟩ := toRegion_allocate hs d
    use (d.allocate struct.name).2, congrArg Except.ok (Prod.ext hallocate rfl), hview
  assign := by
    intro d target object struct field slot value _ hobject hs hslot typed set
    apply toRegion_assign hobject hs hslot typed set

/-- No declarations are seen as no objects. -/
theorem toRegion_empty :
  empty.toRegion = Region.empty declarationSchema
  := by
  have none : ∀ {α} (toObject : α → Object), (Pool.empty : Pool α).map toObject = Pool.empty := by
    intro α toObject
    rw [Pool.map, Pool.empty, Array.map_empty, Pool.empty]
  rw [toRegion, empty, none, none, none, none]
  rfl

/-- Files bound one after another, with errors or without, give the same results in declarations
and in a region of the schema of declarations, one for each file, and lead to the same objects after
each file. -/
theorem parseFiles_toRegion (sources : List Source) :
  ∃ steps, parseFiles empty sources = .ok steps ∧ steps.length = sources.length
    ∧ parseFiles (Region.empty declarationSchema) sources
      = .ok (steps.map fun step => (step.1, step.2.toRegion))
  := by
  rw [← toRegion_empty]
  apply parseFiles_view models wellFormed_declarationSchema distinct_declarationSchema sources
  rw [toRegion_empty]
  apply Region.sound_empty

end Declarations

end PoolGraph
