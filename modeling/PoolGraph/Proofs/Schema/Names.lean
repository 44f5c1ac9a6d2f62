import Mathlib.Data.List.Nodup
import PoolGraph.Proofs.Except
import PoolGraph.Schema.RegionSchema

/-!
# Names in schemas

In a schema with `RegionSchema.Distinct` names a struct is found by its name exactly at its own
position (`RegionSchema.Distinct.structIndex?_eq_some_iff`), and so is a field of a struct.  Every
operation that builds a schema keeps names distinct, also one that is refused in the middle.
-/

namespace PoolGraph

namespace RegionSchema

variable {schema : RegionSchema} {id : Nat}

theorem struct_eq_ok {s : StructSchema} :
  schema.struct id = .ok s ↔ schema.structs[id]? = some s
  := by
  rw [struct]
  cases schema.structs[id]? <;> simp

theorem listItem_eq_ok {item : FieldType} :
  schema.listItem id = .ok item ↔ schema.lists[id]? = some item
  := by
  rw [listItem]
  cases schema.lists[id]? <;> simp

end RegionSchema

section

variable {xs : List α} {f : α → β} {b : β} [DecidableEq β]

/-- Where the images of the items differ, an item is found by its image at its own place. -/
theorem findIdx?_eq_some_iff_of_nodup (distinct : (xs.map f).Nodup) {i : Nat} :
  xs.findIdx? (fun x => f x = b) = some i ↔ ∃ x, xs[i]? = some x ∧ f x = b
  := by
  rw [List.findIdx?_eq_some_iff_getElem]
  constructor
  · rintro ⟨inside, found, -⟩
    exact ⟨xs[i], List.getElem?_eq_getElem inside, of_decide_eq_true found⟩
  · rintro ⟨x, hx, rfl⟩
    obtain ⟨inside, rfl⟩ := List.getElem?_eq_some_iff.mp hx
    use inside, decide_eq_true rfl
    intro j before same
    have earlier : j < (xs.map f).length := by
      rw [List.length_map]
      apply Nat.lt_trans before inside
    have images : (xs.map f)[j]? = (xs.map f)[i]? := by
      rw [List.getElem?_map, List.getElem?_map, List.getElem?_eq_getElem inside,
        List.getElem?_eq_getElem (Nat.lt_trans before inside), Option.map_some, Option.map_some,
        of_decide_eq_true same]
    have here := (List.getElem?_inj earlier distinct).mp images
    omega

theorem findIdx?_eq_none_iff_notMem :
  xs.findIdx? (fun x => f x = b) = none ↔ b ∉ xs.map f
  := by
  rw [List.findIdx?_eq_none_iff, List.mem_map, not_exists]
  apply forall_congr'
  intro x
  rw [not_and, decide_eq_false_iff_not]

end

/-- Another item with the same image in place of one changes no images. -/
theorem map_set_of_eq {f : α → β} {xs : List α} {i : Nat} {x x' : α} (hx : xs[i]? = some x)
    (same : f x' = f x) :
  (xs.set i x').map f = xs.map f
  := by
  have image : (xs.map f)[i]? = some (f x') := by
    rw [List.getElem?_map, hx, Option.map_some, same]
  obtain ⟨inside, image⟩ := List.getElem?_eq_some_iff.mp image
  rw [List.map_set, ← image, List.set_getElem_self]

namespace StructSchema

variable {s : StructSchema} {name : String} {number : Nat} {field : Field}

theorem field?_eq_some_iff (distinct : (s.fields.map Field.name).Nodup) :
  s.field? name = some (number, field) ↔ s.fields[number]? = some field ∧ field.name = name
  := by
  constructor
  · intro h
    obtain ⟨i, hi, h⟩ := Option.bind_eq_some_iff.mp h
    obtain ⟨found, hfound, h⟩ := Option.bind_eq_some_iff.mp h
    obtain ⟨rfl, rfl⟩ := Prod.mk.inj (Option.some.inj h)
    obtain ⟨field, hfield, named⟩ := (findIdx?_eq_some_iff_of_nodup distinct).mp hi
    obtain rfl := Option.some.inj (hfield.symm.trans hfound)
    exact ⟨hfield, named⟩
  · rintro ⟨hfield, named⟩
    apply Option.bind_eq_some_iff.mpr
    refine ⟨number, (findIdx?_eq_some_iff_of_nodup distinct).mpr ⟨field, hfield, named⟩, ?_⟩
    rw [hfield]
    rfl

/-- What is found under a name is a field of the struct that has the name. -/
theorem getElem?_of_field? (h : s.field? name = some (number, field)) :
  s.fields[number]? = some field ∧ field.name = name
  := by
  obtain ⟨i, hi, h⟩ := Option.bind_eq_some_iff.mp h
  obtain ⟨found, hfound, h⟩ := Option.bind_eq_some_iff.mp h
  obtain ⟨rfl, rfl⟩ := Prod.mk.inj (Option.some.inj h)
  obtain ⟨inside, named, -⟩ := List.findIdx?_eq_some_iff_getElem.mp hi
  obtain rfl := Option.some.inj ((List.getElem?_eq_getElem inside).symm.trans hfound)
  constructor
  · apply hfound
  · apply of_decide_eq_true named

/-- A field has one name. -/
theorem eq_of_field? {name' : String} {field' : Field} (h : s.field? name = some (number, field))
    (h' : s.field? name' = some (number, field')) :
  name = name'
  := by
  obtain ⟨hfield, rfl⟩ := getElem?_of_field? h
  obtain ⟨hfield', rfl⟩ := getElem?_of_field? h'
  rw [Option.some.inj (hfield.symm.trans hfield')]

end StructSchema

namespace RegionSchema

/-- Whether no two structs have one name, and no two fields of a struct. -/
structure Distinct (schema : RegionSchema) : Prop where
  structs : (schema.structs.map StructSchema.name).Nodup
  fields : ∀ s ∈ schema.structs, (s.fields.map Field.name).Nodup

variable {schema schema' : RegionSchema}

/-- A name that is found is that of a struct of the schema. -/
theorem lt_of_structIndex? {name : String} {id : Nat} (h : schema.structIndex? name = some id) :
  id < schema.structs.length
  := (List.findIdx?_eq_some_iff_findIdx_eq.mp h).1

theorem Distinct.structIndex?_eq_some_iff (h : schema.Distinct) {name : String} {id : Nat} :
  schema.structIndex? name = some id ↔ ∃ s, schema.structs[id]? = some s ∧ s.name = name
  := findIdx?_eq_some_iff_of_nodup h.structs

theorem Distinct.field?_eq_some_iff (h : schema.Distinct) {id : Nat} {s : StructSchema}
    (hs : schema.structs[id]? = some s) {name : String} {number : Nat} {field : Field} :
  s.field? name = some (number, field) ↔ s.fields[number]? = some field ∧ field.name = name
  := StructSchema.field?_eq_some_iff (h.fields s (List.mem_of_getElem? hs))

/-! ### Building schemas -/

theorem distinct_empty (name : String) :
  (RegionSchema.empty name).Distinct
  := ⟨List.nodup_nil, List.forall_mem_nil _⟩

theorem Distinct.declareStruct (h : schema.Distinct) {name : String} {id : Nat}
    (hdeclare : schema.declareStruct name = .ok (id, schema')) :
  schema'.Distinct
  := by
  unfold RegionSchema.declareStruct at hdeclare
  split at hdeclare
  · cases hdeclare
  next free =>
  obtain ⟨-, rfl⟩ := Prod.mk.inj (Except.ok.inj hdeclare)
  refine ⟨?_, ?_⟩
  · rw [List.map_append, List.map_singleton, ← List.concat_eq_append]
    exact h.structs.concat (findIdx?_eq_none_iff_notMem.mp free)
  · intro s hs
    rcases List.mem_append.mp hs with hs | hs
    · apply h.fields s hs
    · obtain rfl := List.mem_singleton.mp hs
      apply List.nodup_nil

theorem Distinct.list (h : schema.Distinct) (item : FieldType) :
  (schema.list item).2.Distinct
  := by
  rw [RegionSchema.list]
  split
  · apply h
  · exact ⟨h.structs, h.fields⟩

/-- The fields up to a duplicate have names of their own. -/
theorem nodup_untilDuplicate {before rest : List Field} (h : (before.map Field.name).Nodup) :
  ((untilDuplicate before rest).1.map Field.name).Nodup
  := by
  induction rest generalizing before with
  | nil => apply h
  | cons field rest ih =>
    rw [untilDuplicate]
    split
    · apply h
    · next free =>
      apply ih
      rw [List.map_append, List.map_singleton, ← List.concat_eq_append]
      apply h.concat
      intro taken
      obtain ⟨other, hother, named⟩ := List.mem_map.mp taken
      exact free (List.any_eq_true.mpr ⟨other, hother, decide_eq_true named⟩)

theorem Distinct.defineFields (h : schema.Distinct) {id : Nat} {fields : List Field}
    {defined : Except SchemaError Unit}
    (hdefine : schema.defineFields id fields = .ok (schema', defined)) :
  schema'.Distinct
  := by
  obtain ⟨s, hs, hdefine⟩ := Except.bind_eq_ok.mp hdefine
  obtain ⟨rfl, -⟩ := Prod.mk.inj (Except.ok.inj hdefine)
  refine ⟨?_, ?_⟩
  · rw [map_set_of_eq (struct_eq_ok.mp hs)]
    · apply h.structs
    · rfl
  · intro other hother
    rcases List.mem_or_eq_of_mem_set hother with hother | rfl
    · apply h.fields other hother
    · apply nodup_untilDuplicate
      apply List.nodup_nil

end RegionSchema

end PoolGraph
