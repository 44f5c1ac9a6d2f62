import PoolGraph.Proofs.Region.Typing

/-!
# Well-typed regions

In a well-typed region every field of every object holds a value of its type.  That is so of an
empty region and is kept by allocating and by storing a value that conforms to its field.  Reading
bytes gives a well-typed region, and writing one fails for two reasons alone
(`Region.WellTyped.serialize`).
-/

namespace PoolGraph

namespace Region

/-- Whether an object has a value of its type for every field. -/
def ObjectHasType (r : Region) (object : Object) (fields : List Field) : Prop :=
  List.Forall₂ (fun value (field : Field) => r.HasType value field.type) object fields

/-- Whether every object has a value of its type for every field of its struct. -/
def WellTyped (r : Region) : Prop :=
  ∀ target object, r.object target = .ok object →
    ∃ s, r.schema.structs[target.struct]? = some s ∧ r.ObjectHasType object s.fields

variable {r r' : Region} {object : Object} {fields : List Field} {target : Instance}

theorem ObjectHasType.mono (h : r.ObjectHasType object fields) (schema : r'.schema = r.schema)
    (held : ∀ target, r.Holds target → r'.Holds target) :
  r'.ObjectHasType object fields
  := h.imp fun _ _ typed => typed.mono schema held

/-- References in a well-typed region lead to objects. -/
theorem WellTyped.closed (typed : r.WellTyped) :
  r.Closed
  := by
  rintro a b ⟨object, hobject, value, hvalue, mentions⟩
  obtain ⟨s, -, values⟩ := typed a object hobject
  obtain ⟨i, hi, rfl⟩ := List.getElem_of_mem hvalue
  apply (values.get hi (values.length_eq ▸ hi)).holds mentions

theorem wellTyped_empty (schema : RegionSchema) :
  (empty schema).WellTyped
  := by
  intro target object h
  obtain ⟨pool, hpool, found⟩ := object_eq_ok.mp h
  rw [List.eq_of_mem_replicate (List.mem_of_getElem? hpool), Pool.get?, Pool.empty] at found
  cases found

/-! ### Allocating -/

theorem WellTyped.allocateStruct (typed : r.WellTyped) (wf : r.schema.WellFormed)
    {struct : Nat} (h : r.allocateStruct struct = .ok (target, r')) :
  r'.WellTyped
  := by
  have schema := schema_allocateStruct h
  intro other object hobject
  rw [schema]
  rcases (object_allocateStruct h).mp hobject with before | ⟨rfl, s, hs, rfl⟩
  · obtain ⟨s, hs, values⟩ := typed other object before
    use s, hs
    apply values.mono schema
    intro t held
    exact (holds_allocateStruct h t).mpr (.inl held)
  · obtain ⟨-, -, -, rfl, -⟩ := allocateStruct_eq_ok.mp h
    use s, hs
    refine List.forall₂_map_left_iff.mpr (List.forall₂_same.mpr fun field hfield => ?_)
    apply hasType_zero
    rw [schema]
    apply wf.fields s (List.mem_of_getElem? hs) field hfield

theorem WellTyped.allocate (typed : r.WellTyped) (wf : r.schema.WellFormed) {name : String}
    {target? : Option Instance} (h : r.allocate name = .ok (target?, r')) :
  r'.WellTyped
  := by
  rcases allocate_eq_ok.mp h with ⟨struct, target, -, -, hstruct⟩ | ⟨-, -, rfl⟩
  · apply typed.allocateStruct wf hstruct
  · apply typed

/-! ### Storing -/

/-- Putting an object with values of their types in place of another one of the struct. -/
theorem WellTyped.setObject (typed : r.WellTyped) {s : StructSchema}
    (hs : r.schema.structs[target.struct]? = some s) (values : r.ObjectHasType object s.fields) :
  (r.setObject target object).WellTyped
  := by
  have held : ∀ t, r.Holds t → (r.setObject target object).Holds t := fun t =>
    (holds_setObject r target object t).mpr
  intro other found hfound
  by_cases same : other = target
  · subst same
    have holds := (holds_setObject r other object other).mp (holds_iff.mpr ⟨found, hfound⟩)
    obtain rfl := Except.ok.inj (hfound.symm.trans (object_setObject_self object holds))
    use s, hs, values.mono rfl held
  · obtain ⟨s', hs', values'⟩ := typed other found ((object_setObject_of_ne object same).mp hfound)
    use s', hs', values'.mono rfl held

/-- What a checked store does. -/
theorem assign_eq_ok {field : Nat} {value : Value} (h : r.assign target field value = .ok r') :
  ∃ s slot, r.schema.structs[target.struct]? = some s ∧ s.fields[field]? = some slot
    ∧ r.conforms value slot.type = .ok true
  := by
  obtain ⟨s, hs, h⟩ := Except.bind_eq_ok.mp h
  split at h
  · cases h
  next slot hslot =>
  obtain ⟨fits, hfits, h⟩ := Except.bind_eq_ok.mp h
  cases fits with
  | true =>
    use s, slot
    constructor
    · apply RegionSchema.struct_eq_ok.mp hs
    use hslot, hfits
  | false =>
    obtain ⟨name, -, ⟨⟩⟩ := Except.bind_eq_ok.mp h

/-- Where a value conforms to the type of the field, a checked store is an unchecked one. -/
theorem assign_eq_setField {field : Nat} {value : Value} {s : StructSchema} {slot : Field}
    (hs : r.schema.structs[target.struct]? = some s) (hslot : s.fields[field]? = some slot)
    (fits : r.conforms value slot.type = .ok true) :
  r.assign target field value = r.setField target field value
  := by
  simp only [Region.assign, RegionSchema.struct_eq_ok.mpr hs, bind, Except.bind, hslot, fits,
    if_true]

/-- In a region of a well-formed schema an object takes the values of the type of a field. -/
theorem assign_eq_ok_iff (wf : r.schema.WellFormed) (regular : r.Regular) {object : Object}
    (hobject : r.object target = .ok object) {s : StructSchema}
    (hs : r.schema.structs[target.struct]? = some s) {field : Nat} {slot : Field}
    (hslot : s.fields[field]? = some slot) {value : Value} :
  r.assign target field value = .ok r'
    ↔ r.HasType value slot.type ∧ r' = r.setObject target (object.set field value)
  := by
  have knows := wf.fields s (List.mem_of_getElem? hs) slot (List.mem_of_getElem? hslot)
  have decides : r.conforms value slot.type = .ok true ↔ r.HasType value slot.type :=
    conforms_eq_ok_true wf regular value knows
  constructor
  · intro h
    obtain ⟨s', slot', hs', hslot', fits⟩ := assign_eq_ok h
    obtain rfl := Option.some.inj (hs.symm.trans hs')
    obtain rfl := Option.some.inj (hslot.symm.trans hslot')
    obtain ⟨object', hobject', -, rfl⟩ := setField_eq_ok.mp (setField_of_assign h)
    obtain rfl := Except.ok.inj (hobject.symm.trans hobject')
    constructor
    · apply decides.mp fits
    · rfl
  · rintro ⟨typed, rfl⟩
    have width := regular.object hobject
    rw [RegionSchema.widths, List.getElem?_map, hs] at width
    have inside : field < object.length := by
      rw [← Option.some.inj width]
      exact (List.getElem?_eq_some_iff.mp hslot).1
    rw [assign_eq_setField hs hslot (decides.mpr typed)]
    exact setField_eq_ok.mpr ⟨object, hobject, inside, rfl⟩

theorem WellTyped.assign (typed : r.WellTyped) (wf : r.schema.WellFormed) (regular : r.Regular)
    {field : Nat} {value : Value} (h : r.assign target field value = .ok r') :
  r'.WellTyped
  := by
  obtain ⟨s, slot, hs, hslot, conforms⟩ := assign_eq_ok h
  obtain ⟨object, hobject, -, rfl⟩ := setField_eq_ok.mp (setField_of_assign h)
  obtain ⟨s', hs', values⟩ := typed target object hobject
  obtain rfl := Option.some.inj (hs.symm.trans hs')
  have knows := wf.fields s (List.mem_of_getElem? hs) slot (List.mem_of_getElem? hslot)
  have stored : r.HasType value slot.type := (conforms_eq_ok_true wf regular value knows).mp conforms
  apply typed.setObject hs (forall₂_set values hslot stored)

/-! ### Layouts -/

/-- The layout has the names of all structs and fields and the shapes of the types. -/
theorem entries_of_layout {schema : RegionSchema} {layout : List StructLayout}
    (h : schema.layout = .ok layout) :
  List.Forall₂ (fun (s : StructSchema) (l : StructLayout) => l.name = s.name ∧
    List.Forall₂ (fun field p => p.1 = field.name ∧ schema.Unfolds field.type p.2) s.fields l.fields)
    schema.structs layout
  := by
  apply (Except.mapM_eq_ok.mp h).imp
  intro s l hl
  obtain ⟨shapes, hshapes, hl⟩ := Except.bind_eq_ok.mp hl
  obtain rfl := Except.ok.inj hl
  constructor
  · rfl
  apply (Except.mapM_eq_ok.mp hshapes).imp
  intro field p hp
  obtain ⟨shape, hshape, hp⟩ := Except.bind_eq_ok.mp hp
  obtain rfl := Except.ok.inj hp
  constructor
  · rfl
  · apply RegionSchema.unfolds_of_shapeWithin hshape

theorem shapes_of_layout {schema : RegionSchema} {layout : List StructLayout}
    (h : schema.layout = .ok layout) :
  List.Forall₂ (fun (s : StructSchema) (l : StructLayout) =>
    List.Forall₂ (fun field p => schema.Unfolds field.type p.2) s.fields l.fields)
    schema.structs layout
  := (entries_of_layout h).imp fun _ _ entry => entry.2.imp fun _ _ named => named.2

/-- An object has values of their types when it has values that fit the shapes. -/
theorem objectHasType_iff_fits {shapes : List (String × Shape)}
    (h : List.Forall₂ (fun (field : Field) p => r.schema.Unfolds field.type p.2) fields shapes) :
  r.ObjectHasType object fields
    ↔ List.Forall₂ (fun p value => p.2.fits r.size value = true) shapes object
  := by
  induction h generalizing object with
  | nil => simp [ObjectHasType]
  | cons hshape _ ih =>
    cases object with
    | nil => simp [ObjectHasType]
    | cons value rest =>
      rw [ObjectHasType, List.forall₂_cons, List.forall₂_cons, ← ObjectHasType, ih,
        fits_iff_hasType hshape]

/-! ### Bytes -/

/-- What is read is well typed. -/
theorem wellTyped_of_deserialize {bytes : List UInt8} (h : r.deserialize bytes = .ok (.ok r')) :
  r'.WellTyped
  := by
  obtain ⟨-, layout, rest, hlayout, hrun, hschema⟩ := deserialize_eq_ok.mp h
  rw [← hschema] at hlayout
  obtain ⟨b, spelled, -⟩ := (accepts_decodePools layout _ _ _).mp hrun
  have filled := filled_of_poolsSpell spelled
  have shapes := shapes_of_layout hlayout
  intro target object hobject
  obtain ⟨pool, hpool, found⟩ := object_eq_ok.mp hobject
  rw [Pool.get?, ← Array.getElem?_toList] at found
  have member : object ∈ pool.toList := List.mem_of_getElem? found
  obtain ⟨inside, -⟩ := List.getElem?_eq_some_iff.mp hpool
  obtain ⟨l, hl⟩ : ∃ l, layout[target.struct]? = some l :=
    ⟨_, List.getElem?_eq_getElem (spelled.1 ▸ inside)⟩
  obtain ⟨s, hs, fields⟩ := exists_of_forall₂ shapes.flip hl
  have pair : (l, pool) ∈ layout.zip r'.pools :=
    List.mem_iff_getElem?.mpr ⟨_, List.getElem?_zip_eq_some.mpr ⟨hl, hpool⟩⟩
  obtain ⟨width, fits⟩ := filled _ pair object member
  use s, hs
  refine (objectHasType_iff_fits fields).mpr (List.forall₂_iff_zip.mpr ⟨width.symm, ?_⟩)
  intro p value hp
  rw [← sizeIn_sizes]
  apply (fits _ hp).1

/-- Writing a well-typed region only fails for want of a reference or for the size of a count. -/
theorem WellTyped.serialize (typed : r.WellTyped) (wf : r.schema.WellFormed)
    (regular : r.Regular) :
  ∃ result, r.serialize = .ok result ∧ ∀ e, result = .error e → e.OfTyped
  := by
  obtain ⟨layout, hlayout⟩ := wf.layout
  use encodePools layout r.pools, regular.serialize_eq hlayout
  intro e h
  rcases Except.bind_eq_error.mp h with h | ⟨counts, -, h⟩
  · obtain ⟨n, -, h⟩ := Except.exists_of_mapM_eq_error h
    apply Encode.ofTyped_of_count h
  rcases Except.bind_eq_error.mp h with h | ⟨bodies, -, ⟨⟩⟩
  obtain ⟨p, hp, h⟩ := Except.exists_of_mapM_eq_error h
  rcases Except.bind_eq_error.mp h with h | ⟨objects, -, ⟨⟩⟩
  obtain ⟨object, hobject, h⟩ := Except.exists_of_mapM_eq_error h
  rcases Except.bind_eq_error.mp h with h | ⟨parts, -, ⟨⟩⟩
  obtain ⟨⟨⟨name, shape⟩, value⟩, hvalue, h⟩ := Except.exists_of_mapM_eq_error h
  obtain ⟨i, hi⟩ := List.mem_iff_getElem?.mp hp
  obtain ⟨hl, hpool⟩ := List.getElem?_zip_eq_some.mp hi
  obtain ⟨j, hj⟩ := List.mem_iff_getElem?.mp hobject
  rw [Pool.toList, Array.getElem?_toList] at hj
  obtain ⟨s, hs, values⟩ := typed ⟨i, j⟩ object (object_eq_ok.mpr ⟨p.2, hpool, hj⟩)
  obtain ⟨l, hl', fields⟩ := exists_of_forall₂ (shapes_of_layout hlayout) hs
  obtain rfl := Option.some.inj (hl.symm.trans hl')
  rw [sizeIn_sizes] at h
  apply Shape.ofTyped_of_encode _ h
  apply List.forall₂_zip ((objectHasType_iff_fits fields).mp values) hvalue

end Region

end PoolGraph
