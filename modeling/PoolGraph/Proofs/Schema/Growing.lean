import PoolGraph.Proofs.Schema.WellFormed

/-!
# Schemas that grow

While a region is resolved its structs keep their names and places and get their fields, and list
types are added behind those that are there (`RegionSchema.Grows`).  A type keeps the shape that it
unfolds to (`RegionSchema.Unfolds.grows`), and has no other one (`RegionSchema.Unfolds.unique`).
-/

namespace PoolGraph.RegionSchema

/-- Whether a schema has the structs of another one, up to their fields, and its list types in
front. -/
structure Grows (schema schema' : RegionSchema) : Prop where
  name : schema'.name = schema.name
  structs : schema'.structs.map StructSchema.name = schema.structs.map StructSchema.name
  lists : schema.lists <+: schema'.lists

variable {schema schema' schema₁ : RegionSchema}

theorem Grows.refl (schema : RegionSchema) :
  schema.Grows schema
  := ⟨rfl, rfl, List.prefix_rfl⟩

/-- Growing twice is growing. -/
theorem Grows.trans (h : schema.Grows schema₁) (h' : schema₁.Grows schema') :
  schema.Grows schema'
  := ⟨h'.name.trans h.name, h'.structs.trans h.structs, h.lists.trans h'.lists⟩

/-- Growing adds no struct. -/
theorem Grows.length_structs (h : schema.Grows schema') :
  schema'.structs.length = schema.structs.length
  := by
  have lengths := congrArg List.length h.structs
  rwa [List.length_map, List.length_map] at lengths

/-! ### Shapes -/

/-- A type unfolds as it did before the schema grew. -/
theorem Unfolds.grows {type : FieldType} {shape : Shape} (unfolds : schema.Unfolds type shape)
    (h : schema.Grows schema') :
  schema'.Unfolds type shape
  := by
  induction unfolds with
  | integer width unsigned => exact .integer width unsigned
  | float width => exact .float width
  | bool => exact .bool
  | string => exact .string
  | @struct id s hs =>
    have named : (schema'.structs.map StructSchema.name)[id]? = some s.name := by
      rw [h.structs, List.getElem?_map, struct_eq_ok.mp hs, Option.map_some]
    rw [List.getElem?_map] at named
    obtain ⟨s', hs', same⟩ := Option.map_eq_some_iff.mp named
    rw [← same]
    exact .struct (struct_eq_ok.mpr hs')
  | list hitem _ ih =>
    obtain ⟨more, hmore⟩ := h.lists
    refine .list ?_ ih
    rw [← hmore, List.getElem?_append_left (List.getElem?_eq_some_iff.mp hitem).1, hitem]

/-- A type unfolds to one shape. -/
theorem Unfolds.unique {type : FieldType} {shape shape' : Shape} (h : schema.Unfolds type shape)
    (h' : schema.Unfolds type shape') :
  shape = shape'
  := by
  induction h generalizing shape' with
  | struct hs =>
    cases h' with
    | struct hs' =>
      obtain rfl := Except.ok.inj (hs.symm.trans hs')
      rfl
  | list hitem _ ih =>
    cases h' with
    | list hitem' h' =>
      obtain rfl := Option.some.inj (hitem.symm.trans hitem')
      rw [ih h']
  | _ =>
    cases h'
    rfl

/-! ### List types -/

/-- Making a list type is growing. -/
theorem grows_list (schema : RegionSchema) (item : FieldType) :
  schema.Grows (schema.list item).2
  := by
  rw [list]
  split
  · exact .refl schema
  · exact ⟨rfl, rfl, List.prefix_append _ _⟩

theorem structs_list (schema : RegionSchema) (item : FieldType) :
  (schema.list item).2.structs = schema.structs
  := by
  rw [list]
  split <;> rfl

/-- A list type has the item type for which it was found or made. -/
theorem exists_list (schema : RegionSchema) (item : FieldType) :
  ∃ id, (schema.list item).1 = .list id ∧ (schema.list item).2.lists[id]? = some item
  := by
  rw [list]
  split
  · next type found =>
    obtain ⟨id, hid, rfl⟩ := Option.map_eq_some_iff.mp found
    obtain ⟨inside, same, -⟩ := List.findIdx?_eq_some_iff_getElem.mp hid
    use id, rfl
    rw [List.getElem?_eq_getElem inside, of_decide_eq_true same]
  · use schema.lists.length, rfl
    refine List.getElem?_concat_length

/-- A list type unfolds to a list of what its items unfold to. -/
theorem Unfolds.list_fst {item : FieldType} {shape : Shape} (h : schema.Unfolds item shape) :
  (schema.list item).2.Unfolds (schema.list item).1 (.list shape)
  := by
  have grown := h.grows (grows_list schema item)
  obtain ⟨id, same, hitem⟩ := exists_list schema item
  rw [same]
  exact .list hitem grown

/-! ### Fields -/

/-- Fields whose names differ are all kept. -/
theorem untilDuplicate_eq {before fields : List Field}
    (h : ((before ++ fields).map Field.name).Nodup) :
  untilDuplicate before fields = (before ++ fields, none)
  := by
  induction fields generalizing before with
  | nil => rw [untilDuplicate, List.append_nil]
  | cons field rest ih =>
    have free : ¬ (before.any fun other => other.name = field.name) = true := by
      rw [List.any_eq_true]
      rintro ⟨other, hother, same⟩
      rw [List.map_append, List.nodup_append] at h
      exact h.2.2 _ (List.mem_map_of_mem hother) _ (.head _) (of_decide_eq_true same)
    rw [List.append_cons] at h ⊢
    rw [untilDuplicate, if_neg free, ih h]

/-- Without a duplicate all fields are kept. -/
theorem eq_of_untilDuplicate {before fields kept : List Field}
    (h : untilDuplicate before fields = (kept, none)) :
  kept = before ++ fields
  := by
  induction fields generalizing before with
  | nil =>
    obtain ⟨rfl, -⟩ := Prod.mk.inj h
    rw [List.append_nil]
  | cons field rest ih =>
    rw [untilDuplicate] at h
    split at h
    · cases (Prod.mk.inj h).2
    · rw [ih h, List.append_assoc, List.singleton_append]

/-- A struct is given fields exactly when their names differ. -/
theorem defineFields_eq_ok {id : Nat} {fields : List Field} :
  schema.defineFields id fields = .ok (schema', .ok ())
    ↔ (fields.map Field.name).Nodup ∧ ∃ s, schema.structs[id]? = some s
      ∧ schema' = { schema with structs := schema.structs.set id { s with fields } }
  := by
  rw [defineFields, Except.bind_eq_ok]
  have names : ((untilDuplicate [] fields).1.map Field.name).Nodup :=
    nodup_untilDuplicate List.nodup_nil
  constructor
  · rintro ⟨s, hs, h⟩
    cases hkept : untilDuplicate [] fields with
    | mk kept duplicate =>
      rw [hkept] at names h
      cases duplicate with
      | none =>
        obtain rfl := eq_of_untilDuplicate hkept
        obtain ⟨rfl, -⟩ := Prod.mk.inj (Except.ok.inj h)
        constructor
        · apply names
        use s
        constructor
        · apply struct_eq_ok.mp hs
        · rfl
      | some name => cases (Prod.mk.inj (Except.ok.inj h)).2
  · rintro ⟨distinct, s, hs, rfl⟩
    have kept : untilDuplicate [] fields = (fields, none) := untilDuplicate_eq distinct
    use s, struct_eq_ok.mpr hs
    rw [kept]
    rfl

/-- Defining fields is growing. -/
theorem grows_defineFields {id : Nat} {fields : List Field}
    (h : schema.defineFields id fields = .ok (schema', .ok ())) :
  schema.Grows schema'
  := by
  obtain ⟨-, s, hs, rfl⟩ := defineFields_eq_ok.mp h
  exact ⟨rfl, map_set_of_eq hs rfl, List.prefix_rfl⟩

end PoolGraph.RegionSchema
