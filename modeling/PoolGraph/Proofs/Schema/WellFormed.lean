import PoolGraph.Proofs.Schema.Names
import PoolGraph.Schema.Shape

/-!
# Well-formed schemas

`RegionSchema.Unfolds` relates a type to its shape.  In a well-formed schema every type of a field
stands for something, and the items of a list type are of a type that was made before it.  So no
list type contains itself, and every type that stands for something has a shape
(`RegionSchema.WellFormed.shape`).
-/

namespace PoolGraph

namespace FieldType

/-- Whether a type is one of the first `lists` list types or of the first `structs` structs, if it
is a list type or a struct. -/
def Within (structs lists : Nat) : FieldType → Prop
  | .struct id => id < structs
  | .list id => id < lists
  | _ => True

instance (structs lists : Nat) (type : FieldType) : Decidable (type.Within structs lists) :=
  match type with
  | .struct id => inferInstanceAs (Decidable (id < structs))
  | .list id => inferInstanceAs (Decidable (id < lists))
  | .integer _ _ | .float _ | .bool | .string => .isTrue trivial

/-- A type within a schema is within a larger one. -/
theorem Within.mono {structs structs' lists lists' : Nat} {type : FieldType}
    (h : type.Within structs lists) (hs : structs ≤ structs') (hl : lists ≤ lists') :
  type.Within structs' lists'
  := by
  cases type with
  | struct id => apply Nat.lt_of_lt_of_le h hs
  | list id => apply Nat.lt_of_lt_of_le h hl
  | _ => trivial

end FieldType

namespace RegionSchema

/-- What the shape of a type is. -/
inductive Unfolds (schema : RegionSchema) : FieldType → Shape → Prop where
  | integer (width : IntWidth) (unsigned : Bool) :
      Unfolds schema (.integer width unsigned) (.integer width unsigned)
  | float (width : FloatWidth) : Unfolds schema (.float width) (.float width)
  | bool : Unfolds schema .bool .bool
  | string : Unfolds schema .string .string
  | struct {id : Nat} {s : StructSchema} (hs : schema.struct id = .ok s) :
      Unfolds schema (.struct id) (.reference id s.name)
  | list {id : Nat} {item : FieldType} {shape : Shape} (hitem : schema.lists[id]? = some item)
      (h : Unfolds schema item shape) : Unfolds schema (.list id) (.list shape)

/-- The shape found within some depth is the one a type unfolds to. -/
theorem unfolds_of_shapeWithin {schema : RegionSchema} {depth : Nat} {type : FieldType}
    {shape : Shape} (h : schema.shapeWithin depth type = .ok shape) :
  schema.Unfolds type shape
  := by
  induction depth generalizing type shape with
  | zero =>
    cases type with
    | list id => cases h
    | struct id =>
      obtain ⟨s, hs, h⟩ := Except.bind_eq_ok.mp h
      obtain rfl := Except.ok.inj h
      exact .struct hs
    | _ =>
      obtain rfl := Except.ok.inj h
      constructor
  | succ depth ih =>
    cases type with
    | list id =>
      obtain ⟨item, hitem, h⟩ := Except.bind_eq_ok.mp h
      obtain ⟨inner, hinner, h⟩ := Except.bind_eq_ok.mp h
      obtain rfl := Except.ok.inj h
      unfold listItem at hitem
      split at hitem
      · next found =>
        obtain rfl := Except.ok.inj hitem
        exact .list found (ih hinner)
      · cases hitem
    | struct id =>
      obtain ⟨s, hs, h⟩ := Except.bind_eq_ok.mp h
      obtain rfl := Except.ok.inj h
      exact .struct hs
    | _ =>
      obtain rfl := Except.ok.inj h
      constructor

/-- Whether a type stands for something in the schema. -/
def Knows (schema : RegionSchema) (type : FieldType) : Prop :=
  type.Within schema.structs.length schema.lists.length

/-- Whether all types stand for something, and list types for one that was made before. -/
structure WellFormed (schema : RegionSchema) : Prop where
  items : ∀ id (item : FieldType), schema.lists[id]? = some item →
    item.Within schema.structs.length id
  fields : ∀ s ∈ schema.structs, ∀ field ∈ s.fields, schema.Knows field.type

variable {schema : RegionSchema}

/-- The item types of a well-formed schema are known. -/
theorem WellFormed.knows_item (h : schema.WellFormed) {id : Nat} {item : FieldType}
    (hitem : schema.lists[id]? = some item) :
  schema.Knows item
  := by
  obtain ⟨inside, -⟩ := List.getElem?_eq_some_iff.mp hitem
  apply (h.items id item hitem).mono (Nat.le_refl _) (Nat.le_of_lt inside)

/-- A struct has a shape at any depth. -/
theorem shapeWithin_struct (depth : Nat) {id : Nat} (h : id < schema.structs.length) :
  ∃ shape, schema.shapeWithin depth (.struct id) = .ok shape
  := by
  have found := struct_eq_ok.mpr (List.getElem?_eq_getElem h)
  cases depth <;>
    use Shape.reference id schema.structs[id].name, Except.bind_eq_ok.mpr ⟨_, found, rfl⟩

/-- A type made from fewer list types than the depth has a shape within that depth. -/
theorem WellFormed.shapeWithin (h : schema.WellFormed) {depth lists : Nat} {type : FieldType}
    (within : type.Within schema.structs.length lists) (low : lists ≤ depth)
    (made : lists ≤ schema.lists.length) :
  ∃ shape, schema.shapeWithin depth type = .ok shape
  := by
  induction depth generalizing type lists with
  | zero =>
    cases type with
    | struct id => apply shapeWithin_struct 0 within
    | list id => exact absurd (Nat.lt_of_lt_of_le within low) (Nat.not_lt_zero id)
    | _ => exact ⟨_, rfl⟩
  | succ depth ih =>
    cases type with
    | struct id => apply shapeWithin_struct (depth + 1) within
    | list id =>
      have within : id < lists := within
      obtain ⟨item, hitem⟩ : ∃ item, schema.lists[id]? = some item :=
        ⟨_, List.getElem?_eq_getElem (Nat.lt_of_lt_of_le within made)⟩
      obtain ⟨shape, hshape⟩ := ih (h.items id item hitem) (by omega) (by omega)
      use .list shape
      exact Except.bind_eq_ok.mpr
        ⟨item, listItem_eq_ok.mpr hitem, Except.bind_eq_ok.mpr ⟨shape, hshape, rfl⟩⟩
    | _ => exact ⟨_, rfl⟩

/-- Every type that is known has a shape. -/
theorem WellFormed.shape (h : schema.WellFormed) {type : FieldType} (knows : schema.Knows type) :
  ∃ shape, schema.shape type = .ok shape
  := h.shapeWithin knows (Nat.le_refl _) (Nat.le_refl _)

/-- A well-formed schema has a layout. -/
theorem WellFormed.layout (h : schema.WellFormed) :
  ∃ layout, schema.layout = .ok layout
  := by
  apply Except.exists_mapM_ok
  intro s hs
  obtain ⟨fields, hfields⟩ := Except.exists_mapM_ok fun field hfield => by
    obtain ⟨shape, hshape⟩ := h.shape (h.fields s hs field hfield)
    use (field.name, shape), Except.bind_eq_ok.mpr ⟨shape, hshape, rfl⟩
  use ⟨s.name, fields⟩, Except.bind_eq_ok.mpr ⟨fields, hfields, rfl⟩

end RegionSchema

end PoolGraph
