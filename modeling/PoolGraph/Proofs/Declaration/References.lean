import PoolGraph.Proofs.Declaration.Resolve
import PoolGraph.Proofs.Expr.Grammar
import PoolGraph.Proofs.Schema.Growing

/-!
# Type references

A type reference is any number of `[]` before the name of a primitive type or of a struct
(`TypeReference`).  Where structs are declared, exactly these have a meaning
(`Scope.exists_resolveChars`), and the type that one stands for is spelled as the reference is
(`Scope.unfolds_of_resolveChars`).
-/

namespace PoolGraph

open Grammar

/-- The names of the primitive types. -/
def FieldType.primitiveNames : List String :=
  primitives.map Prod.fst

/-- Any number of `[]` before one of the names. -/
inductive TypeReference (names : List String) : List Char → Prop where
  | name {name : String} (h : name ∈ names) : TypeReference names name.toList
  | list {rest : List Char} (h : TypeReference names rest) :
      TypeReference names ('[' :: ']' :: rest)

theorem isIdentifier_iff {text : List Char} :
  isIdentifier text = true ↔ Identifier text
  := by
  cases text with
  | nil =>
    constructor
    · nofun
    · rintro ⟨_, _, ⟨⟩, -⟩
  | cons first rest =>
    rw [isIdentifier, Bool.and_eq_true, List.all_eq_true]
    constructor
    · rintro ⟨start, parts⟩
      exact ⟨first, rest, rfl, start, parts⟩
    · rintro ⟨_, _, ⟨⟩, start, parts⟩
      exact ⟨start, parts⟩

theorem identifier_primitiveNames :
  ∀ name ∈ FieldType.primitiveNames, Identifier name.toList
  := by
  have all : ∀ name ∈ FieldType.primitiveNames, isIdentifier name.toList = true := by decide
  exact fun name hname => isIdentifier_iff.mp (all name hname)

theorem identifier_of_mem_append {structs : List String}
    (identifiers : ∀ name ∈ structs, Identifier name.toList) :
  ∀ name ∈ FieldType.primitiveNames ++ structs, Identifier name.toList
  := List.forall_mem_append.mpr ⟨identifier_primitiveNames, identifiers⟩

/-- No identifier begins as a list type does. -/
theorem Grammar.Identifier.ne_list {text : List Char} (h : Identifier text) (rest : List Char) :
  text ≠ '[' :: ']' :: rest
  := by
  rintro rfl
  obtain ⟨_, _, ⟨⟩, start, -⟩ := h
  cases start

/-- What refers to identifiers looks like a type reference. -/
theorem TypeReference.isTypeReference {names : List String}
    (identifiers : ∀ name ∈ names, Identifier name.toList) {text : List Char}
    (h : TypeReference names text) :
  PoolGraph.isTypeReference text = true
  := by
  induction h with
  | @name name hname =>
    have identifier := identifiers name hname
    unfold PoolGraph.isTypeReference
    split
    · next rest begins => exact absurd begins (identifier.ne_list rest)
    · apply isIdentifier_iff.mpr identifier
  | list _ ih => apply ih

namespace Scope

/-- The scope of the primitive types and of structs that are declared in this order. -/
def ofStructs (structs : List String) : Scope :=
  ⟨FieldType.primitives ++ structs.zipIdx.map fun named => (named.1, .struct named.2)⟩

variable {structs : List String} {schema schema' : RegionSchema}

theorem map_fst_ofStructs (structs : List String) :
  (ofStructs structs).types.map Prod.fst = FieldType.primitiveNames ++ structs
  := by
  rw [ofStructs, List.map_append, List.map_map]
  apply congrArg (FieldType.primitiveNames ++ ·)
  apply List.zipIdx_map_fst

theorem ofStructs_concat (structs : List String) (name : String) :
  ofStructs (structs ++ [name])
    = ⟨(ofStructs structs).types ++ [(name, .struct structs.length)]⟩
  := by
  rw [ofStructs, ofStructs, List.zipIdx_append, List.map_append, List.append_assoc, Nat.zero_add]
  rfl

theorem get?_ofStructs_eq_none_iff {name : String} :
  (ofStructs structs).get? name = none ↔ name ∉ FieldType.primitiveNames ++ structs
  := by
  rw [get?, List.lookup_eq_none_iff, ← map_fst_ofStructs, List.mem_map, not_exists]
  apply forall_congr'
  intro named
  rw [not_and]
  apply imp_congr_right
  intro _
  rw [bne_iff_ne, ne_comm]

/-- A primitive type is spelled by its name. -/
theorem unfolds_of_primitive {named : String × FieldType} (h : named ∈ FieldType.primitives) :
  ∃ shape, schema.Unfolds named.2 shape ∧ shape.name = named.1
  := by
  have all : ∀ named ∈ FieldType.primitives, named.2.primitiveName? = some named.1 := by decide
  obtain ⟨name, type⟩ := named
  have own : type.primitiveName? = some name := all _ h
  cases type with
  | integer width unsigned =>
    use Shape.integer width unsigned, .integer width unsigned
    rw [Shape.name, own]
    rfl
  | float width =>
    use Shape.float width, .float width
    rw [Shape.name, own]
    rfl
  | bool =>
    use Shape.bool, .bool, Option.some.inj own
  | string =>
    use Shape.string, .string, Option.some.inj own
  | struct id => cases own
  | list id => cases own

/-- A name stands for a type that is spelled by the name. -/
theorem unfolds_of_get? (declared : schema.structs.map StructSchema.name = structs) {name : String}
    {type : FieldType} (h : (ofStructs structs).get? name = some type) :
  name ∈ FieldType.primitiveNames ++ structs
    ∧ ∃ shape, schema.Unfolds type shape ∧ shape.name = name
  := by
  obtain ⟨before, after, hsplit, -⟩ := List.lookup_eq_some_iff.mp h
  have mem : (name, type) ∈ (ofStructs structs).types := by
    rw [hsplit]
    exact List.mem_append_right _ (.head _)
  constructor
  · rw [← map_fst_ofStructs]
    apply List.mem_map_of_mem mem
  rcases List.mem_append.mp mem with primitive | struct
  · apply unfolds_of_primitive primitive
  · obtain ⟨⟨_, id⟩, hid, same⟩ := List.mem_map.mp struct
    obtain ⟨rfl, rfl⟩ := Prod.mk.inj same
    have named := List.mem_zipIdx_iff_getElem?.mp hid
    rw [← declared, List.getElem?_map] at named
    obtain ⟨s, hs, rfl⟩ := Option.map_eq_some_iff.mp named
    use Shape.reference (s.name, id).snd s.name
    constructor
    · exact .struct (RegionSchema.struct_eq_ok.mpr hs)
    · rfl

/-- A text with a meaning refers to one of the names, and the type that it stands for is spelled
as the text. -/
theorem unfolds_of_resolveChars (declared : schema.structs.map StructSchema.name = structs)
    {text : List Char} {type : FieldType}
    (h : (ofStructs structs).resolveChars schema text = some (type, schema')) :
  TypeReference (FieldType.primitiveNames ++ structs) text ∧ schema.Grows schema'
    ∧ schema'.structs = schema.structs
    ∧ ∃ shape, schema'.Unfolds type shape ∧ shape.name.toList = text
  := by
  fun_induction (ofStructs structs).resolveChars schema text generalizing type schema' with
  | case1 rest ih =>
    obtain ⟨⟨item, schema₁⟩, hitem, h⟩ := Option.bind_eq_some_iff.mp h
    obtain ⟨reference, grows, same, shape, unfolds, spelled⟩ := ih hitem
    obtain ⟨rfl, rfl⟩ := Prod.mk.inj (Option.some.inj h)
    constructor
    · exact .list reference
    constructor
    · apply grows.trans (RegionSchema.grows_list schema₁ item)
    constructor
    · apply (RegionSchema.structs_list schema₁ item).trans same
    use .list shape, unfolds.list_fst
    rw [Shape.name, String.toList_append, spelled]
    rfl
  | case2 chars =>
    obtain ⟨found, hfound, h⟩ := Option.bind_eq_some_iff.mp h
    obtain ⟨rfl, rfl⟩ := Prod.mk.inj (Option.some.inj h)
    obtain ⟨mem, shape, unfolds, named⟩ := unfolds_of_get? declared hfound
    have reference := TypeReference.name mem
    rw [String.toList_ofList] at reference
    constructor
    · apply reference
    use .refl schema, rfl
    use shape, unfolds
    rw [named, String.toList_ofList]

/-- A text that refers to one of the names has a meaning. -/
theorem exists_resolveChars (identifiers : ∀ name ∈ structs, Identifier name.toList)
    {text : List Char} (h : TypeReference (FieldType.primitiveNames ++ structs) text)
    (schema : RegionSchema) :
  ∃ type schema', (ofStructs structs).resolveChars schema text = some (type, schema')
  := by
  induction h with
  | @name name hname =>
    have identifier := identifier_of_mem_append identifiers name hname
    unfold resolveChars
    split
    · next rest begins => exact absurd begins (identifier.ne_list rest)
    · rw [String.ofList_toList]
      cases found : (ofStructs structs).get? name with
      | none => exact absurd hname (get?_ofStructs_eq_none_iff.mp found)
      | some type =>
        use type, schema
        rfl
  | list _ ih =>
    obtain ⟨item, schema₁, hitem⟩ := ih
    exact ⟨_, _, Option.bind_eq_some_iff.mpr ⟨_, hitem, rfl⟩⟩

end Scope

end PoolGraph
