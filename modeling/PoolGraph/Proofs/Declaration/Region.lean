import PoolGraph.Declaration.Wire
import PoolGraph.Proofs.Region.Regular

/-!
# Declarations as a region

`Declarations.toRegion` is the region of `declarationSchema` with the same objects.  The bytes of
declarations, written without that schema, are the bytes of this region, and where one of the two
cannot be written the other one fails in the same way (`Declarations.serialize_toRegion`).
-/

namespace PoolGraph

/-- A view of a pool has its size. -/
theorem Pool.size_map (f : α → β) (pool : Pool α) :
  (pool.map f).size = pool.size
  := Array.size_map

/-! ### Objects -/

/-- A list of references to declarations. -/
def Value.refs [Declared α] (refs : List (Ref α)) : Value :=
  .list (refs.map fun r => .ref ⟨Declared.struct α, r.index⟩)

/-- The layout of a kind of declarations that has a name and refers to declarations of kind `α`. -/
def namedLayout (α : Type) [Declared α] (kind field : String) : StructLayout :=
  ⟨kind, [("name", .string), (field, .list (.reference (Declared.struct α) (Declared.name α)))]⟩

namespace FieldDecl

def toObject (f : FieldDecl) : Object :=
  [.string f.name, .string f.type]

def layout : StructLayout :=
  ⟨"Field", [("name", .string), ("type", .string)]⟩

end FieldDecl

namespace StructDecl

def toObject (s : StructDecl) : Object :=
  [.string s.name, .refs s.fields]

def layout : StructLayout :=
  namedLayout FieldDecl "Struct" "fields"

end StructDecl

namespace RegionDecl

def toObject (r : RegionDecl) : Object :=
  [.string r.name, .refs r.structs]

def layout : StructLayout :=
  namedLayout StructDecl "Region" "struct"

end RegionDecl

namespace SchemaDecl

def toObject (s : SchemaDecl) : Object :=
  [.refs s.regions]

def layout : StructLayout :=
  ⟨"Schemas", [("region", .list (.reference 2 "Region"))]⟩

end SchemaDecl

/-- The layout of the schema of declarations. -/
def declarationLayout : List StructLayout :=
  [FieldDecl.layout, StructDecl.layout, RegionDecl.layout, SchemaDecl.layout]

/-- The layout of the built-in schema. -/
theorem layout_declarationSchema :
  declarationSchema.layout = .ok declarationLayout
  := rfl

namespace Declarations

/-- The region with the same objects. -/
def toRegion (d : Declarations) : Region where
  schema := declarationSchema
  pools := [d.fields.map FieldDecl.toObject, d.structs.map StructDecl.toObject,
    d.regions.map RegionDecl.toObject, d.schemas.map SchemaDecl.toObject]

/-- The view has the four pools in order. -/
theorem size_toRegion (d : Declarations) :
  d.toRegion.size 0 = d.fields.size ∧ d.toRegion.size 1 = d.structs.size
    ∧ d.toRegion.size 2 = d.regions.size ∧ d.toRegion.size 3 = d.schemas.size
  := ⟨Pool.size_map .., Pool.size_map .., Pool.size_map .., Pool.size_map ..⟩

/-! ### Bytes -/

section

variable (size : Nat → Nat)

/-- References to declarations are written with the width of their pool. -/
theorem encode_refs [Declared α] (name struct field : String) (refs : List (Ref α)) :
  (Shape.list (.reference (Declared.struct α) name)).encode size struct field (.refs refs)
    = encodeRefs (size (Declared.struct α)) refs
  := by
  have item : ∀ r : Ref α, (Shape.reference (Declared.struct α) name).encode size struct field
      (.ref ⟨Declared.struct α, r.index⟩) = Encode.index r.index (size (Declared.struct α)) := by
    intro r
    simp only [Shape.encode, if_true]
  simp only [Value.refs, Shape.encode, encodeRefs, List.length_map, List.mapM_map]
  simp only [Function.comp_def, item]

/-- An object of two fields is written one after the other. -/
theorem encode_pair (kind a b : String) (x y : Shape) (v w : Value) :
  StructLayout.encode size ⟨kind, [(a, x), (b, y)]⟩ [v, w]
    = do return (← x.encode size kind a v) ++ (← y.encode size kind b w)
  := by
  simp only [StructLayout.encode, List.zip_cons_cons, List.zip_nil_right, List.mapM_cons,
    List.mapM_nil, bind_assoc, pure_bind, List.flatten_cons, List.flatten_nil, List.append_nil]

/-- A field declaration is written as its object is. -/
theorem encode_field (f : FieldDecl) :
  FieldDecl.layout.encode size f.toObject
    = do return (← Encode.string f.name) ++ (← Encode.string f.type)
  := encode_pair size ..

/-- A declaration with a name and references is written as its object is. -/
theorem encode_named [Declared α] (kind field name : String) (refs : List (Ref α)) :
  (namedLayout α kind field).encode size [.string name, .refs refs]
    = do return (← Encode.string name) ++ (← encodeRefs (size (Declared.struct α)) refs)
  := by
  rw [namedLayout, encode_pair]
  simp only [encode_refs, Shape.encode]

/-- A struct declaration is written as its object is. -/
theorem encode_struct (s : StructDecl) :
  StructDecl.layout.encode size s.toObject
    = do return (← Encode.string s.name) ++ (← encodeRefs (size 0) s.fields)
  := encode_named size ..

/-- A region declaration is written as its object is. -/
theorem encode_region (r : RegionDecl) :
  RegionDecl.layout.encode size r.toObject
    = do return (← Encode.string r.name) ++ (← encodeRefs (size 1) r.structs)
  := encode_named size ..

/-- A file declaration is written as its object is. -/
theorem encode_schemas (s : SchemaDecl) :
  SchemaDecl.layout.encode size s.toObject = encodeRefs (size 2) s.regions
  := by
  have refs := encode_refs size "Region" "Schemas" "region" s.regions
  simp only [StructLayout.encode, SchemaDecl.layout, SchemaDecl.toObject, List.zip_cons_cons,
    List.zip_nil_right, List.mapM_cons, List.mapM_nil, bind_assoc, pure_bind, List.flatten_cons,
    List.flatten_nil, List.append_nil, bind_pure]
  apply refs

/-- A pool of declarations is written declaration by declaration. -/
theorem encode_pool {s : StructLayout} {toObject : α → Object}
    {encode : α → Except CodecError (List UInt8)}
    (h : ∀ x, s.encode size (toObject x) = encode x) (pool : Pool α) :
  (pool.map toObject).toList.mapM (s.encode size) = pool.toList.mapM encode
  := by
  rw [Pool.toList_map, List.mapM_map]
  apply congrArg (List.mapM · pool.toList)
  funext x
  apply h

end

/-- The objects of the view have as many values as their layouts have fields. -/
theorem regular_toRegion (d : Declarations) :
  PoolsRegular (declarationLayout.map fun s => s.fields.length) d.toRegion.pools
  := by
  have width : ∀ {α} (toObject : α → Object) {n}, (∀ x, (toObject x).length = n) →
      ∀ pool : Pool α, ∀ object ∈ (pool.map toObject).toList, object.length = n := by
    intro α toObject n h pool object ho
    rw [Pool.toList_map] at ho
    obtain ⟨x, -, rfl⟩ := List.mem_map.mp ho
    apply h
  exact .cons (width FieldDecl.toObject (fun _ => rfl) d.fields)
    (.cons (width StructDecl.toObject (fun _ => rfl) d.structs)
      (.cons (width RegionDecl.toObject (fun _ => rfl) d.regions)
        (.cons (width SchemaDecl.toObject (fun _ => rfl) d.schemas) .nil)))

/-- The region with the objects of declarations is regular. -/
theorem regular (d : Declarations) :
  d.toRegion.Regular
  := d.regular_toRegion

/-- The pools of the view are written as the declarations are. -/
theorem encodePools_toRegion (d : Declarations) :
  encodePools declarationLayout d.toRegion.pools = d.serialize
  := by
  have sizes : d.toRegion.pools.map Pool.size
      = [d.fields.size, d.structs.size, d.regions.size, d.schemas.size] := by
    simp only [toRegion, List.map_cons, List.map_nil, Pool.size_map]
  rw [encodePools, serialize, sizes]
  apply congrArg
  funext counts
  simp only [declarationLayout, toRegion, List.zip_cons_cons, List.zip_nil_right, List.mapM_cons,
    List.mapM_nil, bind_assoc, pure_bind]
  rw [encode_pool _ (encode_field _), encode_pool _ (encode_struct _),
    encode_pool _ (encode_region _), encode_pool _ (encode_schemas _)]
  simp only [List.flatten_cons, List.flatten_nil, List.append_nil, ← List.append_assoc]
  rfl

/-- The bytes of declarations are those of the region with the same objects. -/
theorem serialize_toRegion (d : Declarations) :
  d.toRegion.serialize = .ok d.serialize
  := by
  rw [d.regular.serialize_eq layout_declarationSchema, encodePools_toRegion]

end Declarations

end PoolGraph
