import PoolGraph.Proofs.Except
import PoolGraph.Proofs.Schema.WellFormed
import PoolGraph.Proofs.SideBySide
import PoolGraph.Region.Wire

/-!
# Lookups in the binary form

`encodePools` and `decodePools` write and read pools with their sizes as known and the values of an
object side by side with its fields.  They are total, and where every lookup finds something they
are what the program does: `StructLayout.write_eq` for an object with a value for every field and
`readPools_eq` for structs that refer to one another only.
-/

namespace PoolGraph

/-! ### The binary form without lookups -/

namespace StructLayout

/-- The bytes of an object of this struct. -/
def encode (size : Nat → Nat) (s : StructLayout) (object : Object) :
    Except CodecError (List UInt8) := do
  let parts ← (s.fields.zip object).mapM fun ((field, shape), value) =>
    shape.encode size s.name field value
  return parts.flatten

/-- Reads an object of this struct. -/
def decode (size : Nat → Nat) (s : StructLayout) : Reader Object :=
  s.fields.mapM fun (_, shape) => shape.decode size

/-- The fewest bytes that an object of this struct takes. -/
def leastBytes (size : Nat → Nat) (s : StructLayout) : Nat :=
  (s.fields.map fun (_, shape) => shape.leastBytes size).sum

end StructLayout

/-- The size that a list of sizes gives a struct. -/
def sizeIn (sizes : List Nat) (struct : Nat) : Nat :=
  sizes[struct]?.getD 0

/-- The bytes of pools that hold objects of the given structs. -/
def encodePools (layout : List StructLayout) (pools : List (Pool Object)) :
    Except CodecError (List UInt8) := do
  let sizes := pools.map Pool.size
  let counts ← sizes.mapM Encode.count
  let bodies ← (layout.zip pools).mapM fun (s, pool) => do
    let objects ← pool.toList.mapM (s.encode (sizeIn sizes))
    return objects.flatten
  return counts.flatten ++ bodies.flatten

/-- The fewest bytes that pools of the given sizes take. -/
def leastPoolBytes (layout : List StructLayout) (sizes : List Nat) : Nat :=
  ((layout.zip sizes).map fun (s, size) => size * s.leastBytes (sizeIn sizes)).sum

/-- Reads the objects of pools of the given sizes. -/
def decodeObjects (layout : List StructLayout) (sizes : List Nat) :
    Reader (List (Pool Object)) :=
  (layout.zip sizes).mapM fun (s, size) => do
    return Pool.ofList (← Decode.many (s.decode (sizeIn sizes)) size)

/-- Reads pools that hold objects of the given structs.  Sizes that the bytes left cannot fill
are refused before any object is read. -/
def decodePools (layout : List StructLayout) : Reader (List (Pool Object)) := do
  let sizes ← decodeSizes layout
  if (← get).length < leastPoolBytes layout sizes then throw .endOfData
  else decodeObjects layout sizes

/-! ### Structs that are referred to -/

/-- Whether the references of a shape are to some of the first `n` structs. -/
def Shape.Below (n : Nat) : Shape → Prop
  | .reference id _ => id < n
  | .list item => item.Below n
  | _ => True

/-- Whether the references of a struct are to some of the first `n` structs. -/
def StructLayout.Below (n : Nat) (s : StructLayout) : Prop :=
  ∀ field ∈ s.fields, field.2.Below n

theorem RegionSchema.below_of_unfolds {schema : RegionSchema} {type : FieldType} {shape : Shape}
    (h : schema.Unfolds type shape) :
  shape.Below schema.structs.length
  := by
  induction h with
  | struct hs =>
    obtain ⟨inside, -⟩ := List.getElem?_eq_some_iff.mp (RegionSchema.struct_eq_ok.mp hs)
    apply inside
  | list _ _ ih => apply ih
  | _ => trivial

/-- The structs of a schema refer to one another only. -/
theorem RegionSchema.below_layout {schema : RegionSchema} {layout : List StructLayout}
    (h : schema.layout = .ok layout) :
  ∀ s ∈ layout, s.Below layout.length
  := by
  have all := Except.mapM_eq_ok.mp h
  intro s hs field hfield
  rw [← all.length_eq]
  obtain ⟨old, -, made⟩ := exists_mem_of_forall₂ all hs
  obtain ⟨fields, hfields, made⟩ := Except.bind_eq_ok.mp made
  obtain rfl := Except.ok.inj made
  obtain ⟨slot, -, made⟩ := exists_mem_of_forall₂ (Except.mapM_eq_ok.mp hfields) hfield
  obtain ⟨shape, hshape, made⟩ := Except.bind_eq_ok.mp made
  obtain rfl := Except.ok.inj made
  apply RegionSchema.below_of_unfolds (RegionSchema.unfolds_of_shapeWithin hshape)

/-! ### Lookups that succeed -/

theorem Object.value_eq_ok {object : Object} {field : Nat} {value : Value} :
  object.value field = .ok value ↔ object[field]? = some value
  := by
  unfold Object.value
  cases object[field]? with
  | none =>
    constructor
    · intro h
      cases h
    · intro h
      cases h
  | some found => rw [Except.ok.injEq, Option.some.injEq]

theorem sizeAt_eq {sizes : List Nat} {id : Nat} (inside : id < sizes.length) :
  sizeAt sizes id = .ok (sizeIn sizes id)
  := by
  rw [sizeAt, sizeIn, List.getElem?_eq_getElem inside]
  rfl

/-! ### Readers without faults -/

namespace WireReader

/-- A reader of the data alone meets no fault. -/
theorem run_lift (p : Reader α) (bytes : List UInt8) :
  (liftM p : WireReader α).run bytes = match p.run bytes with
    | .ok x rest => .ok x rest
    | .error e rest => .error (.codec e) rest
  := rfl

theorem lift_bind (p : Reader α) (f : α → Reader β) :
  (liftM (p >>= f) : WireReader β) = (liftM p : WireReader α) >>= fun x => liftM (f x)
  := by
  funext bytes
  show (liftM (p >>= f) : WireReader β).run bytes = EStateM.run _ bytes
  rw [run_lift, EStateM.run_bind, EStateM.run_bind, run_lift]
  cases p.run bytes <;> rfl

theorem lift_ite {c : Prop} [Decidable c] (p q : Reader α) :
  (liftM (if c then p else q) : WireReader α) = if c then liftM p else liftM q
  := by
  split <;> rfl

theorem lift_mapM (xs : List α) (f : α → Reader β) :
  (liftM (xs.mapM f) : WireReader (List β)) = xs.mapM fun x => liftM (f x)
  := by
  induction xs with
  | nil => rfl
  | cons x xs ih =>
    rw [List.mapM_cons, List.mapM_cons, lift_bind, ← ih]
    congr 1
    funext y
    rw [lift_bind]
    rfl

theorem lift_manyAfter (item : Reader α) (n : Nat) (before : List α) :
  (liftM (Decode.manyAfter item n before) : WireReader (List α))
    = Decode.manyAfter (liftM item : WireReader α) n before
  := by
  induction n generalizing before with
  | zero => rfl
  | succ n ih =>
    rw [Decode.manyAfter, Decode.manyAfter, lift_bind]
    congr 1
    funext x
    apply ih

theorem lift_many (item : Reader α) (n : Nat) :
  (liftM (Decode.many item n) : WireReader (List α)) = Decode.many (liftM item : WireReader α) n
  := lift_manyAfter item n []

end WireReader

section

variable {find : Nat → Except Fault Nat} {size : Nat → Nat} {n : Nat}
  (found : ∀ id < n, find id = .ok (size id))

include found

/-! ### Writing -/

/-- A value is written as it is encoded where the sizes that it needs are found. -/
theorem Shape.write_eq {shape : Shape} (below : shape.Below n) (struct field : String)
    (value : Value) :
  shape.write find struct field value
    = (shape.encode size struct field value).mapError .codec
  := by
  induction shape generalizing value with
  | reference id name =>
    cases value with
    | ref target =>
      rw [write, encode]
      split
      · rw [found id below]
        rfl
      · rfl
    | _ => rfl
  | list item ih =>
    cases value with
    | list items =>
      have parts : items.mapM (item.write find struct field)
          = (items.mapM (item.encode size struct field)).mapError .codec := by
        rw [Except.mapError_mapM]
        apply congrArg items.mapM
        funext value
        apply ih below
      rw [write, encode, parts, Except.mapError_bind]
      congr 1
      funext head
      rw [Except.mapError_bind]
      rfl
    | _ => rfl
  | integer width unsigned => cases unsigned <;> cases value <;> rfl
  | float width => cases width <;> cases value <;> rfl
  | bool => cases value <;> rfl
  | string => cases value <;> rfl

/-- An object with a value for every field is written as it is encoded. -/
theorem StructLayout.write_eq {s : StructLayout} (below : s.Below n) {object : Object}
    (width : object.length = s.fields.length) :
  s.write find object = (s.encode size object).mapError .codec
  := by
  rw [write, encode, Except.mapError_bind, Except.mapError_mapM]
  congr 1
  apply mapM_zipIdx_eq width.symm
  rintro i ⟨field, shape⟩ value hfield hvalue
  dsimp only
  rw [Nat.zero_add, Object.value_eq_ok.mpr hvalue]
  apply Shape.write_eq found (below (field, shape) (List.mem_of_getElem? hfield))

/-! ### Fewest bytes -/

theorem Shape.leastSize_eq {shape : Shape} (below : shape.Below n) :
  shape.leastSize find = .ok (shape.leastBytes size)
  := by
  cases shape with
  | reference id name =>
    rw [leastSize, found id below]
    rfl
  | _ => rfl

theorem StructLayout.leastSize_eq {s : StructLayout} (below : s.Below n) :
  s.leastSize find = .ok (s.leastBytes size)
  := by
  have parts : s.fields.mapM (fun field => field.2.leastSize find)
      = .ok (s.fields.map fun field => field.2.leastBytes size) := by
    rw [Except.mapM_eq_ok, List.forall₂_map_right_iff, List.forall₂_same]
    intro field hfield
    apply Shape.leastSize_eq found (below field hfield)
  rw [leastSize, parts]
  rfl

/-! ### Reading -/

/-- A value is read as it is decoded where the sizes that it needs are found. -/
theorem Shape.read_eq {shape : Shape} (below : shape.Below n) :
  shape.read find = liftM (shape.decode size)
  := by
  induction shape with
  | reference id name =>
    rw [read, decode, found id below, WireReader.lift_bind]
    rfl
  | list item ih =>
    rw [read, decode, ih below, WireReader.lift_bind]
    congr 1
    funext count
    rw [WireReader.lift_bind, WireReader.lift_many]
    rfl
  | integer width unsigned => cases unsigned <;> rfl
  | float width => cases width <;> rfl
  | bool => rfl
  | string => rfl

theorem StructLayout.read_eq {s : StructLayout} (below : s.Below n) :
  s.read find = liftM (s.decode size)
  := by
  rw [read, decode, WireReader.lift_mapM]
  apply mapM_congr
  intro field hfield
  apply Shape.read_eq found (below field hfield)

end

section

variable {layout : List StructLayout} {sizes : List Nat}
  (below : ∀ s ∈ layout, s.Below sizes.length)

include below

/-- The least size of pools is that without lookups. -/
theorem leastPoolSize_eq :
  leastPoolSize layout sizes = .ok (leastPoolBytes layout sizes)
  := by
  have parts : (layout.zip sizes).mapM (fun p : StructLayout × Nat => do
      return p.2 * (← p.1.leastSize (sizeAt sizes)))
      = Except.ok ((layout.zip sizes).map fun p => p.2 * p.1.leastBytes (sizeIn sizes)) := by
    rw [Except.mapM_eq_ok, List.forall₂_map_right_iff, List.forall₂_same]
    intro p hp
    rw [StructLayout.leastSize_eq (fun _ => sizeAt_eq) (below p.1 (List.of_mem_zip hp).1)]
    rfl
  apply Except.bind_eq_ok.mpr
  exact ⟨_, parts, rfl⟩

/-- Objects are read as they are decoded when there is a size for every struct referred to. -/
theorem readObjects_eq :
  readObjects layout sizes = liftM (decodeObjects layout sizes)
  := by
  rw [readObjects, decodeObjects, WireReader.lift_mapM]
  apply mapM_congr
  rintro ⟨s, size⟩ hp
  dsimp only
  rw [StructLayout.read_eq (fun _ => sizeAt_eq) (below s (List.of_mem_zip hp).1),
    ← WireReader.lift_many, WireReader.lift_bind]
  rfl

end

end PoolGraph
