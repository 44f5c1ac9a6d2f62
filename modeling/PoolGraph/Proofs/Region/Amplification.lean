import Mathlib.Algebra.BigOperators.Group.List.Basic
import PoolGraph.Proofs.Compile.TypeSafety
import PoolGraph.Proofs.Region.Filling

/-!
# How much a few bytes can announce

A reference to the only object of its pool takes no byte, and an object takes none when all its
fields are such references.  So a count alone can announce any number of these
(`Region.length_lt_stuffed`).  Everything else that is read has bytes of its own: the other
objects and the other items of lists are together no more than the bytes, and more objects than
bytes are refused before any is made (`Region.bulk_le_length`).
-/

namespace PoolGraph

namespace Value

mutual

/-- The items of lists in a value, at every depth. -/
def elements : Value → List Value
  | .list items => withElements items
  | _ => []

/-- Values and the items of lists in them. -/
def withElements : List Value → List Value
  | [] => []
  | value :: rest => value :: value.elements ++ withElements rest

end

/-- Whether a value takes bytes in pools of the given sizes. -/
def takesBytes (size : Nat → Nat) : Value → Bool
  | .ref target => decide (1 < size target.struct)
  | _ => true

theorem countP_withElements (p : Value → Bool) (items : List Value) :
  (withElements items).countP p
    = (items.map fun v => (p v).toNat + v.elements.countP p).sum
  := by
  induction items with
  | nil => rfl
  | cons v rest ih =>
    rw [withElements, List.countP_append, List.countP_cons, ih, List.map_cons, List.sum_cons,
      Nat.add_comm (v.elements.countP p)]
    cases p v <;> rfl

end Value

/-- Whether a field of this type takes bytes in pools of the given sizes. -/
def FieldType.takesBytes (size : Nat → Nat) : FieldType → Bool
  | .struct id => decide (1 < size id)
  | _ => true

/-- Whether an object of this struct takes bytes in pools of the given sizes. -/
def StructSchema.takesBytes (size : Nat → Nat) (s : StructSchema) : Bool :=
  s.fields.any fun field => field.type.takesBytes size

/-- The number of objects that take bytes in pools of the given sizes. -/
def RegionSchema.bulk (schema : RegionSchema) (sizes : List Nat) : Nat :=
  ((schema.structs.zip sizes).map fun (s, n) => if s.takesBytes (sizeIn sizes) then n else 0).sum

/-- The items of lists in a region, at every depth. -/
def Region.elements (r : Region) : List Value :=
  r.pools.flatMap fun pool => pool.toList.flatMap fun object => object.flatMap Value.elements

/-! ### Values -/

theorem indexWidth_pos_iff {cardinality : Nat} :
  0 < indexWidth cardinality ↔ 1 < cardinality
  := by
  unfold indexWidth
  split
  · omega
  · split
    · omega
    · split <;> omega

namespace Shape

variable {size : Nat → Nat} {shape : Shape} {v : Value} {b : List UInt8}

theorem leastBytes_pos_iff :
  0 < shape.leastBytes size ↔ ∀ id name, shape = .reference id name → 1 < size id
  := by
  cases shape with
  | integer width unsigned => simp [leastBytes, width.bytes_pos]
  | float width => cases width <;> simp [leastBytes, FloatWidth.bytes]
  | reference id name => simp [leastBytes, indexWidth_pos_iff]
  | _ => simp [leastBytes]

/-- What takes bytes has a spelling that is not empty. -/
theorem leastBytes_pos (h : shape.Spells size v b) (takes : v.takesBytes size = true) :
  0 < shape.leastBytes size
  := by
  apply leastBytes_pos_iff.mpr
  rintro id name rfl
  obtain ⟨i, rfl, -⟩ := h
  apply of_decide_eq_true takes

theorem countP_le_of_flat (h : shape.Spells size v b) (flat : v.elements = []) :
  (v.takesBytes size).toNat + v.elements.countP (Value.takesBytes size) ≤ b.length
  := by
  have least : (v.takesBytes size).toNat ≤ shape.leastBytes size := by
    cases takes : v.takesBytes size with
    | false => apply Nat.zero_le
    | true => apply leastBytes_pos h takes
  rw [flat, List.countP_nil, Nat.add_zero]
  apply Nat.le_trans least (leastBytes_le h)

/-- A value and the items in it that take bytes have bytes of their own. -/
theorem countP_le_length (h : shape.Spells size v b) :
  (v.takesBytes size).toNat + v.elements.countP (Value.takesBytes size) ≤ b.length
  := by
  induction shape generalizing v b with
  | list item ih =>
    obtain ⟨items, head, parts, rfl, hn, hall, rfl⟩ := h
    have inside := sum_le_length_flatten (hall.imp fun _ _ => ih)
    rw [← Value.countP_withElements] at inside
    rw [List.length_append, Encode.length_of_count hn]
    apply Nat.add_le_add _ inside
    apply Nat.succ_le_succ (Nat.zero_le 3)
  | integer width unsigned =>
    apply countP_le_of_flat h
    cases unsigned <;>
      · obtain ⟨_, rfl, -⟩ := h
        rfl
  | float width =>
    apply countP_le_of_flat h
    cases width <;>
      · obtain ⟨_, rfl, -⟩ := h
        rfl
  | _ =>
    apply countP_le_of_flat h
    obtain ⟨_, rfl, -⟩ := h
    rfl

/-- Whether a value takes bytes is known from the type of its field. -/
theorem takesBytes_eq {schema : RegionSchema} {type : FieldType}
    (unfolds : schema.Unfolds type shape) (h : shape.Spells size v b) :
  v.takesBytes size = type.takesBytes size
  := by
  cases unfolds with
  | integer width unsigned =>
    cases unsigned <;>
      · obtain ⟨_, rfl, -⟩ := h
        rfl
  | float width =>
    cases width <;>
      · obtain ⟨_, rfl, -⟩ := h
        rfl
  | list hitem inner =>
    obtain ⟨_, _, _, rfl, -⟩ := h
    rfl
  | _ =>
    obtain ⟨_, rfl, -⟩ := h
    rfl

end Shape

/-! ### Objects -/

theorem any_add_sum_le (p : α → Bool) (f : α → Nat) (xs : List α) :
  (xs.any p).toNat + (xs.map f).sum ≤ (xs.map fun x => (p x).toNat + f x).sum
  := by
  induction xs with
  | nil => apply Nat.le_refl
  | cons x xs ih =>
    have first : (p x || xs.any p).toNat ≤ (p x).toNat + (xs.any p).toNat := by
      cases p x <;> cases xs.any p <;> decide
    rw [List.any_cons, List.map_cons, List.sum_cons, List.map_cons, List.sum_cons]
    omega

section

variable {schema : RegionSchema} {s : StructSchema} {l : StructLayout} {size : Nat → Nat}
  (entries : List.Forall₂ (fun (field : Field) (p : String × Shape) =>
    p.1 = field.name ∧ schema.Unfolds field.type p.2) s.fields l.fields)

include entries

/-- An object and the items in it that take bytes have bytes of their own. -/
theorem countP_object_le {object : Object} {b : List UInt8} (h : l.Spells size object b) :
  (s.takesBytes size).toNat + (object.flatMap Value.elements).countP (Value.takesBytes size)
    ≤ b.length
  := by
  obtain ⟨width, parts, hall, rfl⟩ := h
  have same : s.fields.length = object.length := by
    rw [entries.length_eq, width]
  have own : ∀ (q : Field × Value) part, (∃ p : String × Shape,
      (p.1 = q.1.name ∧ schema.Unfolds q.1.type p.2) ∧ p.2.Spells size q.2 part) →
      (q.1.type.takesBytes size).toNat + q.2.elements.countP (Value.takesBytes size)
        ≤ part.length := by
    rintro q part ⟨p, ⟨-, unfolds⟩, spelled⟩
    rw [← Shape.takesBytes_eq unfolds spelled]
    apply Shape.countP_le_length spelled
  have fields : s.takesBytes size
      = (s.fields.zip object).any fun q => q.1.type.takesBytes size := by
    conv => lhs; rw [StructSchema.takesBytes, ← List.map_fst_zip (Nat.le_of_eq same), List.any_map]
    rfl
  have values : (object.flatMap Value.elements).countP (Value.takesBytes size)
      = ((s.fields.zip object).map fun q => q.2.elements.countP (Value.takesBytes size)).sum := by
    conv => lhs; rw [List.countP_flatMap, ← List.map_snd_zip (Nat.le_of_eq same.symm), List.map_map]
    rfl
  rw [fields, values]
  apply Nat.le_trans (any_add_sum_le _ _ _)
  apply sum_le_length_flatten ((forall₂_zip_of entries hall).imp own)

/-- The objects of a pool and the items in them that take bytes have bytes of their own. -/
theorem countP_pool_le {pool : Pool Object} {b : List UInt8} (h : l.SpellsPool size pool b) :
  (if s.takesBytes size then pool.size else 0)
      + (pool.toList.flatMap fun object => object.flatMap Value.elements).countP
        (Value.takesBytes size)
    ≤ b.length
  := by
  obtain ⟨parts, hall, rfl⟩ := h
  have total := sum_le_length_flatten (hall.imp fun _ _ => countP_object_le entries)
  rw [List.sum_map_add, List.map_const', List.sum_replicate_nat, Pool.length_toList] at total
  rw [List.countP_flatMap]
  cases takes : s.takesBytes size with
  | false =>
    rw [takes, Bool.toNat_false, Nat.mul_zero] at total
    apply total
  | true =>
    rw [takes, Bool.toNat_true, Nat.mul_one] at total
    apply total

/-- An object that takes bytes takes at least one. -/
theorem leastBytes_pos_of_takesBytes (takes : s.takesBytes size = true) :
  0 < l.leastBytes size
  := by
  obtain ⟨⟨field, type⟩, hfield, here⟩ := List.any_eq_true.mp takes
  obtain ⟨i, hi⟩ := List.mem_iff_getElem?.mp hfield
  obtain ⟨⟨name, shape⟩, hp, -, unfolds⟩ := exists_of_forall₂ entries hi
  have some : 0 < shape.leastBytes size := by
    apply Shape.leastBytes_pos_iff.mpr
    rintro id name rfl
    cases unfolds
    apply of_decide_eq_true here
  apply List.sum_pos_iff_exists_pos_nat.mpr
  exact ⟨_, List.mem_map.mpr ⟨(name, shape), List.mem_of_getElem? hp, rfl⟩, some⟩

end

/-! ### Pools -/

theorem countP_elements {schema : RegionSchema} {pools : List (Pool Object)}
    (same : schema.structs.length = pools.length) (p : Value → Bool) :
  (Region.mk schema pools).elements.countP p = ((schema.structs.zip pools).map fun q =>
    (q.2.toList.flatMap fun object => object.flatMap Value.elements).countP p).sum
  := by
  conv =>
    lhs
    rw [Region.elements, List.countP_flatMap, ← List.map_snd_zip (Nat.le_of_eq same.symm),
      List.map_map]
  rfl

section

variable {schema : RegionSchema} {layout : List StructLayout} (hlayout : schema.layout = .ok layout)

include hlayout

/-- The check of the sizes asks for no less than a byte for every object that takes bytes. -/
theorem bulk_le_leastPoolBytes (sizes : List Nat) :
  schema.bulk sizes ≤ leastPoolBytes layout sizes
  := by
  have entries := Region.entries_of_layout hlayout
  rw [RegionSchema.bulk, leastPoolBytes]
  generalize sizeIn sizes = size
  clear hlayout
  generalize schema.structs = structs at entries
  induction entries generalizing sizes with
  | nil => apply Nat.le_refl
  | @cons s l structs layout entry _ ih =>
    cases sizes with
    | nil => apply Nat.le_refl
    | cons n sizes =>
      simp only [List.zip_cons_cons, List.map_cons, List.sum_cons]
      apply Nat.add_le_add _ (ih sizes)
      split
      · next takes =>
        apply Nat.le_mul_of_pos_right
        apply leastBytes_pos_of_takesBytes entry.2 takes
      · apply Nat.zero_le

/-- What takes bytes in pools has bytes of its own, as every size has. -/
theorem bulk_le_of_poolsSpell {pools : List (Pool Object)} {b : List UInt8}
    (h : PoolsSpell layout pools b) :
  schema.bulk (pools.map Pool.size)
      + (Region.mk schema pools).elements.countP (Value.takesBytes (Region.mk schema pools).size)
      + 4 * schema.structs.length
    ≤ b.length
  := by
  have entries := Region.entries_of_layout hlayout
  obtain ⟨same, counts, bodies, hcounts, hall, rfl⟩ := h
  have structs : schema.structs.length = pools.length := by
    rw [entries.length_eq, same]
  -- The sizes and the objects are spelled one behind the other and are counted apart.
  have front : ((pools.map Pool.size).map fun _ => 4).sum ≤ counts.flatten.length := by
    apply sum_le_length_flatten (hcounts.imp _)
    intro n part h
    apply Nat.le_of_eq (Encode.length_of_count h).symm
  have back := sum_le_length_flatten ((forall₂_zip_of entries hall).imp
    fun _ _ ⟨_, entry, spelled⟩ => countP_pool_le entry.2 spelled)
  have objects : schema.bulk (pools.map Pool.size) = ((schema.structs.zip pools).map fun p =>
      if p.1.takesBytes (sizeIn (pools.map Pool.size)) then p.2.size else 0).sum := by
    rw [RegionSchema.bulk, List.zip_map_right, List.map_map]
    rfl
  rw [List.sum_map_add, ← objects, ← countP_elements structs, Region.sizeIn_sizes ⟨schema, pools⟩]
    at back
  rw [List.map_const', List.sum_replicate_nat, List.length_map, ← structs] at front
  rw [List.length_append]
  omega

end

namespace Region

/-- Bytes that are accepted are at least as many as the objects and the items of lists that take
bytes and four for every struct.  When sizes announce more objects that take bytes than there are
bytes behind them, they are refused with the end of the data. -/
theorem bulk_le_length {d : Declarations} {root : Ref SchemaDecl} {schemas : List RegionSchema}
    (hresolve : (d.resolve root).run = .ok (.ok schemas)) {s : Region}
    (hschema : s.schema ∈ schemas) (empty : s.isEmpty = true) (bytes : List UInt8) :
  (∀ r, s.deserialize bytes = .ok (.ok r) →
    r.schema.bulk r.sizes + r.elements.countP (Value.takesBytes r.size)
        + 4 * r.schema.structs.length
      ≤ bytes.length)
    ∧ ∀ sizes counts rest, sizes.length = s.schema.structs.length →
      sizes.mapM Encode.count = .ok counts → bytes = counts.flatten ++ rest →
      rest.length < s.schema.bulk sizes → s.deserialize bytes = .ok (.error .endOfData)
  := by
  constructor
  · intro r h
    obtain ⟨-, layout, rest, hlayout, hrun, schema⟩ := deserialize_eq_ok.mp h
    obtain ⟨b, spelled, rfl⟩ := (accepts_decodePools layout _ _ _).mp hrun
    have paid := bulk_le_of_poolsSpell (schema ▸ hlayout) spelled
    rw [List.length_append]
    apply Nat.le_trans paid (Nat.le_add_right _ _)
  · rintro sizes counts rest same counted rfl more
    have wf := Declarations.wellFormed_of_resolve hresolve s.schema hschema
    obtain ⟨layout, hlayout⟩ := wf.layout
    have structs := (entries_of_layout hlayout).length_eq
    have read : (decodeSizes layout).run (counts.flatten ++ rest) = .ok sizes rest :=
      (accepts_decodeSizes layout).run_append
        ⟨same.trans structs, counts, Except.mapM_eq_ok.mp counted, rfl⟩ rest
    have short : rest.length < leastPoolBytes layout sizes :=
      Nat.lt_of_lt_of_le more (bulk_le_leastPoolBytes hlayout sizes)
    rw [deserialize_eq empty hlayout, readWith, run_decodePoolsWith, read]
    simp only [Bool.true_and, short, decide_true, if_true]

/-- Two nodes that succeed each other, and a row of both of them. -/
def mates : Region :=
  ⟨nodes, [.ofList [[.ref ⟨0, 1⟩, .list [.list [.ref ⟨0, 0⟩, .ref ⟨0, 1⟩]]],
    [.ref ⟨0, 0⟩, .list []]]]⟩

/-- The bytes of the two nodes. -/
def mateBytes : List UInt8 :=
  [2, 0, 0, 0, 1, 1, 0, 0, 0, 2, 0, 0, 0, 0, 1, 0, 0, 0, 0, 0]

/-- Two nodes, three items and a size need no more than the bytes, and three nodes do not go into
one byte. -/
theorem bulk_le_length_mates :
  mates.schema.bulk mates.sizes + mates.elements.countP (Value.takesBytes mates.size)
      + 4 * mates.schema.structs.length
    ≤ mateBytes.length
    ∧ (Region.empty nodes).deserialize [3, 0, 0, 0, 7] = .ok (.error .endOfData)
  := by
  have empty := isEmpty_empty nodes
  have known := List.mem_singleton_self nodes
  constructor
  · apply (bulk_le_length resolve_nodeDeclarations known empty _).1 mates
    rfl
  · apply (bulk_le_length resolve_nodeDeclarations known empty _).2 [3] [[3, 0, 0, 0]] [7]
    · rfl
    · rfl
    · rfl
    · decide

/-- The declarations of a dot, which has no fields, and of a bag of bags. -/
def bagDeclarations : Declarations where
  fields := .ofList [⟨"all", "[]Bag"⟩]
  structs := .ofList [⟨"Dot", []⟩, ⟨"Bag", [⟨0⟩]⟩]
  regions := .ofList [⟨"Bags", [⟨0⟩, ⟨1⟩]⟩]
  schemas := .ofList [⟨[⟨0⟩]⟩]

/-- The schema of dots and bags. -/
def bags : RegionSchema :=
  ⟨"Bags", [⟨"Dot", []⟩, ⟨"Bag", [⟨"all", .list 0⟩]⟩], [.struct 1]⟩

theorem resolve_bagDeclarations :
  (bagDeclarations.resolve ⟨0⟩).run = .ok (.ok [bags])
  := by
  have compiled : compiled? (bagDeclarations.resolve ⟨0⟩).run = some [bags] := by
    decide +kernel
  apply eq_of_compiled? compiled

/-- Twenty dots and a bag that holds itself twenty times. -/
def stuffed : Region :=
  ⟨bags, [.ofList (List.replicate 20 []), .ofList [[.list (List.replicate 20 (.ref ⟨1, 0⟩))]]]⟩

/-- Dots take no bytes, nor do references to the only bag.  So there are more objects than bytes,
and more items of lists than bytes. -/
theorem length_lt_stuffed :
  (bagDeclarations.resolve ⟨0⟩).run = .ok (.ok [bags])
    ∧ (Region.empty bags).deserialize [20, 0, 0, 0, 1, 0, 0, 0, 20, 0, 0, 0] = .ok (.ok stuffed)
    ∧ [20, 0, 0, 0, 1, 0, 0, 0, 20, 0, 0, 0].length < stuffed.sizes.sum
    ∧ [20, 0, 0, 0, 1, 0, 0, 0, 20, 0, 0, 0].length < stuffed.elements.length
  := ⟨resolve_bagDeclarations, rfl, by decide, by decide⟩

end Region

end PoolGraph
