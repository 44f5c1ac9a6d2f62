import PoolGraph.Proofs.Compile.TypeSafety
import PoolGraph.Proofs.Region.Refusing

/-!
# The check of values and the encoder

The binary form has the fields of a region in the order of `Region.Place.Before`.  Writing stops at
the first pool that is too large, or else at the first field whose value does not suit it
(`Region.Stops`).  So a region of a resolved schema is written exactly when no pool is too large and
every value conforms to the type of its field and holds no unset reference and nothing too long
(`Region.serialize_iff_conforms`).
-/

namespace PoolGraph

namespace Region

/-- A field of an object of a region. -/
structure Place where
  target : Instance
  field : Nat

/-- Whether a place comes before another one in the binary form.  Structs follow one another, in
each of them its objects, and in each object its fields. -/
def Place.Before (p q : Place) : Prop :=
  p.target.struct < q.target.struct
    ∨ p.target.struct = q.target.struct ∧ (p.target.index < q.target.index
      ∨ p.target.index = q.target.index ∧ p.field < q.field)

/-- Whether a value is stored at a place, which is that of a field of a struct. -/
structure Stores (r : Region) (p : Place) (s : StructSchema) (slot : Field) (value : Value) :
    Prop where
  struct : r.schema.structs[p.target.struct]? = some s
  slot : s.fields[p.field]? = some slot
  value : r.field p.target p.field = .ok value

/-- How writing a region stops. -/
inductive Stops (r : Region) : CodecError → Prop where
  /-- At the first pool that is too large. -/
  | count {id : Nat} (large : maxCount < r.size id) (before : ∀ i < id, r.size i ≤ maxCount) :
      Stops r (.countOutOfRange (r.size id))
  /-- At the first value that does not suit its field. -/
  | value {p : Place} {s : StructSchema} {slot : Field} {value : Value} {e : CodecError}
      (countable : ∀ i, r.size i ≤ maxCount) (stored : r.Stores p s slot value)
      (refused : r.Refuses s.name slot.name value slot.type e)
      (before : ∀ (q : Place) (s' : StructSchema) (slot' : Field) (value' : Value), q.Before p →
        r.Stores q s' slot' value' → r.Suits value' slot'.type) :
      Stops r e

/-- A value is found in the object of its target. -/
theorem field_eq_ok {r : Region} {target : Instance} {field : Nat} {value : Value} :
  r.field target field = .ok value
    ↔ ∃ object, r.object target = .ok object ∧ object[field]? = some value
  := by
  rw [Region.field, Except.bind_eq_ok]
  apply exists_congr
  intro object
  apply and_congr_right
  intro _
  apply Object.value_eq_ok

/-! ### Fields and their layouts -/

/-- Whether a value is stored at a place, whose field has a name and a shape in the layout of its
struct. -/
structure Lays (r : Region) (layout : List StructLayout) (p : Place) (l : StructLayout)
    (name : String) (shape : Shape) (value : Value) : Prop where
  struct : layout[p.target.struct]? = some l
  slot : l.fields[p.field]? = some (name, shape)
  value : r.field p.target p.field = .ok value

variable {r : Region} {layout : List StructLayout} {p : Place} {e : CodecError}

/-- What is stored in a field is laid out by the shape of its type. -/
theorem Stores.lays (hlayout : r.schema.layout = .ok layout) {s : StructSchema} {slot : Field}
    {value : Value} (h : r.Stores p s slot value) :
  ∃ l shape, r.Lays layout p l slot.name shape value ∧ l.name = s.name
    ∧ r.schema.Unfolds slot.type shape
  := by
  obtain ⟨l, hl, named, entries⟩ := exists_of_forall₂ (entries_of_layout hlayout) h.struct
  obtain ⟨⟨name, shape⟩, hslot, same, unfolds⟩ := exists_of_forall₂ entries h.slot
  obtain rfl : name = slot.name := same
  use l, shape
  constructor
  · exact ⟨hl, hslot, h.value⟩
  use named, unfolds

/-- What a layout lays out is stored in a field that unfolds to its shape. -/
theorem Lays.stores (hlayout : r.schema.layout = .ok layout) {l : StructLayout} {name : String}
    {shape : Shape} {value : Value} (h : r.Lays layout p l name shape value) :
  ∃ s slot, r.Stores p s slot value ∧ l.name = s.name ∧ name = slot.name
    ∧ r.schema.Unfolds slot.type shape
  := by
  obtain ⟨s, hs, named, entries⟩ := exists_of_forall₂ (entries_of_layout hlayout).flip h.struct
  obtain ⟨slot, hslot, same, unfolds⟩ := exists_of_forall₂ entries.flip h.slot
  use s, slot
  constructor
  · exact ⟨hs, hslot, h.value⟩
  use named, same, unfolds

/-- A value is laid out where pools and layouts meet. -/
theorem lays_iff {l : StructLayout} {name : String} {shape : Shape} {value : Value} :
  r.Lays layout p l name shape value ↔ ∃ pool object,
    (layout.zip r.pools)[p.target.struct]? = some (l, pool)
      ∧ pool.toList[p.target.index]? = some object
      ∧ (l.fields.zip object)[p.field]? = some ((name, shape), value)
  := by
  simp only [List.getElem?_zip_eq_some]
  constructor
  · rintro ⟨hl, hslot, hvalue⟩
    obtain ⟨object, hobject, hvalue⟩ := field_eq_ok.mp hvalue
    obtain ⟨pool, hpool, found⟩ := object_eq_ok.mp hobject
    rw [Pool.get?_eq_getElem?] at found
    use pool, object, ⟨hl, hpool⟩, found, hslot, hvalue
  · rintro ⟨pool, object, ⟨hl, hpool⟩, found, hslot, hvalue⟩
    refine ⟨hl, hslot, field_eq_ok.mpr ⟨object, object_eq_ok.mpr ⟨pool, hpool, ?_⟩, hvalue⟩⟩
    rw [Pool.get?_eq_getElem?]
    apply found

/-! ### The first failure -/

section

variable {size : Nat → Nat}

/-- An object is written if each of its values is. -/
theorem exists_encode_object_iff {l : StructLayout} {object : Object} :
  (∃ b, l.encode size object = .ok b)
    ↔ ∀ q ∈ l.fields.zip object, ∃ b, q.1.2.encode size l.name q.1.1 q.2 = .ok b
  := by
  rw [StructLayout.encode, Except.exists_bind_pure_eq_ok, Except.exists_mapM_eq_ok_iff]

/-- A pool is written if each value of each object is. -/
theorem exists_encode_pool_iff {l : StructLayout} {pool : Pool Object} :
  (∃ b, (do return (← pool.toList.mapM (l.encode size)).flatten) = Except.ok (ε := CodecError) b)
    ↔ ∀ object ∈ pool.toList, ∀ q ∈ l.fields.zip object,
      ∃ b, q.1.2.encode size l.name q.1.1 q.2 = .ok b
  := by
  rw [Except.exists_bind_pure_eq_ok, Except.exists_mapM_eq_ok_iff]
  simp only [exists_encode_object_iff]

/-- Whether all that is laid out before a place is written. -/
def WrittenBefore (r : Region) (layout : List StructLayout) (size : Nat → Nat) (p : Place) : Prop :=
  ∀ (q : Place) (l : StructLayout) (name : String) (shape : Shape) (value : Value), q.Before p →
    r.Lays layout q l name shape value → ∃ b, shape.encode size l.name name value = .ok b

/-- Writing the objects fails at the first place at which a value cannot be written. -/
theorem encodeObjects_eq_error :
  ((layout.zip r.pools).mapM fun (l, pool) => do
      return (← pool.toList.mapM (l.encode size)).flatten) = .error e
    ↔ ∃ p l name shape value, r.Lays layout p l name shape value
      ∧ shape.encode size l.name name value = .error e ∧ r.WrittenBefore layout size p
  := by
  constructor
  · intro h
    obtain ⟨i, ⟨l, pool⟩, hi, failed, pools⟩ := Except.mapM_eq_error.mp h
    obtain ⟨j, object, hj, failed, objects⟩ :=
      Except.mapM_eq_error.mp (Except.bind_pure_eq_error.mp failed)
    obtain ⟨k, ⟨⟨name, shape⟩, value⟩, hk, failed, values⟩ :=
      Except.mapM_eq_error.mp (Except.bind_pure_eq_error.mp failed)
    use ⟨⟨i, j⟩, k⟩, l, name, shape, value
    constructor
    · apply lays_iff.mpr ⟨pool, object, hi, hj, hk⟩
    constructor
    · apply failed
    intro ⟨⟨i', j'⟩, k'⟩ l' name' shape' value' earlier lays
    obtain ⟨pool', object', hi', hj', hk'⟩ := lays_iff.mp lays
    rcases earlier with less | ⟨rfl, less | ⟨rfl, less⟩⟩
    · exact exists_encode_pool_iff.mp (pools i' _ less hi') object' (List.mem_of_getElem? hj') _
        (List.mem_of_getElem? hk')
    · obtain ⟨rfl, rfl⟩ := Prod.mk.inj (Option.some.inj (hi.symm.trans hi'))
      apply exists_encode_object_iff.mp (objects j' _ less hj') _ (List.mem_of_getElem? hk')
    · obtain ⟨rfl, rfl⟩ := Prod.mk.inj (Option.some.inj (hi.symm.trans hi'))
      obtain rfl := Option.some.inj (hj.symm.trans hj')
      apply values k' _ less hk'
  · rintro ⟨⟨⟨i, j⟩, k⟩, l, name, shape, value, lays, failed, written⟩
    obtain ⟨pool, object, hi, hj, hk⟩ := lays_iff.mp lays
    refine Except.mapM_eq_error.mpr ⟨i, (l, pool), hi, Except.bind_pure_eq_error.mpr ?_, ?_⟩
    · refine Except.mapM_eq_error.mpr ⟨j, object, hj, Except.bind_pure_eq_error.mpr ?_, ?_⟩
      · refine Except.mapM_eq_error.mpr ⟨k, _, hk, failed, ?_⟩
        intro k' ⟨⟨name', shape'⟩, value'⟩ less hk'
        apply written ⟨⟨i, j⟩, k'⟩ l name' shape' value' (.inr ⟨rfl, .inr ⟨rfl, less⟩⟩)
        exact lays_iff.mpr ⟨pool, object, hi, hj, hk'⟩
      · intro j' object' less hj'
        refine exists_encode_object_iff.mpr fun ⟨⟨name', shape'⟩, value'⟩ hq => ?_
        obtain ⟨k', hk'⟩ := List.mem_iff_getElem?.mp hq
        apply written ⟨⟨i, j'⟩, k'⟩ l name' shape' value' (.inr ⟨rfl, .inl less⟩)
        exact lays_iff.mpr ⟨pool, object', hi, hj', hk'⟩
    · intro i' ⟨l', pool'⟩ less hi'
      refine exists_encode_pool_iff.mpr fun object' ho ⟨⟨name', shape'⟩, value'⟩ hq => ?_
      obtain ⟨j', hj'⟩ := List.mem_iff_getElem?.mp ho
      obtain ⟨k', hk'⟩ := List.mem_iff_getElem?.mp hq
      apply written ⟨⟨i', j'⟩, k'⟩ l' name' shape' value' (.inl less)
      exact lays_iff.mpr ⟨pool', object', hi', hj', hk'⟩

/-- Writing the objects succeeds when all that is laid out is written. -/
theorem exists_encodeObjects_iff :
  (∃ bodies, ((layout.zip r.pools).mapM fun (l, pool) => do
      return (← pool.toList.mapM (l.encode size)).flatten) = .ok bodies)
    ↔ ∀ p l name shape value, r.Lays layout p l name shape value →
      ∃ b, shape.encode size l.name name value = .ok b
  := by
  rw [Except.exists_mapM_eq_ok_iff]
  constructor
  · intro written p l name shape value lays
    obtain ⟨pool, object, hi, hj, hk⟩ := lays_iff.mp lays
    exact exists_encode_pool_iff.mp (written _ (List.mem_of_getElem? hi)) object
      (List.mem_of_getElem? hj) _ (List.mem_of_getElem? hk)
  · intro written ⟨l, pool⟩ hp
    refine exists_encode_pool_iff.mpr fun object ho ⟨⟨name, shape⟩, value⟩ hq => ?_
    obtain ⟨i, hi⟩ := List.mem_iff_getElem?.mp hp
    obtain ⟨j, hj⟩ := List.mem_iff_getElem?.mp ho
    obtain ⟨k, hk⟩ := List.mem_iff_getElem?.mp hq
    exact written ⟨⟨i, j⟩, k⟩ l name shape value (lays_iff.mpr ⟨pool, object, hi, hj, hk⟩)

end

/-! ### Counts of pools -/

/-- The sizes are those of the pools, in order. -/
theorem getElem?_sizes {id n : Nat} (h : (r.pools.map Pool.size)[id]? = some n) :
  r.size id = n
  := by
  rw [size_eq_getD, ← List.getElem?_map, h, Option.getD_some]

/-- Only the size of a pool is large. -/
theorem getElem?_sizes_of_lt {id n : Nat} (h : n < r.size id) :
  (r.pools.map Pool.size)[id]? = some (r.size id)
  := by
  rw [size_eq_getD, ← List.getElem?_map] at h ⊢
  cases found : (r.pools.map Pool.size)[id]? with
  | none =>
    rw [found] at h
    cases h
  | some size => rfl

/-- The counts are written if none is too large. -/
theorem exists_encodeCounts_iff :
  (∃ counts, (r.pools.map Pool.size).mapM Encode.count = .ok counts) ↔ ∀ i, r.size i ≤ maxCount
  := by
  rw [Except.exists_mapM_eq_ok_iff]
  constructor
  · intro counted i
    by_contra large
    have here := getElem?_sizes_of_lt (Nat.lt_of_not_le large)
    obtain ⟨b, hb⟩ := counted _ (List.mem_of_getElem? here)
    apply large (Encode.le_maxCount_of_count hb)
  · intro countable n hn
    obtain ⟨i, hi⟩ := List.mem_iff_getElem?.mp hn
    apply Encode.exists_count
    rw [← getElem?_sizes hi]
    apply countable i

/-- The first count that is too large is reported. -/
theorem encodeCounts_eq_error :
  (r.pools.map Pool.size).mapM Encode.count = .error e
    ↔ ∃ id, maxCount < r.size id ∧ (∀ i < id, r.size i ≤ maxCount)
      ∧ e = .countOutOfRange (r.size id)
  := by
  rw [Except.mapM_eq_error]
  constructor
  · rintro ⟨id, n, hn, failed, before⟩
    obtain rfl := getElem?_sizes hn
    obtain ⟨large, rfl⟩ := Encode.count_eq_error.mp failed
    use id, large
    constructor
    · intro i less
      by_contra other
      obtain ⟨b, hb⟩ := before i _ less (getElem?_sizes_of_lt (Nat.lt_of_not_le other))
      apply other (Encode.le_maxCount_of_count hb)
    · rfl
  · rintro ⟨id, large, before, rfl⟩
    refine ⟨id, _, getElem?_sizes_of_lt large, Encode.count_eq_error.mpr ⟨large, rfl⟩, ?_⟩
    intro i n less hn
    apply Encode.exists_count
    rw [← getElem?_sizes hn]
    apply before i less

/-! ### Regions -/

section

variable (wf : r.schema.WellFormed) (regular : r.Regular) (hlayout : r.schema.layout = .ok layout)

include wf

/-- The type of a field that stores a value is known. -/
theorem Stores.knows {s : StructSchema} {slot : Field} {value : Value}
    (h : r.Stores p s slot value) :
  r.schema.Knows slot.type
  := wf.fields s (List.mem_of_getElem? h.struct) slot (List.mem_of_getElem? h.slot)

include regular hlayout

/-- What is laid out is written when every value suits its field. -/
theorem forall_lays_iff {P : Place → Prop} :
  (∀ p l name shape value, P p → r.Lays layout p l name shape value →
      ∃ b, shape.encode r.size l.name name value = .ok b)
    ↔ ∀ p s slot value, P p → r.Stores p s slot value → r.Suits value slot.type
  := by
  constructor
  · intro written p s slot value hp stored
    obtain ⟨l, shape, lays, -, unfolds⟩ := stored.lays hlayout
    apply (encode_eq_ok_iff wf regular (stored.knows wf) unfolds).mp
    apply written p l slot.name shape value hp lays
  · intro suits p l name shape value hp lays
    obtain ⟨s, slot, stored, -, -, unfolds⟩ := lays.stores hlayout
    apply (encode_eq_ok_iff wf regular (stored.knows wf) unfolds).mpr
    apply suits p s slot value hp stored

/-- Writing fails with the first thing that stops it. -/
theorem encodePools_eq_error :
  encodePools layout r.pools = .error e ↔ r.Stops e
  := by
  rw [encodePools, Except.bind_eq_error, encodeCounts_eq_error, sizeIn_sizes]
  constructor
  · rintro (⟨id, large, before, rfl⟩ | ⟨counts, hcounts, h⟩)
    · exact .count large before
    rw [Except.bind_pure_eq_error] at h
    obtain ⟨p, l, name, shape, value, lays, failed, before⟩ := encodeObjects_eq_error.mp h
    obtain ⟨s, slot, stored, named, rfl, unfolds⟩ := lays.stores hlayout
    rw [named, encode_eq_error_iff wf regular (stored.knows wf) unfolds] at failed
    refine .value (exists_encodeCounts_iff.mp ⟨counts, hcounts⟩) stored failed ?_
    exact (forall_lays_iff wf regular hlayout (P := fun q => q.Before p)).mp before
  · rintro (⟨large, before⟩ | ⟨countable, stored, refused, before⟩)
    · exact .inl ⟨_, large, before, rfl⟩
    right
    obtain ⟨counts, hcounts⟩ := exists_encodeCounts_iff.mpr countable
    use counts, hcounts
    refine Except.bind_pure_eq_error.mpr (encodeObjects_eq_error.mpr ?_)
    obtain ⟨l, shape, lays, named, unfolds⟩ := stored.lays hlayout
    rw [← named, ← encode_eq_error_iff wf regular (stored.knows wf) unfolds] at refused
    refine ⟨_, l, _, shape, _, lays, refused, ?_⟩
    exact (forall_lays_iff wf regular hlayout (P := fun q => q.Before _)).mpr before

/-- Pools are written if the counts fit and every value suits its field. -/
theorem exists_encodePools_iff :
  (∃ b, encodePools layout r.pools = .ok b) ↔ (∀ i, r.size i ≤ maxCount)
    ∧ ∀ p s slot value, r.Stores p s slot value → r.Suits value slot.type
  := by
  have values := forall_lays_iff wf regular hlayout (P := fun _ => True)
  simp only [true_implies] at values
  rw [← exists_encodeCounts_iff, ← values, ← exists_encodeObjects_iff, encodePools, sizeIn_sizes]
  constructor
  · rintro ⟨b, h⟩
    obtain ⟨counts, hcounts, h⟩ := Except.bind_eq_ok.mp h
    constructor
    · use counts, hcounts
    · apply Except.exists_bind_pure_eq_ok.mp ⟨b, h⟩
  · rintro ⟨⟨counts, hcounts⟩, bodies⟩
    obtain ⟨b, hb⟩ := Except.exists_bind_pure_eq_ok.mpr bodies
    use b
    apply Except.bind_eq_ok.mpr ⟨counts, hcounts, hb⟩

end

/-- A region of a resolved schema is written exactly when no pool is too large and every value
conforms to the type of its field and holds no unset reference and nothing too long; otherwise
writing stops as the first of these that fails says.  Every reachable region is regular
(`Reachable.regular`). -/
theorem serialize_iff_conforms {d : Declarations} {root : Ref SchemaDecl}
    {schemas : List RegionSchema} (hresolve : (d.resolve root).run = .ok (.ok schemas))
    (hschema : r.schema ∈ schemas) (regular : r.Regular) :
  ∃ result, r.serialize = .ok result
    ∧ ((∃ b, result = .ok b) ↔ (∀ i, r.size i ≤ maxCount)
      ∧ ∀ p s slot value, r.Stores p s slot value →
        r.conforms value slot.type = .ok true ∧ value.Writable)
    ∧ ∀ e, result = .error e ↔ r.Stops e
  := by
  have wf := Declarations.wellFormed_of_resolve hresolve r.schema hschema
  obtain ⟨layout, hlayout⟩ := wf.layout
  use encodePools layout r.pools, regular.serialize_eq hlayout
  constructor
  · apply exists_encodePools_iff wf regular hlayout
  · intro e
    apply encodePools_eq_error wf regular hlayout

/-- Two nodes, of which the first has a row with a reference to a sixth one and the second has no
successor. -/
def straying : Region :=
  ⟨nodes, [.ofList [[.ref ⟨0, 0⟩, .list [.list [.ref ⟨0, 1⟩, .ref ⟨0, 5⟩]]], [.null, .list []]]]⟩

/-- A region with a reference that strays is regular. -/
theorem regular_straying :
  straying.Regular
  := by
  simp [Regular, straying, nodes, PoolsRegular, RegionSchema.widths]

/-- The reference to the sixth node comes first. -/
theorem serialize_iff_conforms_straying :
  (∃ result, straying.serialize = .ok result
    ∧ ((∃ b, result = .ok b) ↔ (∀ i, straying.size i ≤ maxCount)
      ∧ ∀ p s slot value, straying.Stores p s slot value →
        straying.conforms value slot.type = .ok true ∧ value.Writable)
    ∧ ∀ e, result = .error e ↔ straying.Stops e)
    ∧ straying.serialize = .ok (.error (.indexOutOfRange 5 2))
  := by
  constructor
  · apply serialize_iff_conforms resolve_nodeDeclarations (List.mem_singleton_self nodes)
    apply regular_straying
  · rfl

end Region

end PoolGraph
