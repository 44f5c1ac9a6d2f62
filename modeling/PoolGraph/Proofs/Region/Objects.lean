import PoolGraph.Proofs.Region.Regular

/-!
# The objects of a region

`Region.Holds` says that a region has an object at a place.  Allocation adds one place
(`Region.holds_allocateStruct`) and leaves the objects that were there; putting an object in place
of another one changes no place and no other object.
-/

namespace PoolGraph

namespace Pool

/-- A new object stands behind the others. -/
theorem get?_push (pool : Pool α) (object : α) (r : Ref α) :
  (pool.push object).2.get? r = if r.index = pool.size then some object else pool.get? r
  := by
  rw [push, get?, get?, size, Array.getElem?_push]

/-- A change of one object leaves the others as they are. -/
theorem get?_modify (pool : Pool α) (r s : Ref α) (f : α → α) :
  (pool.modify r f).get? s = if r.index = s.index then (pool.get? s).map f else pool.get? s
  := by
  rw [modify, get?, get?, Array.getElem?_modify]

/-- A new object makes a pool longer by one. -/
theorem size_push (pool : Pool α) (object : α) :
  (pool.push object).2.size = pool.size + 1
  := by
  rw [push, size, size, Array.size_push]

/-- A change of one object leaves the size as it is. -/
theorem size_modify (pool : Pool α) (r : Ref α) (f : α → α) :
  (pool.modify r f).size = pool.size
  := by
  rw [modify, size, size, Array.size_modify]

/-- The places of a pool are those below its size. -/
theorem get?_eq_some_iff_lt {pool : Pool α} {r : Ref α} :
  (∃ object, pool.get? r = some object) ↔ r.index < pool.size
  := by
  rw [get?, size]
  constructor
  · rintro ⟨object, h⟩
    obtain ⟨inside, -⟩ := Array.getElem?_eq_some_iff.mp h
    apply inside
  · intro inside
    use pool.objects[r.index]
    refine Array.getElem?_eq_getElem inside

end Pool

/-- An instance is its struct and its place. -/
theorem Instance.eq_iff {a b : Instance} :
  a = b ↔ a.struct = b.struct ∧ a.index = b.index
  := by
  cases a
  cases b
  apply Eq.to_iff (Instance.mk.injEq ..)

namespace Region

/-- Whether the region has an object at this place. -/
def Holds (r : Region) (target : Instance) : Prop :=
  target.index < r.size target.struct

/-- A pool that is not there counts as one without objects. -/
theorem size_eq_getD (r : Region) (id : Nat) :
  r.size id = (r.pools[id]?.map Pool.size).getD 0
  := by
  rw [size]
  cases r.pools[id]? <;> rfl

/-- What a region holds is in one of its pools. -/
theorem Holds.lt_length_pools {r : Region} {target : Instance} (h : r.Holds target) :
  target.struct < r.pools.length
  := by
  by_contra outside
  rw [Holds, size_eq_getD, List.getElem?_eq_none (Nat.not_lt.mp outside)] at h
  cases h

/-- A region holds the instances whose object it can look up. -/
theorem holds_iff {r : Region} {target : Instance} :
  r.Holds target ↔ ∃ object, r.object target = .ok object
  := by
  simp only [object_eq_ok, Holds, size]
  cases r.pools[target.struct]? with
  | none => simp
  | some pool =>
    rw [← Pool.get?_eq_some_iff_lt (r := ⟨target.index⟩)]
    simp

/-- A regular region has one pool for each struct. -/
theorem Regular.length_pools {r : Region} (regular : r.Regular) :
  r.pools.length = r.schema.structs.length
  := by
  rw [PoolsRegular.length_eq regular, RegionSchema.widths, List.length_map]

/-- In a regular region the objects of a struct have a value for every field of the struct. -/
theorem Regular.length_of_mem_pool {r : Region} (regular : r.Regular) {id : Nat} {s : StructSchema}
    {pool : Pool Object} (hs : r.schema.structs[id]? = some s) (hpool : r.pools[id]? = some pool)
    {object : Object} (h : object ∈ pool.toList) :
  object.length = s.fields.length
  := by
  obtain ⟨j, hj⟩ := List.mem_iff_getElem?.mp h
  have found : r.object ⟨id, j⟩ = .ok object := by
    refine object_eq_ok.mpr ⟨pool, hpool, ?_⟩
    rw [Pool.get?_eq_getElem?]
    apply hj
  have width := regular.object found
  rw [RegionSchema.widths, List.getElem?_map, hs] at width
  apply (Option.some.inj width).symm

/-! ### Allocation -/

section

variable {r r' : Region} {struct : Nat} {target : Instance}

/-- A regular region has a pool for every struct of its schema. -/
theorem Regular.lt_length_pools (regular : r.Regular) {s : StructSchema}
    (h : r.schema.structs[struct]? = some s) :
  struct < r.pools.length
  := by
  obtain ⟨inside, -⟩ := List.getElem?_eq_some_iff.mp h
  rw [regular.length_pools]
  apply inside

/-- Every struct of the schema can be allocated. -/
theorem Regular.allocates (regular : r.Regular) {s : StructSchema}
    (h : r.schema.structs[struct]? = some s) :
  ∃ target r', r.allocateStruct struct = .ok (target, r')
  := ⟨_, _, allocateStruct_eq_ok.mpr ⟨s, h, regular.lt_length_pools h, rfl, rfl⟩⟩

/-- The pool of the struct gets a zero object at its end. -/
theorem pool_allocateStruct (h : r.allocateStruct struct = .ok (target, r')) :
  ∃ s pool, r.schema.structs[struct]? = some s ∧ r.pools[struct]? = some pool
    ∧ target = ⟨struct, pool.size⟩
    ∧ ∀ id, r'.pools[id]? = if struct = id then
        some (pool.push (s.fields.map fun field => Value.zero field.type)).2 else r.pools[id]?
  := by
  obtain ⟨s, hs, inside, rfl, rfl⟩ := allocateStruct_eq_ok.mp h
  have hpool := List.getElem?_eq_getElem inside
  use s, r.pools[struct], hs, hpool
  constructor
  · rw [size, hpool]
  · intro id
    rw [List.getElem?_modify]
    split
    · next here =>
      subst here
      rw [hpool]
      rfl
    · cases r.pools[id]? <;> rfl

/-- Allocating makes the pool of the struct longer by one. -/
theorem size_allocateStruct (h : r.allocateStruct struct = .ok (target, r')) (id : Nat) :
  r'.size id = if struct = id then r.size id + 1 else r.size id
  := by
  obtain ⟨s, pool, -, hpool, -, pools⟩ := pool_allocateStruct h
  rw [size_eq_getD, size_eq_getD, pools]
  split
  · next here =>
    subst here
    rw [hpool]
    apply Pool.size_push
  · rfl

/-- Allocation adds one place. -/
theorem holds_allocateStruct (h : r.allocateStruct struct = .ok (target, r')) (other : Instance) :
  r'.Holds other ↔ r.Holds other ∨ other = target
  := by
  obtain ⟨-, -, -, rfl, -⟩ := allocateStruct_eq_ok.mp h
  obtain ⟨id, index⟩ := other
  rw [Holds, Holds, size_allocateStruct h, Instance.mk.injEq]
  dsimp only
  split
  · next here =>
    subst here
    omega
  · next elsewhere =>
    constructor
    · apply Or.inl
    · rintro (inside | ⟨here, -⟩)
      · apply inside
      · exact absurd here.symm elsewhere

/-- The object of the new place is zero, and the others are as before. -/
theorem object_allocateStruct (h : r.allocateStruct struct = .ok (target, r')) {other : Instance}
    {object : Object} :
  r'.object other = .ok object ↔ r.object other = .ok object
    ∨ other = target ∧ ∃ s, r.schema.structs[struct]? = some s
      ∧ object = s.fields.map fun field => Value.zero field.type
  := by
  obtain ⟨s, pool, hs, hpool, rfl, pools⟩ := pool_allocateStruct h
  obtain ⟨id, index⟩ := other
  rw [object_eq_ok, object_eq_ok, pools, hs, Instance.mk.injEq]
  dsimp only
  split
  · next here =>
    subst here
    have fresh : pool.get? ⟨pool.size⟩ = none := by
      rw [Pool.get?, Pool.size]
      apply Array.getElem?_eq_none (Nat.le_refl _)
    simp only [hpool, Option.some.injEq, exists_eq_left', true_and, Pool.get?_push]
    split
    · next last =>
      rw [last, fresh]
      simp [eq_comm]
    · next before => simp [before]
  · next elsewhere => simp [Ne.symm elsewhere]

end

/-! ### Storing -/

section

variable (r : Region) (target : Instance) (object : Object)

/-- Storing an object changes one place of one pool. -/
theorem pool_setObject (id : Nat) :
  (r.setObject target object).pools[id]?
    = if target.struct = id then r.pools[id]?.map fun pool =>
        pool.modify ⟨target.index⟩ fun _ => object
      else r.pools[id]?
  := by
  rw [setObject, List.getElem?_modify]
  split
  · rfl
  · cases r.pools[id]? <;> rfl

/-- Storing an object leaves all sizes as they are. -/
theorem size_setObject (id : Nat) :
  (r.setObject target object).size id = r.size id
  := by
  rw [size_eq_getD, size_eq_getD, pool_setObject]
  split
  · cases r.pools[id]? with
    | none => rfl
    | some pool => apply Pool.size_modify
  · rfl

/-- Storing an object leaves the instances that are held as they are. -/
theorem holds_setObject (other : Instance) :
  (r.setObject target object).Holds other ↔ r.Holds other
  := by
  rw [Holds, Holds, size_setObject]

variable {r target}

/-- What was stored is found. -/
theorem object_setObject_self (h : r.Holds target) :
  (r.setObject target object).object target = .ok object
  := by
  obtain ⟨old, hold⟩ := holds_iff.mp h
  obtain ⟨pool, hpool, found⟩ := object_eq_ok.mp hold
  apply object_eq_ok.mpr
  rw [pool_setObject, if_pos rfl, hpool]
  refine ⟨_, rfl, ?_⟩
  rw [Pool.get?_modify, if_pos rfl, found]
  rfl

/-- Storing an object leaves the others as they are. -/
theorem object_setObject_of_ne {other : Instance} (h : other ≠ target) {found : Object} :
  (r.setObject target object).object other = .ok found ↔ r.object other = .ok found
  := by
  rw [object_eq_ok, object_eq_ok, pool_setObject]
  split
  · next here =>
    have elsewhere : target.index ≠ other.index := fun same =>
      h (Instance.eq_iff.mpr ⟨here.symm, same.symm⟩)
    cases r.pools[other.struct]? with
    | none => simp
    | some pool => simp [Pool.get?_modify, elsewhere]
  · rfl

end

end Region

end PoolGraph
