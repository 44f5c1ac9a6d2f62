import PoolGraph.Proofs.Region.Extension
import PoolGraph.Proofs.Region.WellTyped

/-!
# Objects behind those of another region

`Region.followedBy` puts the objects of one region behind those of another one of the same schema.
A reference between objects that are put there moves with them (`Value.shift`).  Allocating and
storing in the region behind are allocating and storing in the whole, at the places that moved
(`Region.Parallel.allocate`, `Region.Parallel.assign`), and the objects in front stay as they are
(`Region.object_followedBy_of_front`).
-/

namespace PoolGraph

/-- The place of an object behind as many others of its struct. -/
def Instance.shift (base : Nat → Nat) (target : Instance) : Instance :=
  ⟨target.struct, base target.struct + target.index⟩

namespace Value

mutual

/-- A value in which every reference leads past as many objects of its struct. -/
def shift (base : Nat → Nat) : Value → Value
  | .ref target => .ref (target.shift base)
  | .list items => .list (shiftItems base items)
  | value => value

/-- Values in which every reference leads past as many objects of its struct. -/
def shiftItems (base : Nat → Nat) : List Value → List Value
  | [] => []
  | item :: rest => item.shift base :: shiftItems base rest

end

variable {base size : Nat → Nat}

/-- The items of a list are shifted one by one. -/
theorem shiftItems_eq_map (items : List Value) :
  shiftItems base items = items.map (shift base)
  := by
  induction items with
  | nil => rfl
  | cons item rest ih => rw [shiftItems, ih, List.map_cons]

/-- A list is shifted item by item. -/
theorem shift_list (items : List Value) :
  (list items).shift base = .list (items.map (shift base))
  := by
  rw [shift, shiftItems_eq_map]

/-- The value a field begins with holds no reference. -/
theorem shift_zero (type : FieldType) :
  (zero type).shift base = zero type
  := by
  cases type with
  | integer width unsigned => cases unsigned <;> rfl
  | _ => rfl

end Value

/-- A new object is not changed by a shift. -/
theorem StructSchema.map_shift_zero (base : Nat → Nat) (s : StructSchema) :
  s.zero.map (Value.shift base) = s.zero
  := by
  rw [zero, List.map_map]
  apply List.map_congr_left
  intro field _
  apply Value.shift_zero

/-! ### Lists -/

/-- A change behind the front is a change of the back. -/
theorem modify_append_right (front back : List α) (i : Nat) (f : α → α) :
  (front ++ back).modify (front.length + i) f = front ++ back.modify i f
  := by
  induction front with
  | nil => rw [List.length_nil, Nat.zero_add, List.nil_append, List.nil_append]
  | cons x front ih =>
    rw [List.cons_append, List.length_cons, Nat.add_right_comm, List.modify_succ_cons, ih,
      List.cons_append]

theorem map_modify_const (f : α → β) (xs : List α) (i : Nat) (x : α) :
  (xs.modify i fun _ => x).map f = (xs.map f).modify i fun _ => f x
  := by
  apply List.ext_getElem?
  intro j
  simp only [List.getElem?_map, List.getElem?_modify, Option.map_eq_map, Option.map_map]
  apply congrFun
  apply congrArg Option.map
  funext y
  simp only [Function.comp_apply, apply_ite f]

/-! ### Pools -/

namespace Pool

/-- The objects of a pool behind those of another one, with their references moved. -/
def followedBy (base : Nat → Nat) (front back : Pool Object) : Pool Object :=
  .ofList (front.toList ++ back.toList.map (List.map (Value.shift base)))

variable {base : Nat → Nat} (front back : Pool Object)

/-- A pool that follows another adds its objects. -/
theorem size_followedBy :
  (front.followedBy base back).size = front.size + back.size
  := by
  rw [followedBy, size_ofList, List.length_append, List.length_map, length_toList, length_toList]

/-- The objects of the front stay where they are. -/
theorem get?_followedBy_of_front {r : Ref Object} {object : Object}
    (h : front.get? r = some object) :
  (front.followedBy base back).get? r = some object
  := by
  rw [get?_eq_getElem?] at h
  rw [get?_eq_getElem?, followedBy, toList_ofList,
    List.getElem?_append_left (List.getElem?_eq_some_iff.mp h).1, h]

/-- The objects of the back stand behind those of the front, shifted. -/
theorem get?_followedBy (i : Nat) :
  (front.followedBy base back).get? ⟨front.size + i⟩
    = (back.get? ⟨i⟩).map (List.map (Value.shift base))
  := by
  rw [get?_eq_getElem?, get?_eq_getElem?, followedBy, toList_ofList, ← length_toList,
    List.getElem?_append_right (Nat.le_add_right _ _), Nat.add_sub_cancel_left, List.getElem?_map]

theorem followedBy_empty :
  front.followedBy base empty = front
  := by
  rw [← toList_inj, followedBy, toList_ofList]
  apply List.append_nil

/-- A new object at the back is the last one of both. -/
theorem followedBy_push (object : Object) :
  front.followedBy base (back.push object).2
    = ((front.followedBy base back).push (object.map (Value.shift base))).2
  := by
  rw [← toList_inj, toList_push, followedBy, followedBy, toList_ofList, toList_ofList, toList_push,
    List.map_append, List.append_assoc]
  rfl

/-- A change at the back is a change behind the front. -/
theorem followedBy_modify (i : Nat) (object : Object) :
  front.followedBy base (back.modify ⟨i⟩ fun _ => object)
    = (front.followedBy base back).modify ⟨front.size + i⟩ fun _ => object.map (Value.shift base)
  := by
  rw [← toList_inj, toList_modify, followedBy, followedBy, toList_ofList, toList_ofList,
    toList_modify, map_modify_const, ← length_toList, modify_append_right]

end Pool

/-! ### Regions -/

namespace Region

/-- The objects of a region behind those of another one, with their references moved. -/
def followedBy (front back : Region) : Region :=
  ⟨front.schema, List.zipWith (Pool.followedBy front.size) front.pools back.pools⟩

/-- Whether two regions have the same schema and as many pools. -/
structure Parallel (front back : Region) : Prop where
  schema_eq : back.schema = front.schema
  length_eq : back.pools.length = front.pools.length

variable {front back back' : Region}

/-- Beside each pool of the back stands one of the front. -/
theorem Parallel.exists_front (parallel : front.Parallel back) {id : Nat} {pool : Pool Object}
    (h : back.pools[id]? = some pool) :
  ∃ old, front.pools[id]? = some old ∧ front.size id = old.size
    ∧ (front.followedBy back).pools[id]? = some (old.followedBy front.size pool)
  := by
  obtain ⟨inside, -⟩ := List.getElem?_eq_some_iff.mp h
  rw [parallel.length_eq] at inside
  have hold := List.getElem?_eq_getElem inside
  refine ⟨_, hold, ?_, List.getElem?_zipWith_eq_some.mpr ⟨_, pool, hold, h, rfl⟩⟩
  rw [size_eq_getD, hold]
  rfl

/-- Where the back has no pool the front has none. -/
theorem Parallel.pools_eq_none (parallel : front.Parallel back) {id : Nat}
    (h : back.pools[id]? = none) :
  front.pools[id]? = none ∧ (front.followedBy back).pools[id]? = none
  := by
  have outside := List.getElem?_eq_none_iff.mp h
  rw [parallel.length_eq] at outside
  have none := List.getElem?_eq_none outside
  constructor
  · apply none
  rw [followedBy, List.getElem?_zipWith, none, h]

/-- A region without objects can follow any region of its schema. -/
theorem parallel_empty (regular : front.Regular) :
  front.Parallel (empty front.schema)
  where
  schema_eq := rfl
  length_eq := by rw [regular.length_pools, empty, List.length_replicate]

/-- Nothing is added by a region without objects. -/
theorem followedBy_empty (regular : front.Regular) :
  front.followedBy (empty front.schema) = front
  := by
  apply ext_pools
  · rfl
  intro id
  rw [followedBy, List.getElem?_zipWith, empty, List.getElem?_replicate, ← regular.length_pools]
  by_cases inside : id < front.pools.length
  · rw [List.getElem?_eq_getElem inside, if_pos inside]
    apply congrArg some
    apply Pool.followedBy_empty
  · rw [List.getElem?_eq_none (Nat.not_lt.mp inside)]

theorem size_followedBy (parallel : front.Parallel back) :
  (front.followedBy back).size = fun id => front.size id + back.size id
  := by
  funext id
  cases h : back.pools[id]? with
  | none =>
    obtain ⟨none, neither⟩ := parallel.pools_eq_none h
    rw [size_eq_getD, size_eq_getD, size_eq_getD, none, neither, h]
    rfl
  | some pool =>
    obtain ⟨old, -, size, both⟩ := parallel.exists_front h
    rw [size, size_eq_getD, size_eq_getD, both, h]
    apply Pool.size_followedBy

/-- The objects of the region in front are found where they were. -/
theorem object_followedBy_of_front (parallel : front.Parallel back) {target : Instance}
    {object : Object} (h : front.object target = .ok object) :
  (front.followedBy back).object target = .ok object
  := by
  obtain ⟨old, hold, found⟩ := object_eq_ok.mp h
  obtain ⟨inside, -⟩ := List.getElem?_eq_some_iff.mp hold
  rw [← parallel.length_eq] at inside
  obtain ⟨_, hold', -, both⟩ := parallel.exists_front (List.getElem?_eq_getElem inside)
  obtain rfl := Option.some.inj (hold.symm.trans hold')
  exact object_eq_ok.mpr ⟨_, both, Pool.get?_followedBy_of_front old _ found⟩

/-- The objects of the region behind are found where references to them lead. -/
theorem object_followedBy (parallel : front.Parallel back) {target : Instance} {object : Object}
    (h : back.object target = .ok object) :
  (front.followedBy back).object (target.shift front.size)
    = .ok (object.map (Value.shift front.size))
  := by
  obtain ⟨pool, hpool, found⟩ := object_eq_ok.mp h
  obtain ⟨old, -, size, both⟩ := parallel.exists_front hpool
  refine object_eq_ok.mpr ⟨_, both, ?_⟩
  rw [Instance.shift, size, Pool.get?_followedBy, found]
  rfl

/-! ### Allocating and storing -/

/-- Allocating behind other objects is allocating in the whole. -/
theorem Parallel.allocate (parallel : front.Parallel back) {name : String}
    {target? : Option Instance} (h : back.allocate name = .ok (target?, back')) :
  front.Parallel back'
    ∧ (front.followedBy back).allocate name
      = .ok (target?.map (Instance.shift front.size), front.followedBy back')
  := by
  rcases allocate_eq_ok.mp h with ⟨id, target, hid, rfl, hallocate⟩ | ⟨hname, rfl, rfl⟩
  · obtain ⟨s, hs, inside, rfl, rfl⟩ := allocateStruct_eq_ok.mp hallocate
    rw [parallel.schema_eq] at hid hs
    constructor
    · use parallel.schema_eq
      rw [List.length_modify, parallel.length_eq]
    apply allocate_eq_ok.mpr
    refine .inl ⟨id, _, hid, rfl, allocateStruct_eq_ok.mpr ⟨s, hs, ?_, ?_, ?_⟩⟩
    · rw [followedBy, List.length_zipWith, ← parallel.length_eq, Nat.min_self]
      apply inside
    · rw [Instance.shift, size_followedBy parallel]
    · rw [followedBy, followedBy, Region.mk.injEq]
      constructor
      · rfl
      apply zipWith_modify
      intro old pool _
      rw [Pool.followedBy_push, ← StructSchema.zero, StructSchema.map_shift_zero]
  · rw [parallel.schema_eq] at hname
    constructor
    · apply parallel
    · exact allocate_eq_ok.mpr (.inr ⟨hname, rfl, rfl⟩)

/-- Storing an object at the back is storing it, shifted, behind the front. -/
theorem followedBy_setObject (front back : Region) (target : Instance) (object : Object) :
  front.followedBy (back.setObject target object)
    = (front.followedBy back).setObject (target.shift front.size)
        (object.map (Value.shift front.size))
  := by
  rw [setObject, setObject, followedBy, followedBy, Region.mk.injEq]
  constructor
  · rfl
  apply zipWith_modify
  intro old pool hold
  rw [Pool.followedBy_modify, Instance.shift, size_eq_getD, hold]
  rfl

mutual

/-- A value conforms to a type behind other objects exactly when it does without them. -/
theorem Parallel.conforms (parallel : front.Parallel back) (value : Value) (type : FieldType) :
  (front.followedBy back).conforms (value.shift front.size) type = back.conforms value type
  := by
  cases value with
  | ref target =>
    cases type with
    | struct id =>
      rw [Value.shift, Region.conforms, Region.conforms, Instance.shift]
      dsimp only
      split
      · next same =>
        subst same
        cases h : back.pools[target.struct]? with
        | none =>
          rw [poolSize, poolSize, Region.pool, Region.pool, (parallel.pools_eq_none h).2, h]
          rfl
        | some pool =>
          obtain ⟨old, -, size, both⟩ := parallel.exists_front h
          rw [poolSize, poolSize, pool_eq_ok.mpr both, pool_eq_ok.mpr h]
          apply congrArg Except.ok
          rw [Pool.size_followedBy, size]
          simp only [Nat.add_lt_add_iff_left]
      · rfl
    | integer width unsigned => cases unsigned <;> rfl
    | _ => rfl
  | list items =>
    rw [Value.shift_list]
    cases type with
    | list id =>
      have schema : (front.followedBy back).schema = back.schema := parallel.schema_eq.symm
      rw [Region.conforms, Region.conforms, schema]
      congr 1
      funext type
      apply parallel.itemsConform items type
    | integer width unsigned => cases unsigned <;> rfl
    | _ => rfl
  | _ =>
    cases type with
    | integer width unsigned => cases unsigned <;> rfl
    | _ => rfl

/-- Items conform behind the front as they do alone. -/
theorem Parallel.itemsConform (parallel : front.Parallel back) (items : List Value)
    (type : FieldType) :
  (front.followedBy back).itemsConform (items.map (Value.shift front.size)) type
    = back.itemsConform items type
  := by
  cases items with
  | nil => rfl
  | cons item rest =>
    rw [List.map_cons, Region.itemsConform, Region.itemsConform, parallel.conforms item type,
      parallel.itemsConform rest type]

end

/-- Storing behind other objects is storing in the whole. -/
theorem Parallel.assign (parallel : front.Parallel back) {target : Instance} {field : Nat}
    {value : Value} (h : back.assign target field value = .ok back') :
  front.Parallel back'
    ∧ (front.followedBy back).assign (target.shift front.size) field (value.shift front.size)
      = .ok (front.followedBy back')
  := by
  obtain ⟨s, slot, hs, hslot, fits⟩ := assign_eq_ok h
  obtain ⟨object, hobject, inside, rfl⟩ := setField_eq_ok.mp (setField_of_assign h)
  rw [parallel.schema_eq] at hs
  rw [← parallel.conforms] at fits
  constructor
  · refine ⟨parallel.schema_eq, ?_⟩
    rw [setObject, List.length_modify, parallel.length_eq]
  · have unchecked : (front.followedBy back).assign (target.shift front.size) field
          (value.shift front.size)
        = (front.followedBy back).setField (target.shift front.size) field
          (value.shift front.size) := assign_eq_setField hs hslot fits
    rw [unchecked, followedBy_setObject, List.map_set]
    refine setField_eq_ok.mpr ⟨_, object_followedBy parallel hobject, ?_, rfl⟩
    rw [List.length_map]
    apply inside

end Region

end PoolGraph
