import PoolGraph.Proofs.Region.Objects

/-!
# Adding objects

`Region.extend` adds objects to a region one after another, each to the pool of its struct, so that
what was there stays in front (`Region.pools_extend`).  Allocation adds a zero object
(`Region.allocateStruct_eq_extend`), and putting another object in place of the first one that was
added is the same as adding that one instead (`Region.setObject_extend`).
-/

namespace PoolGraph

/-- An object for the pool of a struct. -/
structure Added where
  struct : Nat
  object : Object

/-- Those of the added objects that go to the pool of a struct. -/
def Added.of (id : Nat) (added : List Added) : List Object :=
  (added.filter fun a => a.struct = id).map Added.object

/-- The sizes of pools to which objects were added. -/
def Added.sizes (size : Nat → Nat) (added : List Added) (id : Nat) : Nat :=
  size id + (Added.of id added).length

/-- The references to objects that are added one after another. -/
def Added.places (size : Nat → Nat) : List Added → List Instance
  | [] => []
  | a :: rest => ⟨a.struct, size a.struct⟩ :: Added.places (Added.sizes size [a]) rest

/-- The zero object of a struct. -/
def StructSchema.zero (s : StructSchema) : Object :=
  s.fields.map fun field => Value.zero field.type

namespace Added

variable {id : Nat} {a : Added} {added more : List Added}

/-- What is added to a pool comes first among what is added to it. -/
theorem of_cons_self (object : Object) :
  Added.of id (⟨id, object⟩ :: added) = object :: Added.of id added
  := by
  rw [Added.of, List.filter_cons_of_pos (by simp), List.map_cons, Added.of]

/-- What is added to another pool is passed over. -/
theorem of_cons_of_ne (h : a.struct ≠ id) :
  Added.of id (a :: added) = Added.of id added
  := by
  rw [Added.of, List.filter_cons_of_neg (by simpa using h), Added.of]

/-- What two lists add to a pool is added one behind the other. -/
theorem of_append :
  Added.of id (added ++ more) = Added.of id added ++ Added.of id more
  := by
  rw [Added.of, List.filter_append, List.map_append, Added.of, Added.of]

/-- Two lists make the pools longer one after the other. -/
theorem sizes_append (size : Nat → Nat) (added more : List Added) :
  Added.sizes size (added ++ more) = Added.sizes (Added.sizes size added) more
  := by
  funext id
  rw [sizes, sizes, sizes, of_append, List.length_append, Nat.add_assoc]

/-- What an object holds plays no role for the sizes of the pools. -/
theorem sizes_singleton (size : Nat → Nat) (id : Nat) (object object' : Object) :
  Added.sizes size [⟨id, object⟩] = Added.sizes size [⟨id, object'⟩]
  := by
  funext other
  by_cases here : id = other
  · subst here
    rw [sizes, sizes, of_cons_self, of_cons_self]
    rfl
  · rw [sizes, sizes, of_cons_of_ne here, of_cons_of_ne here]

/-- The second list has its places behind those of the first. -/
theorem places_append (size : Nat → Nat) (added more : List Added) :
  places size (added ++ more) = places size added ++ places (Added.sizes size added) more
  := by
  induction added generalizing size with
  | nil =>
    have none : Added.sizes size [] = size := rfl
    rw [none]
    rfl
  | cons a added ih =>
    rw [List.cons_append, places, ih, ← sizes_append, List.singleton_append]
    rfl

/-- Each object is placed in the pool of its struct. -/
theorem struct_places (size : Nat → Nat) (added : List Added) :
  (places size added).map Instance.struct = added.map Added.struct
  := by
  induction added generalizing size with
  | nil => rfl
  | cons a added ih => rw [places, List.map_cons, List.map_cons, ih]

/-- References to objects that are added lead behind those that were there. -/
theorem le_index_of_mem_places {size : Nat → Nat} {target : Instance}
    (h : target ∈ places size added) :
  size target.struct ≤ target.index
  := by
  induction added generalizing size with
  | nil => cases h
  | cons a added ih =>
    rcases List.mem_cons.mp h with rfl | later
    · apply Nat.le_refl _
    · have behind := ih later
      apply Nat.le_trans (Nat.le_add_right _ _) behind

/-- No two objects are given one place. -/
theorem nodup_places (size : Nat → Nat) (added : List Added) :
  (places size added).Nodup
  := by
  induction added generalizing size with
  | nil => apply List.nodup_nil
  | cons a added ih =>
    refine List.nodup_cons.mpr ⟨fun again => ?_, ih _⟩
    have behind : Added.sizes size [a] a.struct ≤ size a.struct := le_index_of_mem_places again
    rw [sizes, of_cons_self] at behind
    apply Nat.not_succ_le_self _ behind

end Added

namespace Region

/-- The region with an object added to the pool of a struct. -/
def add (r : Region) (a : Added) : Region :=
  { r with pools := r.pools.modify a.struct fun pool => (pool.push a.object).2 }

/-- The region with objects added one after another. -/
def extend (r : Region) (added : List Added) : Region :=
  added.foldl add r

variable {r r' : Region} {a : Added} {added more : List Added}

/-- Regions with the same schema and the same pools are the same. -/
theorem ext_pools (schema : r.schema = r'.schema)
    (pools : ∀ id : Nat, r.pools[id]? = r'.pools[id]?) :
  r = r'
  := by
  cases r
  cases r'
  exact (Region.mk.injEq ..).mpr ⟨schema, List.ext_getElem? pools⟩

/-- Objects may be added all at once or in two parts. -/
theorem extend_append :
  r.extend (added ++ more) = (r.extend added).extend more
  := List.foldl_append

/-- Adding objects does not change the schema. -/
theorem schema_extend (r : Region) (added : List Added) :
  (r.extend added).schema = r.schema
  := by
  induction added generalizing r with
  | nil => rfl
  | cons a added ih => apply ih

/-- The added objects stand behind those that were there. -/
theorem pools_extend (r : Region) (added : List Added) (id : Nat) :
  (r.extend added).pools[id]?
    = r.pools[id]?.map fun pool => Pool.ofList (pool.toList ++ Added.of id added)
  := by
  induction added generalizing r with
  | nil =>
    rw [extend, List.foldl_nil]
    cases r.pools[id]? with
    | none => rfl
    | some pool =>
      rw [Option.map_some, Added.of, List.filter_nil, List.map_nil, List.append_nil]
      rfl
  | cons a added ih =>
    have first : (r.add a).pools[id]?
        = (fun pool => if a.struct = id then (pool.push a.object).2 else pool) <$> r.pools[id]? :=
      List.getElem?_modify ..
    show ((r.add a).extend added).pools[id]? = _
    rw [ih, first, Option.map_eq_map, Option.map_map]
    congr 1
    funext pool
    by_cases here : a.struct = id
    · obtain ⟨_, object⟩ := a
      obtain rfl := here
      simp only [Function.comp_apply, if_true, Pool.toList_push, Added.of_cons_self,
        List.append_assoc, List.singleton_append]
    · simp only [Function.comp_apply, if_neg here, Added.of_cons_of_ne here]

/-- Adding objects makes no pool. -/
theorem length_pools_extend (r : Region) (added : List Added) :
  (r.extend added).pools.length = r.pools.length
  := by
  induction added generalizing r with
  | nil => rfl
  | cons a added ih =>
    show ((r.add a).extend added).pools.length = _
    rw [ih, add, List.length_modify]

/-- A pool has its own objects and those that were added to it. -/
theorem size_extend_of_lt {id : Nat} (inside : id < r.pools.length) :
  (r.extend added).size id = Added.sizes r.size added id
  := by
  rw [size_eq_getD, pools_extend, Added.sizes, size_eq_getD, List.getElem?_eq_getElem inside]
  simp

/-- The pools grow by the objects that go to them, when all objects are of structs that exist. -/
theorem size_extend (known : ∀ a ∈ added, a.struct < r.pools.length) :
  (r.extend added).size = Added.sizes r.size added
  := by
  funext id
  by_cases inside : id < r.pools.length
  · apply size_extend_of_lt inside
  · have outside : ∀ a ∈ added, ¬ decide (a.struct = id) = true := by
      intro a ha same
      apply inside
      rw [← of_decide_eq_true same]
      apply known a ha
    have none : r.pools[id]? = none := List.getElem?_eq_none (Nat.not_lt.mp inside)
    rw [size_eq_getD, pools_extend, Added.sizes, size_eq_getD, none, Added.of,
      List.filter_eq_nil_iff.mpr outside]
    rfl

/-! ### Allocating and storing -/

/-- Allocating is adding a blank object. -/
theorem allocateStruct_eq_extend (regular : r.Regular) {struct : Nat} {s : StructSchema}
    (hs : r.schema.structs[struct]? = some s) :
  r.allocateStruct struct = .ok (⟨struct, r.size struct⟩, r.extend [⟨struct, s.zero⟩])
  := allocateStruct_eq_ok.mpr ⟨s, hs, regular.lt_length_pools hs, rfl, rfl⟩

section

variable {struct : Nat} (inside : struct < r.pools.length) (object object' : Object)

include inside

/-- The first object added to a pool stands where the pool ended. -/
theorem get?_extend_first :
  ∃ pool, (r.extend (⟨struct, object⟩ :: added)).pools[struct]? = some pool
    ∧ pool.get? ⟨r.size struct⟩ = some object
  := by
  rw [pools_extend, List.getElem?_eq_getElem inside, Option.map_some]
  refine ⟨_, rfl, ?_⟩
  rw [size_eq_getD, List.getElem?_eq_getElem inside, Added.of_cons_self, Pool.get?, Pool.ofList,
    List.getElem?_toArray]
  simp [← Pool.length_toList]

/-- The first object that was added is found behind those that were there. -/
theorem object_extend_first :
  (r.extend (⟨struct, object⟩ :: added)).object ⟨struct, r.size struct⟩ = .ok object
  := object_eq_ok.mpr (get?_extend_first inside object)

/-- Another object in place of the first one that was added. -/
theorem setObject_extend :
  (r.extend (⟨struct, object⟩ :: added)).setObject ⟨struct, r.size struct⟩ object'
    = r.extend (⟨struct, object'⟩ :: added)
  := by
  apply ext_pools
  · rw [setObject, schema_extend, schema_extend]
  intro id
  rw [pool_setObject, pools_extend, pools_extend]
  by_cases here : struct = id
  · subst here
    have last : r.size struct = r.pools[struct].toList.length := by
      rw [size_eq_getD, List.getElem?_eq_getElem inside, Pool.length_toList]
      rfl
    rw [if_pos rfl, List.getElem?_eq_getElem inside, Option.map_some, Option.map_some,
      Option.map_some, Added.of_cons_self, Added.of_cons_self, last]
    apply congrArg some
    rw [← Pool.toList_inj, Pool.modify, Pool.toList, Array.toList_modify]
    show (r.pools[struct].toList ++ object :: Added.of struct added).modify
      r.pools[struct].toList.length (fun _ => object') = _
    rw [modify_append_length, Pool.toList_ofList]
  · rw [if_neg here, Added.of_cons_of_ne here, Added.of_cons_of_ne here]

end

/-- Every object that was added is found where its reference leads. -/
theorem object_extend (known : ∀ a ∈ added, a.struct < r.pools.length) :
  List.Forall₂ (fun a target => (r.extend added).object target = .ok a.object) added
    (Added.places r.size added)
  := by
  induction added generalizing r with
  | nil => exact .nil
  | cons a added ih =>
    obtain ⟨inside, others⟩ := List.forall_mem_cons.mp known
    refine .cons (object_extend_first inside a.object) ?_
    have later := ih (r := r.extend [a]) (by simpa only [length_pools_extend] using others)
    rw [size_extend (List.forall_mem_singleton.mpr inside)] at later
    apply later

end Region

end PoolGraph
