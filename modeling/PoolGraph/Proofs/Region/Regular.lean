import PoolGraph.Proofs.Region.Pools
import PoolGraph.Proofs.Schema.Names

/-!
# Regular regions

`Region.Regular` says that a region has a pool for every struct of its schema and every object
a value for every field of its struct.  It holds of the empty region and is kept by everything
that changes a region; it says nothing about what the values are.
-/

namespace PoolGraph

/-! ### Widths -/

/-- The number of fields of every struct. -/
def RegionSchema.widths (schema : RegionSchema) : List Nat :=
  schema.structs.map fun s => s.fields.length

/-- A layout has one shape for each field of its structs. -/
theorem RegionSchema.layout_widths {schema : RegionSchema} {layout : List StructLayout}
    (h : schema.layout = .ok layout) :
  layout.map (fun s => s.fields.length) = schema.widths
  := by
  have all := Except.mapM_eq_ok.mp h
  rw [widths]
  clear h
  generalize schema.structs = structs at all
  induction all with
  | nil => rfl
  | cons hs _ ih =>
    obtain ⟨fields, hfields, hs⟩ := Except.bind_eq_ok.mp hs
    obtain rfl := Except.ok.inj hs
    rw [List.map_cons, List.map_cons, ih, (Except.mapM_eq_ok.mp hfields).length_eq]

/-- Pools stay regular if the objects of the changed one keep their number of values. -/
theorem PoolsRegular.modify {widths : List Nat} {pools : List (Pool Object)}
    (h : PoolsRegular widths pools) {struct : Nat} {f : Pool Object → Pool Object}
    (hf : ∀ n pool, widths[struct]? = some n → (∀ object ∈ pool.toList, object.length = n) →
      ∀ object ∈ (f pool).toList, object.length = n) :
  PoolsRegular widths (pools.modify struct f)
  := by
  induction h generalizing struct with
  | nil =>
    rw [List.modify_nil]
    exact .nil
  | @cons n pool widths pools hpool rest ih =>
    cases struct with
    | zero =>
      rw [List.modify_zero_cons]
      exact .cons (hf n pool rfl hpool) rest
    | succ struct =>
      rw [List.modify_succ_cons]
      apply List.Forall₂.cons hpool
      apply ih
      intro m pool hm
      apply hf m pool
      rw [List.getElem?_cons_succ, hm]

/-- An object of a pool with one place changed is an old one or the changed one. -/
theorem Pool.mem_modify {pool : Pool α} {r : Ref α} {f : α → α} {object : α}
    (h : object ∈ (pool.modify r f).toList) :
  object ∈ pool.toList ∨ ∃ old, pool.get? r = some old ∧ object = f old
  := by
  rw [Pool.toList, Pool.modify, Array.toList_modify] at h
  obtain ⟨i, hi⟩ := List.mem_iff_getElem?.mp h
  rw [List.getElem?_modify] at hi
  obtain ⟨old, hold, rfl⟩ := Option.map_eq_some_iff.mp hi
  split
  · next here =>
    subst here
    right
    exact ⟨old, by rw [← hold, get?, Array.getElem?_toList], rfl⟩
  · left
    apply List.mem_of_getElem? hold

namespace Region

/-- Whether there is a pool for every struct and in every object a value for every field. -/
def Regular (r : Region) : Prop :=
  PoolsRegular r.schema.widths r.pools

/-- A region without objects is regular. -/
theorem regular_empty (schema : RegionSchema) :
  (empty schema).Regular
  := by
  rw [Regular, empty, RegionSchema.widths]
  induction schema.structs with
  | nil => exact .nil
  | cons s structs ih =>
    apply List.Forall₂.cons _ ih
    rintro object ⟨⟩

theorem isEmpty_empty (schema : RegionSchema) :
  (empty schema).isEmpty = true
  := by
  apply List.all_eq_true.mpr
  intro pool hpool
  rw [List.eq_of_mem_replicate hpool]
  rfl

theorem size_empty (schema : RegionSchema) (struct : Nat) :
  (empty schema).size struct = 0
  := by
  rw [size, empty, List.getElem?_replicate]
  by_cases inside : struct < schema.structs.length
  · rw [if_pos inside]
    rfl
  · rw [if_neg inside]

/-! ### Pools -/

/-- A pool is found at its place, and a place out of bounds is a fault. -/
theorem pool_eq_ok {r : Region} {struct : Nat} {pool : Pool Object} :
  r.pool struct = .ok pool ↔ r.pools[struct]? = some pool
  := by
  unfold Region.pool
  cases r.pools[struct]? with
  | none =>
    constructor
    · intro h
      cases h
    · intro h
      cases h
  | some found => rw [Except.ok.injEq, Option.some.injEq]

/-- The size of a pool that is looked up is the size that the region gives its struct. -/
theorem size_of_pool {r : Region} {struct : Nat} {pool : Pool Object}
    (h : r.pool struct = .ok pool) :
  r.size struct = pool.size
  := by
  rw [size, pool_eq_ok.mp h]

/-- The pool of a struct that has one is looked up without a fault. -/
theorem exists_pool {r : Region} {struct : Nat} (inside : struct < r.pools.length) :
  ∃ pool, r.pool struct = .ok pool
  := by
  use r.pools[struct]
  apply pool_eq_ok.mpr
  apply List.getElem?_eq_getElem inside

/-- The size of a pool is the number of its objects. -/
theorem poolSize_eq_ok {r : Region} {struct n : Nat} :
  r.poolSize struct = .ok n ↔ struct < r.pools.length ∧ n = r.size struct
  := by
  rw [poolSize, Except.bind_eq_ok]
  constructor
  · rintro ⟨pool, hpool, h⟩
    obtain rfl := Except.ok.inj h
    obtain ⟨inside, -⟩ := List.getElem?_eq_some_iff.mp (pool_eq_ok.mp hpool)
    rw [size_of_pool hpool]
    use inside
  · rintro ⟨inside, rfl⟩
    obtain ⟨pool, hpool⟩ := exists_pool inside
    rw [size_of_pool hpool]
    use pool, hpool
    rfl

/-- The size of a pool stands in the list of all sizes. -/
theorem sizeIn_sizes (r : Region) :
  sizeIn (r.pools.map Pool.size) = r.size
  := by
  funext id
  rw [sizeIn, size, List.getElem?_map]
  cases r.pools[id]? <;> rfl

/-! ### Allocation -/

/-- An object is allocated where both the struct and its pool exist, and behind the others. -/
theorem allocateStruct_eq_ok {r r' : Region} {struct : Nat} {target : Instance} :
  r.allocateStruct struct = .ok (target, r') ↔ ∃ s, r.schema.structs[struct]? = some s
    ∧ struct < r.pools.length ∧ target = ⟨struct, r.size struct⟩
    ∧ r' = { r with pools := r.pools.modify struct fun pool =>
        (pool.push (s.fields.map fun field => Value.zero field.type)).2 }
  := by
  unfold allocateStruct
  constructor
  · intro h
    obtain ⟨s, hs, h⟩ := Except.bind_eq_ok.mp h
    obtain ⟨n, hn, h⟩ := Except.bind_eq_ok.mp h
    obtain ⟨inside, rfl⟩ := poolSize_eq_ok.mp hn
    obtain ⟨rfl, rfl⟩ := Prod.mk.inj (Except.ok.inj h)
    use s, RegionSchema.struct_eq_ok.mp hs, inside
  · rintro ⟨s, hs, inside, rfl, rfl⟩
    rw [RegionSchema.struct_eq_ok.mpr hs, poolSize_eq_ok.mpr ⟨inside, rfl⟩]
    rfl

/-- A new object does not change the schema. -/
theorem schema_allocateStruct {r r' : Region} {struct : Nat} {target : Instance}
    (h : r.allocateStruct struct = .ok (target, r')) :
  r'.schema = r.schema
  := by
  obtain ⟨s, -, -, -, rfl⟩ := allocateStruct_eq_ok.mp h
  rfl

/-- A new object has one value for each field. -/
theorem Regular.allocateStruct {r r' : Region} {struct : Nat} {target : Instance}
    (regular : r.Regular) (h : r.allocateStruct struct = .ok (target, r')) :
  r'.Regular
  := by
  obtain ⟨s, hs, -, -, rfl⟩ := allocateStruct_eq_ok.mp h
  apply PoolsRegular.modify regular
  intro n pool hn hpool object ho
  rw [RegionSchema.widths, List.getElem?_map, hs] at hn
  obtain rfl := Option.some.inj hn
  rw [Pool.toList_push, List.mem_append, List.mem_singleton] at ho
  rcases ho with ho | rfl
  · apply hpool object ho
  · apply List.length_map

/-- An object is allocated by the name of its struct, and a name that no struct has changes
nothing. -/
theorem allocate_eq_ok {r r' : Region} {name : String} {target? : Option Instance} :
  r.allocate name = .ok (target?, r') ↔
    (∃ struct target, r.schema.structIndex? name = some struct ∧ target? = some target
      ∧ r.allocateStruct struct = .ok (target, r'))
    ∨ r.schema.structIndex? name = none ∧ target? = none ∧ r' = r
  := by
  unfold allocate
  cases r.schema.structIndex? name with
  | none =>
    constructor
    · intro h
      obtain ⟨rfl, rfl⟩ := Prod.mk.inj (Except.ok.inj h)
      exact .inr ⟨rfl, rfl, rfl⟩
    · rintro (⟨_, _, ⟨⟩, -⟩ | ⟨-, rfl, rfl⟩)
      rfl
  | some struct =>
    constructor
    · intro h
      obtain ⟨⟨target, after⟩, hstruct, h⟩ := Except.bind_eq_ok.mp h
      obtain ⟨rfl, rfl⟩ := Prod.mk.inj (Except.ok.inj h)
      exact .inl ⟨struct, target, rfl, rfl, hstruct⟩
    · rintro (⟨_, target, ⟨⟩, rfl, hstruct⟩ | ⟨⟨⟩, -⟩)
      exact Except.bind_eq_ok.mpr ⟨_, hstruct, rfl⟩

/-- Allocating by name does not change the schema. -/
theorem schema_allocate {r r' : Region} {name : String} {target? : Option Instance}
    (h : r.allocate name = .ok (target?, r')) :
  r'.schema = r.schema
  := by
  rcases allocate_eq_ok.mp h with ⟨struct, target, -, -, hstruct⟩ | ⟨-, -, rfl⟩
  · apply schema_allocateStruct hstruct
  · rfl

/-- Allocating by name keeps a region regular. -/
theorem Regular.allocate {r r' : Region} {name : String} {target? : Option Instance}
    (regular : r.Regular) (h : r.allocate name = .ok (target?, r')) :
  r'.Regular
  := by
  rcases allocate_eq_ok.mp h with ⟨struct, target, -, -, hstruct⟩ | ⟨-, -, rfl⟩
  · apply regular.allocateStruct hstruct
  · apply regular

/-! ### Storing -/

/-- An object is found at its place in the pool of its struct. -/
theorem object_eq_ok {r : Region} {target : Instance} {object : Object} :
  r.object target = .ok object
    ↔ ∃ pool, r.pools[target.struct]? = some pool ∧ pool.get? ⟨target.index⟩ = some object
  := by
  unfold Region.object Region.pool
  cases r.pools[target.struct]? with
  | none =>
    constructor
    · intro h
      cases h
    · rintro ⟨pool, ⟨⟩, -⟩
  | some pool =>
    constructor
    · intro h
      obtain ⟨_, ⟨⟩, h⟩ := Except.bind_eq_ok.mp h
      split at h
      · next found =>
        obtain rfl := Except.ok.inj h
        use pool, rfl, found
      · cases h
    · rintro ⟨_, ⟨⟩, found⟩
      apply Except.bind_eq_ok.mpr
      use pool, rfl
      rw [found]
      rfl

/-- An object of a regular region has one value for each field. -/
theorem Regular.object {r : Region} (regular : r.Regular) {target : Instance} {object : Object}
    (h : r.object target = .ok object) :
  r.schema.widths[target.struct]? = some object.length
  := by
  obtain ⟨pool, hpool, found⟩ := object_eq_ok.mp h
  obtain ⟨hi, rfl⟩ := List.getElem?_eq_some_iff.mp hpool
  have hw : target.struct < r.schema.widths.length := by
    rw [List.Forall₂.length_eq regular]
    apply hi
  rw [List.getElem?_eq_getElem hw]
  have mem : object ∈ (r.pools[target.struct]).toList := by
    apply List.mem_of_getElem? (i := target.index)
    rw [Pool.toList, Array.getElem?_toList]
    apply found
  apply congrArg some (List.Forall₂.get regular hw hi object mem).symm

/-- An object of the same length in the place of another keeps a region regular. -/
theorem Regular.setObject {r : Region} (regular : r.Regular) {target : Instance}
    {object : Object} (width : r.schema.widths[target.struct]? = some object.length) :
  (r.setObject target object).Regular
  := by
  apply PoolsRegular.modify regular
  intro n pool hn hpool other ho
  rcases Pool.mem_modify ho with ho | ⟨old, -, rfl⟩
  · apply hpool other ho
  · rw [width] at hn
    apply Option.some.inj hn

/-- Storing a value replaces one value of one object. -/
theorem setField_eq_ok {r r' : Region} {target : Instance} {field : Nat} {value : Value} :
  r.setField target field value = .ok r' ↔ ∃ object, r.object target = .ok object
    ∧ field < object.length ∧ r' = r.setObject target (object.set field value)
  := by
  rw [setField, Except.bind_eq_ok]
  apply exists_congr
  intro object
  apply and_congr_right
  intro _
  constructor
  · intro h
    split at h
    · next inside =>
      obtain rfl := Except.ok.inj h
      exact ⟨inside, rfl⟩
    · cases h
  · rintro ⟨inside, rfl⟩
    rw [if_pos inside]
    rfl

/-- Storing a value does not change the schema. -/
theorem schema_setField {r r' : Region} {target : Instance} {field : Nat} {value : Value}
    (h : r.setField target field value = .ok r') :
  r'.schema = r.schema
  := by
  obtain ⟨object, -, -, rfl⟩ := setField_eq_ok.mp h
  rfl

/-- Storing a value keeps a region regular. -/
theorem Regular.setField {r r' : Region} {target : Instance} {field : Nat} {value : Value}
    (regular : r.Regular) (h : r.setField target field value = .ok r') :
  r'.Regular
  := by
  obtain ⟨object, ho, -, rfl⟩ := setField_eq_ok.mp h
  apply regular.setObject
  rw [List.length_set]
  apply regular.object ho

/-- What a checked store stores, an unchecked one does too. -/
theorem setField_of_assign {r r' : Region} {target : Instance} {field : Nat} {value : Value}
    (h : r.assign target field value = .ok r') :
  r.setField target field value = .ok r'
  := by
  obtain ⟨s, -, h⟩ := Except.bind_eq_ok.mp h
  split at h
  · cases h
  · obtain ⟨fits, -, h⟩ := Except.bind_eq_ok.mp h
    split at h
    · apply h
    · obtain ⟨name, -, ⟨⟩⟩ := Except.bind_eq_ok.mp h

/-! ### Writing bytes -/

section

variable {r : Region} (regular : r.Regular) {layout : List StructLayout}
  (hlayout : r.schema.layout = .ok layout)

include regular hlayout

/-- The pools stand side by side with the structs of a layout. -/
theorem Regular.poolsRegular :
  PoolsRegular (layout.map fun s => s.fields.length) r.pools
  := by
  rw [RegionSchema.layout_widths hlayout]
  apply regular

/-- The size of every pool is found. -/
theorem Regular.poolSize_eq :
  ∀ id < layout.length, r.poolSize id = .ok (sizeIn r.sizes id)
  := by
  intro id inside
  apply poolSize_eq_ok.mpr
  constructor
  · rw [(regular.poolsRegular hlayout).length_eq, List.length_map]
    apply inside
  · apply congrFun r.sizeIn_sizes id

/-- The objects of a struct are written as they are encoded. -/
theorem Regular.writePool_eq {id : Nat} {s : StructLayout} (hs : layout[id]? = some s)
    {pool : Pool Object} (hpool : r.pools[id]? = some pool) :
  r.writePool s id
    = (do return (← pool.toList.mapM (s.encode (sizeIn r.sizes))).flatten).mapError .codec
  := by
  have slot : (layout.map fun s => s.fields.length)[id]? = some s.fields.length := by
    rw [List.getElem?_map, hs]
    rfl
  obtain ⟨pool', hpool', width⟩ := exists_of_forall₂ (regular.poolsRegular hlayout) slot
  obtain rfl := Option.some.inj (hpool.symm.trans hpool')
  have objects : pool.toList.mapM (s.write r.poolSize)
      = (pool.toList.mapM (s.encode (sizeIn r.sizes))).mapError .codec := by
    rw [Except.mapError_mapM]
    apply mapM_congr
    intro object hobject
    have below := RegionSchema.below_layout hlayout s (List.mem_of_getElem? hs)
    apply StructLayout.write_eq (regular.poolSize_eq hlayout) below (width object hobject)
  rw [writePool, pool_eq_ok.mpr hpool, Except.mapError_bind, ← objects]
  rfl

/-- A region is written as its pools are encoded: the pools are those of the structs and hold a
value for every field, so that no lookup misses. -/
theorem Regular.serialize_eq :
  r.serialize = .ok (encodePools layout r.pools)
  := by
  have same : layout.length = r.pools.length := by
    rw [(regular.poolsRegular hlayout).length_eq, List.length_map]
  have bodies : layout.zipIdx.mapM (fun p => r.writePool p.1 p.2)
      = ((layout.zip r.pools).mapM fun p : StructLayout × Pool Object => do
        return (← p.2.toList.mapM (p.1.encode (sizeIn r.sizes))).flatten).mapError .codec := by
    rw [Except.mapError_mapM]
    apply mapM_zipIdx_eq same
    intro id s pool hs hpool
    rw [Nat.zero_add]
    apply regular.writePool_eq hlayout hs hpool
  have whole : r.write = (encodePools layout r.pools).mapError .codec := by
    rw [write, hlayout, encodePools, Except.mapError_bind]
    show ((r.sizes.mapM Encode.count).mapError WireError.codec >>= fun counts =>
      layout.zipIdx.mapM (fun p => r.writePool p.1 p.2) >>= fun bodies =>
        .ok (counts.flatten ++ bodies.flatten)) = _
    congr 1
    funext counts
    rw [bodies, Except.mapError_bind]
    rfl
  rw [serialize, whole]
  cases encodePools layout r.pools <;> rfl

end

/-- The bytes of a regular region are those of its pools under the layout of its schema. -/
theorem Regular.serialize_eq_ok {r : Region} (regular : r.Regular) {b : List UInt8} :
  r.serialize = .ok (.ok b)
    ↔ ∃ layout, r.schema.layout = .ok layout ∧ encodePools layout r.pools = .ok b
  := by
  constructor
  · intro h
    obtain ⟨layout, hlayout⟩ : ∃ layout, r.schema.layout = .ok layout := by
      cases hlayout : r.schema.layout with
      | error fault =>
        rw [serialize, write, hlayout] at h
        cases h
      | ok layout =>
        use layout
    rw [regular.serialize_eq hlayout] at h
    use layout, hlayout
    apply Except.ok.inj h
  · rintro ⟨layout, hlayout, h⟩
    rw [regular.serialize_eq hlayout, h]

/-! ### Reading bytes -/

/-- Pools are read as they are decoded: there are as many sizes as structs, and the structs refer to
one another only. -/
theorem readPools_eq {layout : List StructLayout} (below : ∀ s ∈ layout, s.Below layout.length) :
  readPools layout = liftM (decodePools layout)
  := by
  funext bytes
  show (readPools layout).run bytes
    = EStateM.run (liftM (decodePools layout) : WireReader (List (Pool Object))) bytes
  rw [readPools, decodePools, WireReader.lift_bind, EStateM.run_bind, EStateM.run_bind,
    WireReader.run_lift]
  cases hsizes : (decodeSizes layout).run bytes with
  | error e rest => rfl
  | ok sizes rest =>
    obtain ⟨b, ⟨same, -⟩, -⟩ := (accepts_decodeSizes layout _ _ _).mp hsizes
    rw [← same] at below
    dsimp only
    rw [leastPoolSize_eq below, readObjects_eq below, WireReader.lift_bind]
    simp only [WireReader.lift_ite]
    rfl

/-- Reading a region meets no fault once its schema is laid out. -/
theorem deserialize_eq_decodePools {r : Region} {layout : List StructLayout} (empty : r.isEmpty = true)
    (hlayout : r.schema.layout = .ok layout) (bytes : List UInt8) :
  r.deserialize bytes = .ok (match (decodePools layout).run bytes with
    | .ok pools _ => .ok { r with pools }
    | .error e _ => .error e)
  := by
  rw [deserialize, empty]
  apply Except.bind_eq_ok.mpr
  use layout, hlayout
  rw [readPools_eq (RegionSchema.below_layout hlayout), WireReader.run_lift]
  cases (decodePools layout).run bytes <;> rfl

/-- Reading into a region whose schema can be laid out has a result. -/
theorem exists_deserialize {r : Region} {layout : List StructLayout}
    (hlayout : r.schema.layout = .ok layout) (bytes : List UInt8) :
  ∃ result, r.deserialize bytes = .ok result
  := by
  cases empty : r.isEmpty with
  | false =>
    use .error .regionNotEmpty
    rw [deserialize, empty]
    rfl
  | true => exact ⟨_, deserialize_eq_decodePools empty hlayout bytes⟩

/-- What is decoded into an empty region are pools that the bytes begin with. -/
theorem deserialize_eq_ok {r r' : Region} {bytes : List UInt8} :
  r.deserialize bytes = .ok (.ok r') ↔ r.isEmpty = true ∧ ∃ layout rest,
    r.schema.layout = .ok layout ∧ (decodePools layout).run bytes = .ok r'.pools rest
      ∧ r'.schema = r.schema
  := by
  cases empty : r.isEmpty with
  | false =>
    rw [deserialize, empty]
    constructor
    · intro h
      cases Except.ok.inj h
    · rintro ⟨⟨⟩, -⟩
  | true =>
    rw [and_iff_right rfl]
    constructor
    · intro h
      have laid := h
      rw [deserialize, empty] at laid
      obtain ⟨layout, hlayout, -⟩ := Except.bind_eq_ok.mp laid
      rw [deserialize_eq_decodePools empty hlayout] at h
      split at h
      · next pools rest hrun =>
        obtain rfl := Except.ok.inj (Except.ok.inj h)
        use layout, rest, hlayout, hrun
      · cases Except.ok.inj h
    · rintro ⟨layout, rest, hlayout, hrun, hschema⟩
      rw [deserialize_eq_decodePools empty hlayout, hrun]
      obtain ⟨schema, pools⟩ := r'
      obtain rfl : schema = r.schema := hschema
      rfl

/-- What is decoded is regular. -/
theorem regular_of_deserialize {r r' : Region} {bytes : List UInt8}
    (h : r.deserialize bytes = .ok (.ok r')) :
  r'.Regular
  := by
  obtain ⟨-, layout, rest, hlayout, hrun, hschema⟩ := deserialize_eq_ok.mp h
  obtain ⟨b, hb, -⟩ := (accepts_decodePools layout _ _ _).mp hrun
  rw [Regular, hschema, ← RegionSchema.layout_widths hlayout]
  apply regular_of_poolsSpell hb

end Region

end PoolGraph
