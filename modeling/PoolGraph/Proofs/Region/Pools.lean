import PoolGraph.Proofs.Region.Spelling

/-!
# Spellings of objects and pools

The relations of `Shape.Spells` for whole objects (`StructLayout.Spells`) and for the pools of a
region (`PoolsSpell`).  The decoder's check that enough bytes are left refuses no spelling
(`accepts_decodePools`).
-/

namespace PoolGraph

/-! ### Lists side by side -/

section Lists

/-- Items beside what is made of them and of others. -/
theorem zip_map_zip (f : α × β → γ) (xs : List α) (ys : List β) :
  xs.zip ((xs.zip ys).map f) = (xs.zip ys).map fun p => (p.1, f p)
  := by
  induction xs generalizing ys with
  | nil => rfl
  | cons x xs ih =>
    cases ys with
    | nil => rfl
    | cons y ys => simp only [List.zip_cons_cons, List.map_cons, ih]

/-- Parts of at least the given lengths make a list of at least their sum. -/
theorem sum_le_length_flatten {f : α → Nat} {xs : List α} {parts : List (List β)}
    (h : List.Forall₂ (fun x part => f x ≤ part.length) xs parts) :
  (xs.map f).sum ≤ parts.flatten.length
  := by
  induction h with
  | nil => apply Nat.le_refl
  | cons hx _ ih =>
    rw [List.map_cons, List.sum_cons, List.flatten_cons, List.length_append]
    apply Nat.add_le_add hx ih

/-- The item behind a front is changed at the length of the front. -/
theorem modify_append_length (before rest : List α) (y : α) (f : α → α) :
  (before ++ y :: rest).modify before.length f = before ++ f y :: rest
  := by
  induction before with
  | nil => rfl
  | cons x before ih =>
    rw [List.cons_append, List.length_cons, List.modify_succ_cons, ih]
    rfl

end Lists

namespace Pool

theorem toList_map (f : α → β) (pool : Pool α) :
  (pool.map f).toList = pool.toList.map f
  := Array.toList_map

/-- Pools with the same objects are equal. -/
theorem toList_inj {pool pool' : Pool α} :
  pool.toList = pool'.toList ↔ pool = pool'
  := by
  cases pool
  cases pool'
  rw [Pool.mk.injEq]
  apply Array.toList_inj

theorem modify_modify (pool : Pool α) (r : Ref α) (f g : α → α) :
  (pool.modify r f).modify r g = pool.modify r fun x => g (f x)
  := by
  rw [modify, modify, modify, Pool.mk.injEq]
  apply Array.ext_getElem?
  intro i
  simp only [Array.getElem?_modify]
  split
  · rw [Option.map_map]
    rfl
  · rfl

end Pool

/-! ### Objects -/

namespace StructLayout

/-- The bytes that stand for an object of this struct. -/
def Spells (size : Nat → Nat) (s : StructLayout) (object : Object) (b : List UInt8) : Prop :=
  object.length = s.fields.length ∧ ∃ parts,
    List.Forall₂ (fun p part => p.1.2.Spells size p.2 part) (s.fields.zip object) parts
      ∧ b = parts.flatten

/-- An object is read from exactly the bytes that spell it. -/
theorem accepts_decode {size : Nat → Nat} (countable : ∀ id, size id ≤ 2 ^ 32)
    (s : StructLayout) :
  Accepts (s.decode size) (s.Spells size)
  := by
  apply accepts_mapM (f := fun (field : String × Shape) => field.2.decode size)
    (R := fun field => field.2.Spells size)
  intro field
  apply Shape.accepts_decode countable

/-- An object takes at least the bytes that its struct takes. -/
theorem leastBytes_le {size : Nat → Nat} {s : StructLayout} {object : Object} {b : List UInt8}
    (h : s.Spells size object b) :
  s.leastBytes size ≤ b.length
  := by
  obtain ⟨width, parts, hall, rfl⟩ := h
  have fields : s.fields = (s.fields.zip object).map Prod.fst :=
    (List.map_fst_zip (Nat.le_of_eq width.symm)).symm
  rw [leastBytes, fields, List.map_map]
  apply sum_le_length_flatten (hall.imp fun _ _ => Shape.leastBytes_le)

/-- An object with the numbers in single-precision slots rounded to single precision. -/
def round (s : StructLayout) (object : Object) : Object :=
  (s.fields.zip object).map fun p => p.1.2.round p.2

/-- Rounding an object keeps its values in number. -/
theorem length_round {s : StructLayout} {object : Object}
    (width : object.length = s.fields.length) :
  (s.round object).length = s.fields.length
  := by
  rw [round, List.length_map, List.length_zip, width, Nat.min_self]

/-- What an object is written as spells the rounded object. -/
theorem spells_round_of_encode {size : Nat → Nat} {s : StructLayout} {object : Object}
    {b : List UInt8} (width : object.length = s.fields.length)
    (h : s.encode size object = .ok b) :
  s.Spells size (s.round object) b
  := by
  obtain ⟨parts, hparts, h⟩ := Except.bind_eq_ok.mp h
  obtain rfl := Except.ok.inj h
  refine ⟨length_round width, parts, ?_, rfl⟩
  rw [round, zip_map_zip, List.forall₂_map_left_iff]
  apply (Except.mapM_eq_ok.mp hparts).imp fun _ _ => Shape.spells_round_of_encode

/-- Whether the not-a-numbers in floating-point slots are canonical. -/
def Canonical (s : StructLayout) (object : Object) : Prop :=
  ∀ p ∈ s.fields.zip object, p.1.2.Canonical p.2

/-- A canonical object is written as the bytes that spell it. -/
theorem encode_of_spells {size : Nat → Nat} {s : StructLayout} {object : Object}
    {b : List UInt8} (h : s.Spells size object b) (canonical : s.Canonical object) :
  s.encode size object = .ok b
  := by
  obtain ⟨-, parts, hall, rfl⟩ := h
  apply Except.bind_eq_ok.mpr
  use parts
  constructor
  · apply Except.mapM_eq_ok.mpr
    apply ((List.forall₂_and_left _ parts).mpr ⟨canonical, hall⟩).imp
    rintro p part ⟨hp, hpart⟩
    apply Shape.encode_of_spells _ _ hpart hp
  · rfl

/-- Whether an object has a value for every field that fits it, without unset references. -/
def Filled (size : Nat → Nat) (s : StructLayout) (object : Object) : Prop :=
  object.length = s.fields.length
    ∧ ∀ p ∈ s.fields.zip object, p.1.2.fits size p.2 = true ∧ p.1.2.AllSet p.2

/-- Only objects without unset references are spelled. -/
theorem filled_of_spells {size : Nat → Nat} {s : StructLayout} {object : Object} {b : List UInt8}
    (h : s.Spells size object b) :
  s.Filled size object
  := by
  obtain ⟨width, parts, hall, -⟩ := h
  refine ⟨width, ?_⟩
  intro p hp
  obtain ⟨i, hi, rfl⟩ := List.getElem_of_mem hp
  have spelled := hall.get hi (by rw [← hall.length_eq]; exact hi)
  constructor
  · apply Shape.fits_of_spells spelled
  · apply Shape.allSet_of_spells spelled

/-- Whether the numbers in single-precision slots are rounded to single precision. -/
def Rounded (s : StructLayout) (object : Object) : Prop :=
  ∀ p ∈ s.fields.zip object, p.1.2.Rounded p.2

/-- Rounding leaves an object as it is when all its numbers are round. -/
theorem round_eq_self_iff {s : StructLayout} {object : Object}
    (width : object.length = s.fields.length) :
  s.round object = object ↔ s.Rounded object
  := by
  have values : object = (s.fields.zip object).map Prod.snd :=
    (List.map_snd_zip (Nat.le_of_eq width)).symm
  simp only [Rounded, ← Shape.round_eq_self_iff]
  rw [← List.map_inj_left, ← values, round]

/-! ### One pool -/

/-- The bytes that stand for the objects of a pool. -/
def SpellsPool (size : Nat → Nat) (s : StructLayout) (pool : Pool Object) (b : List UInt8) : Prop :=
  ∃ parts, List.Forall₂ (s.Spells size) pool.toList parts ∧ b = parts.flatten

/-- A pool takes at least the bytes of so many objects of its struct. -/
theorem size_mul_leastBytes_le {size : Nat → Nat} {s : StructLayout} {pool : Pool Object}
    {b : List UInt8} (h : s.SpellsPool size pool b) :
  pool.size * s.leastBytes size ≤ b.length
  := by
  obtain ⟨parts, hall, rfl⟩ := h
  have total := sum_le_length_flatten (hall.imp fun _ _ => leastBytes_le)
  rw [List.map_const', List.sum_replicate_nat, Pool.length_toList] at total
  apply total

/-- A pool is read from exactly the bytes that spell it. -/
theorem accepts_decodePool {size : Nat → Nat} (countable : ∀ id, size id ≤ 2 ^ 32)
    (s : StructLayout) (n : Nat) :
  Accepts (do return Pool.ofList (← Decode.many (s.decode size) n)) fun pool b =>
    pool.size = n ∧ s.SpellsPool size pool b
  := by
  apply ((Decode.accepts_many (accepts_decode countable s) n).map Pool.ofList).of_iff
  intro pool b
  constructor
  · rintro ⟨objects, rfl, rfl, parts, hall, rfl⟩
    exact ⟨Pool.size_ofList objects, parts, hall, rfl⟩
  · rintro ⟨rfl, parts, hall, rfl⟩
    use pool.toList, rfl, Pool.length_toList pool, parts, hall

/-- What the objects of a pool are written as spells the rounded pool. -/
theorem spellsPool_round_of_encode {size : Nat → Nat} {s : StructLayout} {pool : Pool Object}
    {b : List UInt8} (width : ∀ object ∈ pool.toList, object.length = s.fields.length)
    (h : (do return (← pool.toList.mapM (s.encode size)).flatten) = Except.ok b) :
  s.SpellsPool size (pool.map s.round) b
  := by
  obtain ⟨parts, hparts, h⟩ := Except.bind_eq_ok.mp h
  obtain rfl := Except.ok.inj h
  refine ⟨parts, ?_, rfl⟩
  rw [Pool.toList_map, List.forall₂_map_left_iff]
  apply ((List.forall₂_and_left _ _).mpr ⟨width, Except.mapM_eq_ok.mp hparts⟩).imp
  rintro object part ⟨hobject, hpart⟩
  apply spells_round_of_encode hobject hpart

/-- A pool of canonical objects is written as the bytes that spell it. -/
theorem encode_of_spellsPool {size : Nat → Nat} {s : StructLayout} {pool : Pool Object}
    {b : List UInt8} (h : s.SpellsPool size pool b)
    (canonical : ∀ object ∈ pool.toList, s.Canonical object) :
  (do return (← pool.toList.mapM (s.encode size)).flatten) = Except.ok b
  := by
  obtain ⟨parts, hall, rfl⟩ := h
  apply Except.bind_eq_ok.mpr
  use parts
  constructor
  · apply Except.mapM_eq_ok.mpr
    apply ((List.forall₂_and_left _ _).mpr ⟨canonical, hall⟩).imp
    rintro object part ⟨hobject, hpart⟩
    apply encode_of_spells hpart hobject
  · rfl

/-- Rounding leaves a pool as it is when all its objects are round. -/
theorem map_round_eq_self_iff {s : StructLayout} {pool : Pool Object}
    (width : ∀ object ∈ pool.toList, object.length = s.fields.length) :
  pool.map s.round = pool ↔ ∀ object ∈ pool.toList, s.Rounded object
  := by
  have objects := List.map_inj_left (l := pool.toList) (f := s.round) (g := id)
  rw [List.map_id, ← Pool.toList_map] at objects
  rw [← Pool.toList_inj, objects]
  apply forall₂_congr
  intro object ho
  apply round_eq_self_iff (width object ho)

end StructLayout

/-! ### All pools -/

/-- The bytes that stand for pools of the given structs: their sizes, then their objects. -/
def PoolsSpell (layout : List StructLayout) (pools : List (Pool Object)) (b : List UInt8) : Prop :=
  pools.length = layout.length ∧ ∃ counts bodies,
    List.Forall₂ (fun n part => Encode.count n = .ok part) (pools.map Pool.size) counts
      ∧ List.Forall₂ (fun p part => p.1.SpellsPool (sizeIn (pools.map Pool.size)) p.2 part)
          (layout.zip pools) bodies
      ∧ b = counts.flatten ++ bodies.flatten

/-- The sizes of pools are read from the counts that they are written as. -/
theorem accepts_decodeSizes (layout : List StructLayout) :
  Accepts (decodeSizes layout) fun sizes b => sizes.length = layout.length
    ∧ ∃ counts, List.Forall₂ (fun n part => Encode.count n = .ok part) sizes counts
      ∧ b = counts.flatten
  := by
  apply (accepts_mapM (fun _ => Decode.accepts_count) layout).of_iff
  intro sizes b
  apply and_congr_right
  intro same
  have numbers : sizes = (layout.zip sizes).map Prod.snd :=
    (List.map_snd_zip (Nat.le_of_eq same)).symm
  conv => rhs; rw [numbers]
  simp only [List.forall₂_map_left_iff]

/-- No pool is larger than a count can tell. -/
theorem sizeIn_le {sizes : List Nat} {counts : List (List UInt8)}
    (h : List.Forall₂ (fun n part => Encode.count n = .ok part) sizes counts) (id : Nat) :
  sizeIn sizes id ≤ 2 ^ 32
  := by
  have top : maxCount = 2 ^ 31 - 1 := rfl
  have small := h.imp (S := fun n _ => n ≤ maxCount ∧ True)
    fun _ _ hn => ⟨Encode.le_maxCount_of_count hn, trivial⟩
  have small := ((List.forall₂_and_left sizes counts).mp small).1
  rw [sizeIn]
  cases hn : sizes[id]? with
  | none => apply Nat.zero_le
  | some n =>
    have := small n (List.mem_of_getElem? hn)
    rw [Option.getD_some]
    omega

/-- The bytes that stand for the objects of pools of the given sizes. -/
def ObjectsSpell (layout : List StructLayout) (sizes : List Nat) (pools : List (Pool Object))
    (b : List UInt8) : Prop :=
  pools.length = layout.length ∧ pools.map Pool.size = sizes
    ∧ ∃ bodies, List.Forall₂ (fun p part => p.1.SpellsPool (sizeIn sizes) p.2 part)
        (layout.zip pools) bodies ∧ b = bodies.flatten

/-- The objects of all pools are read from exactly the bytes that spell them. -/
theorem accepts_decodeObjects {layout : List StructLayout} {sizes : List Nat}
    (same : sizes.length = layout.length) (countable : ∀ id, sizeIn sizes id ≤ 2 ^ 32) :
  Accepts (decodeObjects layout sizes) (ObjectsSpell layout sizes)
  := by
  apply (accepts_mapM (fun (p : StructLayout × Nat) =>
    p.1.accepts_decodePool countable p.2) (layout.zip sizes)).of_iff
  intro pools b
  simp only [ObjectsSpell, ← exists_and_left, ← and_assoc, forall₂_zip_zip same.symm]

/-- Pools take at least the bytes that their sizes announce. -/
theorem leastPoolBytes_le {layout : List StructLayout} {pools : List (Pool Object)}
    {bodies : List (List UInt8)} (h : List.Forall₂ (fun p part =>
      p.1.SpellsPool (sizeIn (pools.map Pool.size)) p.2 part) (layout.zip pools) bodies) :
  leastPoolBytes layout (pools.map Pool.size) ≤ bodies.flatten.length
  := by
  have total := sum_le_length_flatten (h.imp fun _ _ => StructLayout.size_mul_leastBytes_le)
  rw [leastPoolBytes, List.zip_map_right, List.map_map]
  apply total

/-- Behind the sizes there need only be spellings of pools of these sizes. -/
theorem accepts_decodeSizes_bind {layout : List StructLayout}
    {objects : List Nat → Reader (List (Pool Object))}
    (h : ∀ sizes, sizes.length = layout.length → (∀ id, sizeIn sizes id ≤ 2 ^ 32) →
      Accepts (objects sizes) (ObjectsSpell layout sizes)) :
  Accepts (decodeSizes layout >>= objects) (PoolsSpell layout)
  := by
  apply ((accepts_decodeSizes layout).bind_of (S := ObjectsSpell layout) ?_).of_iff
  · intro pools b
    constructor
    · rintro ⟨sizes, _, _, ⟨same, counts, hcounts, rfl⟩, ⟨hlen, rfl, bodies, hall, rfl⟩, rfl⟩
      exact ⟨hlen, counts, bodies, hcounts, hall, rfl⟩
    · rintro ⟨hlen, counts, bodies, hcounts, hall, rfl⟩
      use List.map Pool.size pools, counts.flatten, bodies.flatten
      constructor
      · refine ⟨?_, counts, hcounts, rfl⟩
        rw [List.length_map, hlen]
      constructor
      · exact ⟨hlen, rfl, bodies, hall, rfl⟩
      · rfl
  · rintro sizes _ ⟨same, counts, hcounts, rfl⟩
    apply h sizes same (sizeIn_le hcounts)

/-- The decoder takes exactly the spellings: what it checks before it reads any object holds of
each of them. -/
theorem accepts_decodePools (layout : List StructLayout) :
  Accepts (decodePools layout) (PoolsSpell layout)
  := by
  apply accepts_decodeSizes_bind
  intro sizes same countable
  apply (accepts_decodeObjects same countable).guard
  rintro pools _ ⟨-, rfl, bodies, hall, rfl⟩
  apply leastPoolBytes_le hall

/-! ### Pools and the encoder -/

/-- Whether every object has as many values as its struct has fields. -/
def PoolsRegular (widths : List Nat) (pools : List (Pool Object)) : Prop :=
  List.Forall₂ (fun n pool => ∀ object ∈ pool.toList, object.length = n) widths pools

/-- The pools with the numbers in single-precision slots rounded to single precision. -/
def roundPools (layout : List StructLayout) (pools : List (Pool Object)) : List (Pool Object) :=
  (layout.zip pools).map fun p => p.2.map p.1.round

/-- Whether the not-a-numbers in floating-point slots are canonical. -/
def PoolsCanonical (layout : List StructLayout) (pools : List (Pool Object)) : Prop :=
  ∀ p ∈ layout.zip pools, ∀ object ∈ p.2.toList, p.1.Canonical object

/-- Whether the numbers in single-precision slots are rounded to single precision. -/
def PoolsRounded (layout : List StructLayout) (pools : List (Pool Object)) : Prop :=
  ∀ p ∈ layout.zip pools, ∀ object ∈ p.2.toList, p.1.Rounded object

/-- Whether every object has a value for every field that fits it, without unset references. -/
def PoolsFilled (layout : List StructLayout) (pools : List (Pool Object)) : Prop :=
  ∀ p ∈ layout.zip pools, ∀ object ∈ p.2.toList,
    p.1.Filled (sizeIn (pools.map Pool.size)) object

section

variable {layout : List StructLayout} {pools : List (Pool Object)} {b : List UInt8}

/-- There are as many pools as structs. -/
theorem PoolsRegular.length_eq {widths : List Nat} (h : PoolsRegular widths pools) :
  pools.length = widths.length
  := (List.Forall₂.length_eq h).symm

/-- An object has as many values as its struct has fields. -/
theorem PoolsRegular.width {object : Object} {p : StructLayout × Pool Object}
    (h : PoolsRegular (layout.map fun s => s.fields.length) pools) (hp : p ∈ layout.zip pools)
    (ho : object ∈ p.2.toList) :
  object.length = p.1.fields.length
  := List.forall₂_zip (List.forall₂_map_left_iff.mp h) hp object ho

/-- Rounding keeps the sizes of pools. -/
theorem map_size_roundPools (same : pools.length = layout.length) :
  (roundPools layout pools).map Pool.size = pools.map Pool.size
  := by
  have values : pools = (layout.zip pools).map Prod.snd :=
    (List.map_snd_zip (Nat.le_of_eq same)).symm
  conv => rhs; rw [values]
  rw [roundPools, List.map_map, List.map_map]
  apply List.map_congr_left
  intro p _
  apply Array.size_map

/-- The encoder writes a spelling of the rounded pools. -/
theorem poolsSpell_of_encodePools
    (regular : PoolsRegular (layout.map fun s => s.fields.length) pools)
    (h : encodePools layout pools = .ok b) :
  PoolsSpell layout (roundPools layout pools) b
  := by
  obtain ⟨counts, hcounts, h⟩ := Except.bind_eq_ok.mp h
  obtain ⟨bodies, hbodies, h⟩ := Except.bind_eq_ok.mp h
  obtain rfl := Except.ok.inj h
  have same : pools.length = layout.length := by
    rw [regular.length_eq, List.length_map]
  refine ⟨?_, counts, bodies, ?_, ?_, rfl⟩
  · rw [roundPools, List.length_map, List.length_zip, same, Nat.min_self]
  · rw [map_size_roundPools same]
    apply Except.mapM_eq_ok.mp hcounts
  · rw [map_size_roundPools same, roundPools, zip_map_zip, List.forall₂_map_left_iff]
    have widths : ∀ p ∈ layout.zip pools, ∀ object ∈ p.2.toList,
        object.length = p.1.fields.length := fun p hp object ho => regular.width hp ho
    apply ((List.forall₂_and_left _ _).mpr ⟨widths, Except.mapM_eq_ok.mp hbodies⟩).imp
    rintro p part ⟨width, hpart⟩
    apply StructLayout.spellsPool_round_of_encode width hpart

/-- The encoder writes a spelling of pools without other not-a-numbers. -/
theorem encodePools_of_poolsSpell (h : PoolsSpell layout pools b)
    (canonical : PoolsCanonical layout pools) :
  encodePools layout pools = .ok b
  := by
  obtain ⟨-, counts, bodies, hcounts, hall, rfl⟩ := h
  apply Except.bind_eq_ok.mpr
  use counts
  constructor
  · apply Except.mapM_eq_ok.mpr hcounts
  refine Except.bind_eq_ok.mpr ⟨bodies, ?_, rfl⟩
  apply Except.mapM_eq_ok.mpr
  apply ((List.forall₂_and_left _ _).mpr ⟨canonical, hall⟩).imp
  rintro p part ⟨hp, hpart⟩
  apply StructLayout.encode_of_spellsPool hpart hp

/-- Only pools without unset references are spelled. -/
theorem filled_of_poolsSpell (h : PoolsSpell layout pools b) :
  PoolsFilled layout pools
  := by
  obtain ⟨-, counts, bodies, -, hall, -⟩ := h
  intro p hp object ho
  obtain ⟨i, hi, rfl⟩ := List.getElem_of_mem hp
  obtain ⟨parts, hparts, -⟩ := hall.get hi (by rw [← hall.length_eq]; exact hi)
  obtain ⟨j, hj, rfl⟩ := List.getElem_of_mem ho
  apply StructLayout.filled_of_spells (hparts.get hj (by rw [← hparts.length_eq]; exact hj))

/-- Pools that are spelled have the objects that their structs want. -/
theorem regular_of_poolsSpell (h : PoolsSpell layout pools b) :
  PoolsRegular (layout.map fun s => s.fields.length) pools
  := by
  apply List.forall₂_map_left_iff.mpr
  apply List.forall₂_iff_zip.mpr
  constructor
  · apply h.1.symm
  intro s pool hp object ho
  apply (filled_of_poolsSpell h _ hp object ho).1

/-- Rounding leaves pools as they are when all their objects are round. -/
theorem roundPools_eq_self_iff
    (regular : PoolsRegular (layout.map fun s => s.fields.length) pools) :
  roundPools layout pools = pools ↔ PoolsRounded layout pools
  := by
  have same : pools.length = layout.length := by
    rw [regular.length_eq, List.length_map]
  have values : pools = (layout.zip pools).map Prod.snd :=
    (List.map_snd_zip (Nat.le_of_eq same)).symm
  have step : roundPools layout pools = pools
      ↔ ∀ p ∈ layout.zip pools, p.2.map p.1.round = p.2 := by
    rw [← List.map_inj_left, ← values, roundPools]
  rw [step]
  apply forall₂_congr
  intro p hp
  apply StructLayout.map_round_eq_self_iff
  intro object ho
  apply regular.width hp ho

end

end PoolGraph
