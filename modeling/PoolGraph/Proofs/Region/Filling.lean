import PoolGraph.Proofs.Region.Extension
import PoolGraph.Proofs.Region.WellTyped
import PoolGraph.Region.Filling

/-!
# Reading in place is reading

`Performs p m r out` says that the computation `m` does to the region `r` what the reader `p` does
to nothing: it takes the same bytes, leaves the region `out x` when `p` reads `x`, and fails when
and as `p` does.  A loop performs what a list of readers does (`Performs.loop`), and so the three
nested loops of `fillPools` perform `decodeObjects`.  Hence `Region.fill` leaves the region that the
reader gives, or the region as it was (`Region.fill_eq`).
-/

namespace PoolGraph

/-- Reads pools as `decodePools` does, but compares the sizes to the bytes left only when
`checked`. -/
def decodePoolsWith (checked : Bool) (layout : List StructLayout) :
    Reader (List (Pool Object)) := do
  let sizes ← decodeSizes layout
  if checked && (← get).length < leastPoolBytes layout sizes then throw .endOfData
  else decodeObjects layout sizes

/-- With the check of the room this is the decoder of pools. -/
theorem decodePoolsWith_true (layout : List StructLayout) :
  decodePoolsWith true layout = decodePools layout
  := by
  simp only [decodePoolsWith, decodePools, Bool.true_and, decide_eq_true_eq]

/-- The sizes are read first, then the room is checked or not, then the objects are read. -/
theorem run_decodePoolsWith (checked : Bool) (layout : List StructLayout) (bytes : List UInt8) :
  (decodePoolsWith checked layout).run bytes = match (decodeSizes layout).run bytes with
    | .ok sizes rest =>
      if checked && rest.length < leastPoolBytes layout sizes then .error .endOfData rest
      else (decodeObjects layout sizes).run rest
    | .error e rest => .error e rest
  := by
  rw [decodePoolsWith, EStateM.run_bind]
  cases (decodeSizes layout).run bytes with
  | error e rest => rfl
  | ok sizes rest =>
    dsimp only
    rw [EStateM.run_bind, EStateM.run_get]
    dsimp only
    split <;> rfl

namespace Region

/-! ### Computations on a region and readers -/

/-- Whether a computation on a region does what a reader does, and so meets no fault.  When they
fail, the region may have other objects, but it has as many pools. -/
def Performs (p : Reader α) (m : FillM Unit) (r : Region) (out : α → Region) : Prop :=
  ∀ input, match p.run input with
    | .ok x rest => m.run ⟨input, r⟩ = .ok () ⟨rest, out x⟩
    | .error e rest =>
      ∃ r', m.run ⟨input, r⟩ = .error (.codec e) ⟨rest, r'⟩ ∧ r'.cleared = r.cleared

namespace Performs

/-- Doing nothing performs the reader that reads nothing. -/
theorem pure {x : α} {r : Region} {out : α → Region} (h : r = out x) :
  Performs (Pure.pure x) (Pure.pure ()) r out
  := by
  intro input
  subst h
  rfl

/-- The second reader need only be performed on what the first one gives. -/
theorem bind {p : Reader α} {q : α → Reader β} {m k : FillM Unit} {r : Region} {mid : α → Region}
    {out : β → Region} (first : Performs p m r mid) (clear : ∀ x, (mid x).cleared = r.cleared)
    (second : ∀ input x rest, p.run input = .ok x rest → Performs (q x) k (mid x) out) :
  Performs (p >>= q) (m >>= fun _ => k) r out
  := by
  intro input
  have here := first input
  rw [EStateM.run_bind, EStateM.run_bind]
  cases hrun : p.run input with
  | error e rest =>
    rw [hrun] at here
    obtain ⟨r', run, clear'⟩ := here
    rw [run]
    use r', rfl, clear'
  | ok x rest =>
    rw [hrun] at here
    dsimp only at here
    rw [here]
    have next := second input x rest hrun rest
    dsimp only
    cases hrest : (q x).run rest with
    | error e rest' =>
      rw [hrest] at next
      obtain ⟨r', run, clear'⟩ := next
      use r', run, clear'.trans (clear x)
    | ok y rest' =>
      rw [hrest] at next
      apply next

/-- What is made of the value read may be made afterwards. -/
theorem map {p : Reader α} {f : α → β} {m : FillM Unit} {r : Region} {out : β → Region}
    (h : Performs p m r fun x => out (f x)) :
  Performs (p >>= fun x => Pure.pure (f x)) m r out
  := by
  intro input
  have here := h input
  rw [EStateM.run_bind]
  cases hrun : p.run input <;>
    · rw [hrun] at here
      apply here

/-- What a reader leaves may be named in any equal way. -/
theorem congr {p : Reader α} {m : FillM Unit} {r : Region} {out out' : α → Region}
    (h : Performs p m r out) (same : ∀ x, out x = out' x) :
  Performs p m r out'
  := by
  rw [← funext same]
  apply h

/-- A loop does what a list of readers does.  The region after some rounds is known from what was
read in them. -/
theorem loop {f : ι → Reader β} {g : κ → FillM Unit} (state : List β → Region) (V : ι → β → Prop)
    (valid : ∀ i input x rest, (f i).run input = .ok x rest → V i x) {items : List ι}
    {steps : List κ} (same : steps.length = items.length) {out : List β → Region}
    (clear : ∀ read, read.length ≤ items.length → (state read).cleared = (state []).cleared)
    (step : ∀ i j read, items[List.length read]? = some i → steps[read.length]? = some j →
      List.Forall₂ V (items.take read.length) read →
      Performs (f i) (g j) (state read) fun x => state (read ++ [x]))
    (last : ∀ read, List.Forall₂ V items read → state read = out read) :
  Performs (items.mapM f) (steps.forM g) (state []) out
  := by
  induction items generalizing steps state out with
  | nil =>
    obtain rfl := List.eq_nil_of_length_eq_zero same
    rw [List.mapM_nil]
    apply pure (last [] .nil)
  | cons i items ih =>
    obtain ⟨j, steps, rfl⟩ := List.exists_cons_of_length_eq_add_one same
    rw [List.mapM_cons]
    have first : ∀ x, (state [x]).cleared = (state []).cleared := fun x =>
      clear [x] (Nat.succ_le_succ (Nat.zero_le _))
    apply bind (step i j [] rfl rfl .nil) first
    intro input x rest hx
    apply map
    have read := valid i input x rest hx
    -- what is read in the further rounds stands behind `x`
    apply ih (fun others => state (x :: others)) (Nat.succ.inj same)
    · intro others short
      rw [clear (x :: others) (Nat.succ_le_succ short), first]
    · intro i' j' others hi hj all
      apply step i' j' (x :: others) hi hj (.cons read all)
    · intro others all
      apply last (x :: others) (.cons read all)

end Performs

/-! ### Objects -/

/-- One value more stands in front of what is left of a list. -/
theorem set_append_drop {read xs : List α} (h : read.length < xs.length) (x : α) :
  (read ++ xs.drop read.length).set read.length x
    = (read ++ [x]) ++ xs.drop (read ++ [x]).length
  := by
  rw [List.drop_eq_getElem_cons h, List.set_append_right _ _ (Nat.le_refl _), Nat.sub_self,
    List.set_cons_zero, List.append_assoc, List.length_append]
  rfl

/-- Regions with the same schema and as many pools are cleared to the same one. -/
theorem cleared_congr {r r' : Region} (schema : r.schema = r'.schema)
    (same : r.pools.length = r'.pools.length) :
  r.cleared = r'.cleared
  := by
  rw [cleared, cleared, List.map_const', List.map_const', same, schema]

/-- Clearing forgets what was stored. -/
theorem cleared_setObject (r : Region) (target : Instance) (object : Object) :
  (r.setObject target object).cleared = r.cleared
  := by
  apply cleared_congr
  · rfl
  · apply List.length_modify

/-- Putting an object in place of one that was just put there is putting the last one. -/
theorem setObject_setObject (r : Region) (target : Instance) (object object' : Object) :
  (r.setObject target object).setObject target object' = r.setObject target object'
  := by
  simp only [setObject, List.modify_modify_eq, Function.comp_def, Pool.modify_modify]

/-- Filling a field is reading its shape and storing the value. -/
theorem run_fillField {r : Region} {shape : Shape} (below : shape.Below r.pools.length)
    (target : Instance) (number : Nat) (input : List UInt8) :
  (fillField target number shape).run ⟨input, r⟩ = match (shape.decode r.size).run input with
    | .error error rest => .error (.codec error) ⟨rest, r⟩
    | .ok value rest => match r.setField target number value with
      | .ok filled => .ok () ⟨rest, filled⟩
      | .error fault => .error (.fault fault) ⟨rest, r⟩
  := by
  have found : ∀ id < r.pools.length, r.poolSize id = .ok (r.size id) := fun id inside =>
    poolSize_eq_ok.mpr ⟨inside, rfl⟩
  rw [EStateM.run, fillField]
  rw [Shape.read_eq found below, WireReader.run_lift]
  cases (shape.decode r.size).run input <;> rfl

/-- A field of an object that is there is read in its place. -/
theorem performs_fillField {r : Region} {shape : Shape} (below : shape.Below r.pools.length)
    {target : Instance} {object : Object} (hobject : r.object target = .ok object) {number : Nat}
    (inside : number < object.length) :
  Performs (shape.decode r.size) (fillField target number shape) r
    fun value => r.setObject target (object.set number value)
  := by
  intro input
  rw [run_fillField below]
  cases (shape.decode r.size).run input with
  | ok value rest =>
    have stored := setField_eq_ok.mpr
      ⟨object, hobject, inside, Eq.refl (r.setObject target (object.set number value))⟩
    dsimp only
    rw [stored]
  | error e rest =>
    use r, rfl

/-- The fields of an object are read one after another in place of those that it had. -/
theorem performs_fillObject {r : Region} {target : Instance} (holds : r.Holds target)
    {object : Object} {s : StructLayout} (below : s.Below r.pools.length)
    (width : object.length = s.fields.length) :
  Performs (s.decode r.size) (fillObject s target) (r.setObject target object) (r.setObject target)
  := by
  apply Performs.loop (fun read => r.setObject target (read ++ object.drop read.length))
    (fun _ _ => True) (fun _ _ _ _ _ => trivial) List.length_zipIdx
  · intro read _
    rw [cleared_setObject, cleared_setObject]
  · rintro ⟨name, shape⟩ step read hfield hstep -
    have here : read.length < s.fields.length := (List.getElem?_eq_some_iff.mp hfield).1
    obtain rfl : step = ((name, shape), read.length) := by
      rw [List.getElem?_zipIdx, hfield, Nat.zero_add] at hstep
      apply (Option.some.inj hstep).symm
    have sizes : r.size = (r.setObject target (read ++ object.drop read.length)).size :=
      funext fun id => (size_setObject r target _ id).symm
    have pools : (r.setObject target (read ++ object.drop read.length)).pools.length
        = r.pools.length := List.length_modify ..
    have known : shape.Below (r.setObject target (read ++ object.drop read.length)).pools.length := by
      rw [pools]
      apply below (name, shape) (List.mem_of_getElem? hfield)
    have inside : read.length < (read ++ object.drop read.length).length := by
      rw [List.length_append, List.length_drop]
      omega
    conv => arg 1; rw [sizes]
    apply (performs_fillField known (object_setObject_self _ holds) inside).congr
    intro value
    rw [setObject_setObject, set_append_drop (width ▸ here)]
  · intro read all
    rw [← all.length_eq, ← width, List.drop_length, List.append_nil]

/-! ### Pools -/

/-- Reading items behind others is reading items, with the others in front. -/
theorem manyAfter_eq (item : Reader α) (n : Nat) (before : List α) :
  Decode.manyAfter item n before
    = (do return before.reverse ++ (← (List.replicate n ()).mapM fun _ => item))
  := by
  induction n generalizing before with
  | zero =>
    simp only [Decode.manyAfter, List.replicate_zero, List.mapM_nil, pure_bind, List.append_nil]
  | succ n ih =>
    simp only [Decode.manyAfter, ih, List.replicate_succ, List.mapM_cons, bind_assoc, pure_bind,
      List.reverse_cons, List.append_assoc, List.singleton_append]

/-- Reading several items is reading one in each of several rounds. -/
theorem many_eq_mapM (item : Reader α) (n : Nat) :
  Decode.many item n = (List.replicate n ()).mapM fun _ => item
  := by
  rw [Decode.many, manyAfter_eq]
  apply bind_pure

section

variable {schema : RegionSchema} {before after : List (Pool Object)}

/-- Pools of the same sizes give references the same widths. -/
theorem size_congr {pools pools' : List (Pool Object)}
    (same : pools.map Pool.size = pools'.map Pool.size) :
  (Region.mk schema pools).size = (Region.mk schema pools').size
  := by
  rw [← sizeIn_sizes, ← sizeIn_sizes, same]

/-- Storing behind the objects that were read changes the next one. -/
theorem setObject_between (read rest : List Object) (old object : Object) :
  (Region.mk schema (before ++ Pool.ofList (read ++ old :: rest) :: after)).setObject
      ⟨before.length, read.length⟩ object
    = ⟨schema, before ++ Pool.ofList (read ++ object :: rest) :: after⟩
  := by
  have changed : (Pool.ofList (read ++ old :: rest)).modify ⟨read.length⟩ (fun _ => object)
      = Pool.ofList (read ++ object :: rest) := by
    rw [← Pool.toList_inj, Pool.toList_modify, Pool.toList_ofList, modify_append_length,
      Pool.toList_ofList]
  rw [setObject, modify_append_length, changed]

/-- A pool is filled object by object. -/
theorem run_fillPool (s : StructLayout) {struct : Nat} {r : Region}
    (inside : struct < r.pools.length) (input : List UInt8) :
  (fillPool s struct).run ⟨input, r⟩
    = ((List.range (r.size struct)).forM fun index => fillObject s ⟨struct, index⟩).run ⟨input, r⟩
  := by
  show EStateM.run ((liftM (r.poolSize struct) : FillM Nat) >>= fun n =>
    (List.range n).forM fun index => fillObject s ⟨struct, index⟩) ⟨input, r⟩ = _
  rw [poolSize_eq_ok.mpr ⟨inside, rfl⟩]
  rfl

/-- The objects of a pool are read one after another in place of those that it had. -/
theorem performs_fillPool {s : StructLayout} {objects : List Object} {size : Nat → Nat}
    (sizes : (Region.mk schema (before ++ Pool.ofList objects :: after)).size = size)
    (below : s.Below (before.length + (after.length + 1)))
    (width : ∀ object ∈ objects, object.length = s.fields.length) :
  Performs (do return Pool.ofList (← Decode.many (s.decode size) objects.length))
    (fillPool s before.length) ⟨schema, before ++ Pool.ofList objects :: after⟩
    fun pool => ⟨schema, before ++ pool :: after⟩
  := by
  have announced : size before.length = objects.length := by
    rw [← sizes, size_eq_getD, List.getElem?_append_right (Nat.le_refl _), Nat.sub_self]
    apply Pool.size_ofList
  have inside : before.length < (before ++ Pool.ofList objects :: after).length := by
    rw [List.length_append, List.length_cons]
    omega
  intro input
  rw [run_fillPool s inside, sizes, announced]
  revert input
  apply Performs.map
  rw [many_eq_mapM]
  apply Performs.loop (fun read =>
      ⟨schema, before ++ Pool.ofList (read ++ objects.drop read.length) :: after⟩)
    (fun _ _ => True) (fun _ _ _ _ _ => trivial)
    (by rw [List.length_range, List.length_replicate])
  · intro read _
    apply cleared_congr
    · rfl
    · simp only [List.length_append, List.length_cons]
  · rintro ⟨⟩ index read hround hindex -
    have here : read.length < objects.length := by
      rw [← List.length_replicate (n := objects.length) (a := ())]
      apply (List.getElem?_eq_some_iff.mp hround).1
    obtain rfl : read.length = index := by
      rw [List.getElem?_range here] at hindex
      apply Option.some.inj hindex
    have left := List.drop_eq_getElem_cons here
    have same : size = (Region.mk schema
        (before ++ Pool.ofList (read ++ objects.drop read.length) :: after)).size := by
      rw [← sizes]
      apply size_congr
      simp only [List.map_append, List.map_cons, Pool.size_ofList, List.length_append,
        List.length_drop, Nat.add_sub_cancel' (Nat.le_of_lt here)]
    -- the object that stands here is put in its own place, to be read there
    rw [same, left, ← setObject_between read (objects.drop (read.length + 1)) objects[read.length]]
    conv => arg 1; rw [setObject_between]
    apply (performs_fillObject ?_ ?_ (width _ (List.getElem_mem here))).congr
    · intro object
      rw [setObject_between, List.append_assoc, List.length_append]
      rfl
    · show read.length < Region.size _ before.length
      rw [← left, ← same, announced]
      apply here
    · rw [List.length_append, List.length_cons]
      apply below
  · intro read all
    have whole : read.length = objects.length := by
      rw [← all.length_eq, List.length_replicate]
    rw [whole, List.drop_length, List.append_nil]

end

/-- The pools are read one after another in place of those that were there. -/
theorem performs_fillPools {layout : List StructLayout} (schema : RegionSchema)
    {blank : List (List Object)} (countable : ∀ id, sizeIn (blank.map List.length) id ≤ 2 ^ 32)
    (below : ∀ s ∈ layout, s.Below layout.length)
    (widths : List.Forall₂ (fun (s : StructLayout) objects =>
      ∀ object ∈ objects, object.length = s.fields.length) layout blank) :
  Performs (decodeObjects layout (blank.map List.length)) (fillPools layout)
    ⟨schema, blank.map Pool.ofList⟩ fun pools => ⟨schema, pools⟩
  := by
  have sizes : (blank.map Pool.ofList).map Pool.size = blank.map List.length := by
    simp only [List.map_map, Function.comp_def, Pool.size_ofList]
  have rounds : (layout.zip (blank.map List.length)).length = blank.length := by
    rw [List.length_zip, List.length_map, widths.length_eq, Nat.min_self]
  refine Performs.loop (fun read => ⟨schema, read ++ (blank.map Pool.ofList).drop read.length⟩)
    (fun (item : StructLayout × Nat) pool => item.2 = pool.size) ?_ ?_ ?_ ?_ ?_
  · rintro ⟨s, n⟩ input pool rest run
    obtain ⟨b, ⟨size, -⟩, -⟩ := (s.accepts_decodePool countable n _ _ _).mp run
    apply size.symm
  · rw [rounds, List.length_zipIdx, widths.length_eq]
  · intro read short
    rw [rounds] at short
    apply cleared_congr
    · rfl
    · simp only [List.length_append, List.length_drop, List.length_map, List.length_nil]
      omega
  · rintro ⟨s, n⟩ ⟨s', struct⟩ read hitem hstep all
    obtain ⟨hs, hn⟩ := List.getElem?_zip_eq_some.mp hitem
    rw [List.getElem?_map] at hn
    obtain ⟨objects, hobjects, rfl⟩ := Option.map_eq_some_iff.mp hn
    obtain ⟨here, rfl⟩ := List.getElem?_eq_some_iff.mp hobjects
    obtain ⟨rfl, rfl⟩ : s = s' ∧ read.length = struct := by
      rw [List.getElem?_zipIdx, hs, Nat.zero_add] at hstep
      apply Prod.mk.inj (Option.some.inj hstep)
    -- the pools that were read have the sizes of those that they replaced
    have before : (blank.map List.length).take read.length = read.map Pool.size := by
      have same := List.forall₂_map_left_iff.mpr (List.forall₂_map_right_iff.mpr all)
      have enough : (blank.map List.length).length ≤ layout.length := by
        apply Nat.le_of_eq
        rw [List.length_map, widths.length_eq]
      rw [List.forall₂_eq_eq_eq, List.map_take, List.map_snd_zip enough] at same
      apply same
    have left := List.drop_eq_getElem_cons (l := blank.map Pool.ofList) (i := read.length)
      (by rw [List.length_map]; exact here)
    rw [List.getElem_map] at left
    rw [left]
    apply (performs_fillPool ?_ ?_ ?_).congr
    · intro pool
      rw [List.append_assoc, List.length_append]
      rfl
    · rw [← left, ← sizeIn_sizes, List.map_append, List.map_drop, sizes, ← before,
        List.take_append_drop]
    · have total : read.length + (((blank.map Pool.ofList).drop (read.length + 1)).length + 1)
          = layout.length := by
        rw [List.length_drop, List.length_map, widths.length_eq]
        omega
      rw [total]
      apply below s (List.mem_of_getElem? hs)
    · obtain ⟨objects, hobjects', width⟩ := exists_of_forall₂ widths hs
      obtain rfl := Option.some.inj (hobjects.symm.trans hobjects')
      apply width
  · intro read all
    have whole : read.length = (blank.map Pool.ofList).length := by
      rw [← all.length_eq, rounds, List.length_map]
    rw [whole, List.drop_length, List.append_nil]

/-! ### Pools of zero objects -/

/-- The zero objects of each struct, as many as the sizes say. -/
def blanks (structs : List StructSchema) (sizes : List Nat) : List (List Object) :=
  (structs.zip sizes).map fun (s, n) => List.replicate n s.zero

/-- Blank pools have the sizes that were read. -/
theorem map_length_blanks {structs : List StructSchema} {sizes : List Nat}
    (same : sizes.length = structs.length) :
  (blanks structs sizes).map List.length = sizes
  := by
  simp only [blanks, List.map_map, Function.comp_def, List.length_replicate]
  apply List.map_snd_zip (Nat.le_of_eq same)

/-- Zero objects have as many values as the layout of their struct says. -/
theorem width_blanks {layout : List StructLayout} {structs : List StructSchema} {sizes : List Nat}
    (widths : layout.map (fun s => s.fields.length) = structs.map fun s => s.fields.length)
    (same : sizes.length = structs.length) :
  List.Forall₂ (fun (s : StructLayout) objects =>
    ∀ object ∈ objects, object.length = s.fields.length) layout (blanks structs sizes)
  := by
  induction structs generalizing layout sizes with
  | nil =>
    obtain rfl := List.map_eq_nil_iff.mp widths
    exact .nil
  | cons s structs ih =>
    obtain ⟨l, layout, rfl, width, widths⟩ := List.map_eq_cons_iff.mp widths
    obtain ⟨n, sizes, rfl⟩ := List.exists_cons_of_length_eq_add_one same
    refine .cons ?_ (ih widths (Nat.succ.inj same))
    intro object member
    rw [List.eq_of_mem_replicate member, StructSchema.zero, List.length_map, width]

/-- Allocating many objects of a struct adds as many blank ones to its pool. -/
theorem allocateMany_between {schema : RegionSchema} {before after : List (Pool Object)}
    {s : StructSchema} (hs : schema.structs[before.length]? = some s) (pool : Pool Object)
    (n : Nat) :
  (Region.mk schema (before ++ pool :: after)).allocateMany before.length n
    = .ok ⟨schema, before ++ Pool.ofList (pool.toList ++ List.replicate n s.zero) :: after⟩
  := by
  induction n generalizing pool with
  | zero =>
    rw [allocateMany, List.replicate_zero, List.append_nil]
    rfl
  | succ n ih =>
    apply Except.bind_eq_ok.mpr
    have inside : before.length < (before ++ pool :: after).length := by
      rw [List.length_append, List.length_cons]
      omega
    refine ⟨_, allocateStruct_eq_ok.mpr ⟨s, hs, inside, rfl, rfl⟩, ?_⟩
    dsimp only
    rw [modify_append_length, ih, Pool.toList_push, List.append_assoc, ← StructSchema.zero]
    rfl

/-- The pools behind those that are done get as many zero objects as their sizes say. -/
theorem allocate_rest {schema : RegionSchema} {before : List (Pool Object)}
    {structs : List StructSchema} (left : schema.structs.drop before.length = structs)
    {sizes : List Nat} (same : sizes.length = structs.length) :
  (sizes.zipIdx before.length).foldlM (fun r (n, struct) => r.allocateMany struct n)
      (Region.mk schema (before ++ List.replicate structs.length Pool.empty))
    = .ok ⟨schema, before ++ (blanks structs sizes).map Pool.ofList⟩
  := by
  induction structs generalizing before sizes with
  | nil =>
    obtain rfl := List.eq_nil_of_length_eq_zero same
    rfl
  | cons s structs ih =>
    obtain ⟨n, sizes, rfl⟩ := List.exists_cons_of_length_eq_add_one same
    have hs : schema.structs[before.length]? = some s := by
      rw [← List.head?_drop, left, List.head?_cons]
    have onward : schema.structs.drop (before ++ [Pool.ofList (List.replicate n s.zero)]).length
        = structs := by
      rw [List.length_append, List.length_singleton, ← List.tail_drop, left, List.tail_cons]
    have done := ih onward (Nat.succ.inj same)
    rw [List.length_append, List.append_assoc, List.append_assoc] at done
    exact Except.bind_eq_ok.mpr ⟨_, allocateMany_between hs Pool.empty n, done⟩

/-- In a region without objects each pool gets as many zero objects as its size says. -/
theorem allocateAll_empty (schema : RegionSchema) {sizes : List Nat}
    (same : sizes.length = schema.structs.length) :
  (Region.empty schema).allocateAll sizes
    = .ok ⟨schema, (blanks schema.structs sizes).map Pool.ofList⟩
  := by
  have all : schema.structs.drop ([] : List (Pool Object)).length = schema.structs := rfl
  apply allocate_rest all same

/-! ### Regions -/

variable {r : Region} {layout : List StructLayout}

/-- A region without objects has as many empty pools as its schema has structs. -/
theorem eq_empty (regular : r.Regular) (empty : r.isEmpty = true) :
  r = Region.empty r.schema
  := by
  have pools : r.pools = List.replicate r.schema.structs.length Pool.empty := by
    rw [← regular.length_pools]
    apply List.eq_replicate_of_mem
    intro pool hpool
    have none := List.all_eq_true.mp empty pool hpool
    rw [Pool.isEmpty, Array.isEmpty_iff] at none
    rw [Pool.empty, ← none]
  rw [Region.empty, ← pools]

/-- An empty region is cleared already. -/
theorem cleared_empty (schema : RegionSchema) :
  (Region.empty schema).cleared = Region.empty schema
  := by
  rw [cleared, Region.empty, List.map_replicate]

/-- Blank pools are cleared to the empty region. -/
theorem cleared_blanks {schema : RegionSchema} {sizes : List Nat}
    (same : sizes.length = schema.structs.length) :
  (Region.mk schema ((blanks schema.structs sizes).map Pool.ofList)).cleared = Region.empty schema
  := by
  rw [cleared, Region.empty, List.map_const', blanks, List.length_map, List.length_map,
    List.length_zip, same, Nat.min_self]

/-- The region that the reader makes of bytes. -/
def readWith (checked : Bool) (layout : List StructLayout) (r : Region) (bytes : List UInt8) :
    Except CodecError Region :=
  match (decodePoolsWith checked layout).run bytes with
  | .ok pools _ => .ok { r with pools }
  | .error e _ => .error e

/-- What reading in place tells and leaves where the reader gives a region or fails. -/
def settled (r : Region) : Except CodecError Region → Except CodecError Unit × Region
  | .ok r' => (.ok (), r')
  | .error e => (.error e, r)

/-- Decoding an empty region is reading with the check of the room. -/
theorem deserialize_eq (empty : r.isEmpty = true) (hlayout : r.schema.layout = .ok layout)
    (bytes : List UInt8) :
  r.deserialize bytes = .ok (r.readWith true layout bytes)
  := by
  have read := deserialize_eq_decodePools empty hlayout bytes
  rw [← decodePoolsWith_true layout] at read
  apply read

/-- Reading in place leaves the region that the reader gives; when the reader fails, the region is
as it was. -/
theorem fill_eq (regular : r.Regular) (empty : r.isEmpty = true)
    (hlayout : r.schema.layout = .ok layout) (checked : Bool) (bytes : List UInt8) :
  r.fill checked bytes = .ok (r.settled (r.readWith checked layout bytes))
  := by
  obtain ⟨schema, rfl⟩ : ∃ schema, r = Region.empty schema := ⟨_, eq_empty regular empty⟩
  change schema.layout = .ok layout at hlayout
  have structs : layout.length = schema.structs.length :=
    (Except.mapM_eq_ok.mp hlayout).length_eq.symm
  rw [fill, empty, readWith, run_decodePoolsWith, cleared_empty]
  change (schema.layout >>= fun layout => _) = _
  rw [hlayout]
  dsimp only [bind, Except.bind]
  cases hsizes : (decodeSizes layout).run bytes with
  | error e rest => rfl
  | ok sizes rest =>
    obtain ⟨b, ⟨same, counts, hcounts, -⟩, -⟩ := (accepts_decodeSizes layout _ _ _).mp hsizes
    have below := RegionSchema.below_layout hlayout
    have least := leastPoolSize_eq (same ▸ below)
    rw [structs] at same
    dsimp only
    rw [least]
    dsimp only
    split
    · rfl
    · have lengths := map_length_blanks same
      have performs := performs_fillPools schema
        (by rw [lengths]; apply sizeIn_le hcounts) below
        (width_blanks (RegionSchema.layout_widths hlayout) same) rest
      rw [allocateAll_empty schema same]
      dsimp only
      rw [lengths] at performs
      cases hobjects : (decodeObjects layout sizes).run rest with
      | ok pools left =>
        rw [hobjects] at performs
        dsimp only at performs
        rw [performs]
        rfl
      | error e left =>
        -- The pools are half filled here; what was made of them does not matter once cleared.
        rw [hobjects] at performs
        obtain ⟨r', run, clear⟩ := performs
        rw [run]
        dsimp only
        rw [clear, cleared_blanks same]
        rfl

end Region
end PoolGraph
