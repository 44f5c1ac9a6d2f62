import PoolGraph.Proofs.Compile.RoundTrip
import PoolGraph.Proofs.Declaration.Names
import PoolGraph.Proofs.Declaration.Resolve
import PoolGraph.Proofs.Lookup
import PoolGraph.Proofs.Region.Conformance
import PoolGraph.Proofs.Region.Texts
import Std.Data.String.ToNat

/-!
# Regions as JSON trees

The tree of a region has every object of every struct, and every field of it, under the names that
the schema gives them (`Region.shownBy_of_toJson`).  The type of a field tells which value a tree
stands for, unless a number is not finite (`Region.HasType.eq_of_toJson`).  So regions of one schema
that have the same tree have the same pools (`Region.toJson_faithful`).
-/

namespace PoolGraph

/-! ### Members of objects -/

namespace Json

/-- The value of a member of an object. -/
def member? (key : String) : Json → Option Json
  | .object members => members.lookup key
  | _ => none

/-- A member that is put in is found, and the others stay. -/
theorem lookup_insertMember (key other : String) (value : Json) (members : List (String × Json)) :
  (insertMember key value members).lookup other
    = if other = key then some value else members.lookup other
  := by
  fun_induction insertMember key value members with
  | case1 => apply lookup_cons_eq_ite key other value []
  | case2 first old rest less => apply lookup_cons_eq_ite key other value _
  | case3 old rest =>
    rw [lookup_cons_eq_ite, lookup_cons_eq_ite]
    split <;> rfl
  | case4 first old rest less apart ih =>
    rw [lookup_cons_eq_ite, lookup_cons_eq_ite, ih]
    rcases eq_or_ne other key with rfl | unlike
    · rw [if_pos rfl, if_neg apart, if_pos rfl]
    · rw [if_neg unlike, if_neg unlike]

/-- Members that are put in leave a key they do not have. -/
theorem lookup_insertMembers {members : List (String × Json)} {sorted : List (String × Json)}
    {key : String} (free : key ∉ members.map Prod.fst) :
  (members.foldl (fun sorted member => insertMember member.1 member.2 sorted) sorted).lookup key
    = sorted.lookup key
  := by
  induction members generalizing sorted with
  | nil => rfl
  | cons member members ih =>
    rw [List.map_cons, List.mem_cons, not_or] at free
    rw [List.foldl_cons, ih free.2, lookup_insertMember, if_neg free.1]

/-- Each of the members that are put in is found if no key occurs twice. -/
theorem lookup_insertMembers_of_mem {members sorted : List (String × Json)} {key : String}
    {value : Json} (distinct : (members.map Prod.fst).Nodup) (h : (key, value) ∈ members) :
  (members.foldl (fun sorted member => insertMember member.1 member.2 sorted) sorted).lookup key
    = some value
  := by
  induction members generalizing sorted with
  | nil => cases h
  | cons member members ih =>
    rw [List.map_cons, List.nodup_cons] at distinct
    rw [List.foldl_cons]
    rcases List.mem_cons.mp h with rfl | later
    · rw [lookup_insertMembers distinct.1, lookup_insertMember, if_pos rfl]
    · apply ih distinct.2 later

/-- No member is lost when their keys are distinct. -/
theorem member?_sortedObject {members : List (String × Json)} {key : String} {value : Json}
    (distinct : (members.map Prod.fst).Nodup) (h : (key, value) ∈ members) :
  (sortedObject members).member? key = some value
  := lookup_insertMembers_of_mem distinct h

end Json

/-! ### Values -/

namespace Value

/-- Whether a value is or holds a floating-point number, at any depth of lists. -/
inductive HoldsFloat : Value → Binary64 → Prop where
  | here (x : Binary64) : HoldsFloat (.float x) x
  | inside {items : List Value} {item : Value} {x : Binary64} (hitem : item ∈ items)
      (h : HoldsFloat item x) : HoldsFloat (.list items) x

/-- Whether all floating-point numbers in a value are finite. -/
def Finite (value : Value) : Prop :=
  ∀ x, value.HoldsFloat x → x.isFinite = true

/-- The items of a finite list are finite. -/
theorem Finite.item {items : List Value} (h : (Value.list items).Finite) :
  ∀ v ∈ items, v.Finite
  := fun _ hv x holds => h x (.inside hv holds)

variable {schema : RegionSchema}

/-- The items of a list are shown one by one, behind those shown before. -/
theorem toJsonItems_eq_ok {before shown : List Json} {items : List Value} :
  toJsonItems schema before items = .ok shown
    ↔ ∃ rest, List.Forall₂ (fun item json => item.toJson schema = .ok json) items rest
      ∧ shown = before.reverse ++ rest
  := by
  induction items generalizing before with
  | nil =>
    rw [toJsonItems]
    constructor
    · intro h
      use [], .nil
      rw [List.append_nil, Except.ok.inj h]
    · rintro ⟨rest, ⟨⟩, rfl⟩
      rw [List.append_nil]
  | cons item items ih =>
    rw [toJsonItems, Except.bind_eq_ok]
    constructor
    · rintro ⟨json, first, h⟩
      obtain ⟨rest, others, rfl⟩ := ih.mp h
      use json :: rest, .cons first others
      rw [List.reverse_cons, List.append_assoc]; rfl
    · rintro ⟨rest, all, rfl⟩
      cases all with
      | cons first others =>
      refine ⟨_, first, ih.mpr ⟨_, others, ?_⟩⟩
      rw [List.reverse_cons, List.append_assoc]
      rfl

/-- A list is shown as the array of what its items are shown as. -/
theorem toJson_list_eq_ok {items : List Value} {json : Json} :
  (Value.list items).toJson schema = .ok json
    ↔ ∃ shown, List.Forall₂ (fun item json => item.toJson schema = .ok json) items shown
      ∧ json = .array shown
  := by
  rw [toJson, Except.bind_eq_ok]
  constructor
  · rintro ⟨shown, h, h'⟩
    obtain ⟨_, all, rfl⟩ := toJsonItems_eq_ok.mp h
    use shown, all, (Except.ok.inj h').symm
  · rintro ⟨shown, all, rfl⟩
    use shown
    constructor
    · apply toJsonItems_eq_ok.mpr ⟨shown, all, rfl⟩
    · rfl

/-- A reference is shown as the name of its struct and its place. -/
theorem toJson_ref_eq_ok {target : Instance} {json : Json} :
  (Value.ref target).toJson schema = .ok json
    ↔ ∃ s, schema.structs[target.struct]? = some s
      ∧ json = .string (s.name ++ "#" ++ target.index.repr)
  := by
  rw [toJson, RegionSchema.label, bind_assoc, Except.bind_eq_ok]
  constructor
  · rintro ⟨s, hs, h⟩
    use s
    constructor
    · apply RegionSchema.struct_eq_ok.mp hs
    · apply (Except.ok.inj h).symm
  · rintro ⟨s, hs, rfl⟩
    use s
    constructor
    · apply RegionSchema.struct_eq_ok.mpr hs
    · rfl

end Value

namespace Region

variable {r r' : Region}

/-- A tree stands for one value of a type. -/
theorem HasType.eq_of_toJson {value value' : Value} {type : FieldType} {json : Json}
    (typed : r.HasType value type) (same : r'.schema = r.schema) (typed' : r'.HasType value' type)
    (finite : value.Finite) (finite' : value'.Finite) (h : value.toJson r.schema = .ok json)
    (h' : value'.toJson r'.schema = .ok json) :
  value = value'
  := by
  induction typed generalizing value' json with
  | int range =>
    cases typed' with
    | int range' =>
      obtain rfl := Except.ok.inj h
      rw [Int64.toInt_inj.mp (Json.int.inj (Except.ok.inj h'))]
  | uint range =>
    cases typed' with
    | uint range' =>
      obtain rfl := Except.ok.inj h
      have same := Json.int.inj (Except.ok.inj h')
      rw [UInt64.toNat_inj.mp (Int.ofNat.inj same)]
  | float x width =>
    cases typed' with
    | float y =>
      rw [Value.toJson, Json.ofFloat, if_pos (finite x (.here x))] at h
      rw [Value.toJson, Json.ofFloat, if_pos (finite' y (.here y))] at h'
      obtain rfl := Except.ok.inj h
      rw [Json.float.inj (Except.ok.inj h')]
  | bool b =>
    cases typed' with
    | bool b' =>
      obtain rfl := Except.ok.inj h
      rw [Json.bool.inj (Except.ok.inj h')]
  | string text =>
    cases typed' with
    | string text' =>
      obtain rfl := Except.ok.inj h
      rw [Json.string.inj (Except.ok.inj h')]
  | null id =>
    cases typed' with
    | null => rfl
    | ref holds =>
      obtain rfl := Except.ok.inj h
      obtain ⟨s, -, ⟨⟩⟩ := Value.toJson_ref_eq_ok.mp h'
  | @ref target holds =>
    obtain ⟨s, hs, rfl⟩ := Value.toJson_ref_eq_ok.mp h
    generalize hid : target.struct = id at typed'
    cases typed' with
    | null => cases Except.ok.inj h'
    | @ref target' holds' =>
      obtain ⟨s', hs', label⟩ := Value.toJson_ref_eq_ok.mp h'
      rw [same, ← hid] at hs'
      obtain rfl := Option.some.inj (hs.symm.trans hs')
      have index := Nat.repr_injective ((String.append_right_inj _).mp (Json.string.inj label))
      rw [Instance.eq_iff.mpr ⟨hid, index⟩]
  | list hitem all ih =>
    cases typed' with
    | list hitem' all' =>
      obtain ⟨shown, each, rfl⟩ := Value.toJson_list_eq_ok.mp h
      obtain ⟨_, each', ⟨⟩⟩ := Value.toJson_list_eq_ok.mp h'
      rw [same, hitem] at hitem'
      obtain rfl := Option.some.inj hitem'
      refine congrArg Value.list (eq_of_forall₂ each each' fun v hv v' hv' json first second => ?_)
      apply ih v hv (all' v' hv') (finite.item v hv) (finite'.item v' hv') first second

/-! ### Objects and pools -/

/-- Whether a tree shows the fields of an object, each under its name. -/
def ShowsObject (schema : RegionSchema) (s : StructSchema) (object : Object) (shown : Json) :
    Prop :=
  ∀ (i : Nat) (field : Field) (value : Value), s.fields[i]? = some field →
    object[i]? = some value →
    ∃ json, value.toJson schema = .ok json ∧ shown.member? field.name = some json

/-- Whether a tree shows the objects of every struct, in their order under its name. -/
def ShownBy (r : Region) (shown : Json) : Prop :=
  ∀ (id : Nat) (s : StructSchema) (pool : Pool Object), r.schema.structs[id]? = some s →
    r.pools[id]? = some pool →
    ∃ objects, shown.member? s.name = some (.array objects)
      ∧ List.Forall₂ (ShowsObject r.schema s) pool.toList objects

/-- Of names that are distinct each one has its member, the tree made at its place. -/
theorem member?_of_zipIdx (key : α → String) (f : α → Nat → Except Fault Json) {xs : List α}
    {shown : Json} (distinct : (xs.map key).Nodup)
    (h : (do return Json.sortedObject (← xs.zipIdx.mapM fun p => do
      return (key p.1, ← f p.1 p.2)) : Except Fault Json) = .ok shown)
    {i : Nat} {x : α} (hx : xs[i]? = some x) :
  ∃ json, f x i = .ok json ∧ shown.member? (key x) = some json
  := by
  obtain ⟨members, hmembers, h⟩ := Except.bind_eq_ok.mp h
  obtain rfl := Except.ok.inj h
  have each := Except.mapM_eq_ok.mp hmembers
  have keys : members.map Prod.fst = xs.map key := by
    rw [← List.zipIdx_map_fst 0 xs, List.map_map]
    rw [eq_comm, ← List.forall₂_eq_eq_eq, List.forall₂_map_left_iff, List.forall₂_map_right_iff]
    apply each.imp
    intro p member made
    obtain ⟨json, -, made⟩ := Except.bind_eq_ok.mp made
    obtain rfl := Except.ok.inj made
    rfl
  have place : xs.zipIdx[i]? = some (x, i) := by
    rw [List.getElem?_zipIdx, hx, Nat.zero_add]
    rfl
  obtain ⟨member, hmember, made⟩ := exists_of_forall₂ each place
  obtain ⟨json, hjson, made⟩ := Except.bind_eq_ok.mp made
  obtain rfl := Except.ok.inj made
  use json, hjson
  apply Json.member?_sortedObject (keys ▸ distinct) (List.mem_of_getElem? hmember)

/-- What an object is shown as has its values under the names of the fields. -/
theorem showsObject_of_objectJson {schema : RegionSchema} {s : StructSchema} {object : Object}
    {shown : Json} (distinct : (s.fields.map Field.name).Nodup)
    (h : objectJson schema s object = .ok shown) :
  ShowsObject schema s object shown
  := by
  intro i field value hfield hvalue
  obtain ⟨json, made, found⟩ := member?_of_zipIdx Field.name
    (fun _ number => do (← object.value number).toJson schema) distinct
    (by simpa only [objectJson, bind_assoc] using h) hfield
  rw [Object.value_eq_ok.mpr hvalue] at made
  use json, made, found

/-- The objects of a struct as JSON. -/
def poolJson (r : Region) (s : StructSchema) (struct : Nat) : Except Fault Json := do
  return .array (← (← r.pool struct).toList.mapM (objectJson r.schema s))

/-- A region is shown pool by pool, under the names of its structs. -/
theorem toJson_eq (r : Region) :
  r.toJson = do return .sortedObject (← r.schema.structs.zipIdx.mapM fun p => do
    return (p.1.name, ← r.poolJson p.1 p.2))
  := by
  simp only [toJson, poolJson, bind_assoc, pure_bind]

/-- The tree of a region shows all its objects. -/
theorem shownBy_of_toJson (distinct : r.schema.Distinct) {shown : Json}
    (h : r.toJson = .ok shown) :
  r.ShownBy shown
  := by
  rw [toJson_eq] at h
  intro id s pool hs hpool
  obtain ⟨json, made, found⟩ := member?_of_zipIdx StructSchema.name _ distinct.structs h hs
  obtain ⟨pool', hpool', made⟩ := Except.bind_eq_ok.mp made
  obtain rfl := Option.some.inj (hpool.symm.trans (pool_eq_ok.mp hpool'))
  obtain ⟨objects, hobjects, made⟩ := Except.bind_eq_ok.mp made
  obtain rfl := Except.ok.inj made
  use objects, found
  have fields := distinct.fields s (List.mem_of_getElem? hs)
  apply (Except.mapM_eq_ok.mp hobjects).imp
  intro object shown made
  apply showsObject_of_objectJson fields made

/-! ### Equal trees -/

/-- Whether every stored value conforms to the type of its field, and its numbers are finite. -/
def Showable (r : Region) : Prop :=
  ∀ p s slot value, r.Stores p s slot value →
    r.conforms value slot.type = .ok true ∧ value.Finite

section

variable {id : Nat} {s : StructSchema} {pool pool' : Pool Object} {object object' : Object}

/-- Every value of a pool is stored somewhere in its region. -/
theorem exists_stores (hs : r.schema.structs[id]? = some s) (hpool : r.pools[id]? = some pool)
    (hobject : object ∈ pool.toList) {i : Nat} {field : Field} {value : Value}
    (hfield : s.fields[i]? = some field) (hvalue : object[i]? = some value) :
  ∃ p, r.Stores p s field value
  := by
  obtain ⟨j, hj⟩ := List.mem_iff_getElem?.mp hobject
  have found : r.object ⟨id, j⟩ = .ok object := object_eq_ok.mpr ⟨pool, hpool, by
    rw [Pool.get?_eq_getElem?]
    apply hj⟩
  exact ⟨⟨⟨id, j⟩, i⟩, hs, hfield, field_eq_ok.mpr ⟨object, found, hvalue⟩⟩

/-- A region can be shown when the values of every object conform, with finite numbers. -/
theorem Showable.of_objects
    (all : ∀ (id : Nat) s pool, r.schema.structs[id]? = some s → r.pools[id]? = some pool →
      ∀ object ∈ pool.toList, List.Forall₂
        (fun value slot => r.conforms value slot.type = .ok true ∧ value.Finite)
        object s.fields) :
  r.Showable
  := by
  rintro ⟨⟨id, j⟩, i⟩ s slot value ⟨hs, hslot, hfield⟩
  obtain ⟨object, hobject, hvalue⟩ := field_eq_ok.mp hfield
  obtain ⟨pool, hpool, found⟩ := object_eq_ok.mp hobject
  rw [Pool.get?_eq_getElem?] at found
  have values := all id s pool hs hpool object (List.mem_of_getElem? found)
  obtain ⟨slot', hslot', shown⟩ := exists_of_forall₂ values hvalue
  obtain rfl := Option.some.inj (hslot.symm.trans hslot')
  apply shown

/-- What can be shown is well typed. -/
theorem Showable.wellTyped (showable : r.Showable) (wf : r.schema.WellFormed)
    (regular : r.Regular) :
  r.WellTyped
  := by
  intro target object hobject
  obtain ⟨pool, hpool, found⟩ := object_eq_ok.mp hobject
  rw [Pool.get?_eq_getElem?] at found
  have member := List.mem_of_getElem? found
  obtain ⟨inside, -⟩ := List.getElem?_eq_some_iff.mp hpool
  rw [regular.length_pools] at inside
  have hs := List.getElem?_eq_getElem inside
  use r.schema.structs[target.struct], hs
  refine List.forall₂_iff_get.mpr ⟨regular.length_of_mem_pool hs hpool member, ?_⟩
  intro i hi hi'
  obtain ⟨p, stored⟩ := exists_stores hs hpool member (List.getElem?_eq_getElem hi')
    (List.getElem?_eq_getElem hi)
  apply (conforms_eq_ok_true wf regular _ (stored.knows wf)).mp (showable p _ _ _ stored).1

variable (wf : r.schema.WellFormed) (same : r'.schema = r.schema) (regular : r.Regular)
  (regular' : r'.Regular) (showable : r.Showable) (showable' : r'.Showable)

include wf same regular regular' showable showable'

/-- Objects of one struct that have the same tree are equal. -/
theorem eq_of_showsObject (hs : r.schema.structs[id]? = some s) (hpool : r.pools[id]? = some pool)
    (hpool' : r'.pools[id]? = some pool') (hobject : object ∈ pool.toList)
    (hobject' : object' ∈ pool'.toList) {shown : Json} (h : ShowsObject r.schema s object shown)
    (h' : ShowsObject r'.schema s object' shown) :
  object = object'
  := by
  have hs' : r'.schema.structs[id]? = some s := by rw [same, hs]
  have width := regular.length_of_mem_pool hs hpool hobject
  have width' := regular'.length_of_mem_pool hs' hpool' hobject'
  apply List.ext_getElem (width.trans width'.symm)
  intro i hi hi'
  have hfield := List.getElem?_eq_getElem (show i < s.fields.length from width ▸ hi)
  have hvalue := List.getElem?_eq_getElem hi
  have hvalue' := List.getElem?_eq_getElem hi'
  obtain ⟨p, stored⟩ := exists_stores hs hpool hobject hfield hvalue
  obtain ⟨p', stored'⟩ := exists_stores hs' hpool' hobject' hfield hvalue'
  obtain ⟨conforms, finite⟩ := showable p _ _ _ stored
  obtain ⟨conforms', finite'⟩ := showable' p' _ _ _ stored'
  have wf' : r'.schema.WellFormed := by rwa [same]
  obtain ⟨json, hjson, found⟩ := h i _ _ hfield hvalue
  obtain ⟨json', hjson', found'⟩ := h' i _ _ hfield hvalue'
  obtain rfl := Option.some.inj (found.symm.trans found')
  have typed := (conforms_eq_ok_true wf regular _ (stored.knows wf)).mp conforms
  have typed' := (conforms_eq_ok_true wf' regular' _ (stored'.knows wf')).mp conforms'
  apply typed.eq_of_toJson same typed' finite finite' hjson hjson'

/-- Regions of one schema that a tree shows have the same pools. -/
theorem pools_eq_of_shownBy {shown : Json} (h : r.ShownBy shown) (h' : r'.ShownBy shown) :
  r.pools = r'.pools
  := by
  have count : r.pools.length = r'.pools.length := by
    rw [regular.length_pools, regular'.length_pools, same]
  apply List.ext_getElem count
  intro id hi hi'
  have hs := List.getElem?_eq_getElem (show id < r.schema.structs.length from
    regular.length_pools ▸ hi)
  have hpool := List.getElem?_eq_getElem hi
  have hpool' := List.getElem?_eq_getElem hi'
  obtain ⟨objects, found, all⟩ := h id _ _ hs hpool
  obtain ⟨objects', found', all'⟩ := h' id _ _ (by rw [same, hs]) hpool'
  obtain ⟨⟩ := Option.some.inj (found.symm.trans found')
  have items : r.pools[id].toList = r'.pools[id].toList := eq_of_forall₂ all all'
    fun object hobject object' hobject' shown => eq_of_showsObject wf same regular regular' showable
      showable' hs hpool hpool' hobject hobject'
  apply Pool.toList_inj.mp items

end

/-- Regions of a resolved schema whose values all conform, with finite numbers, have trees, and the
trees are equal exactly when the pools are.  The tree has the objects of every struct and the values
of every field, so no name takes the place of another.  Every reachable region is regular
(`Reachable.regular`). -/
theorem toJson_faithful {d : Declarations} {root : Ref SchemaDecl} {schemas : List RegionSchema}
    (hresolve : (d.resolve root).run = .ok (.ok schemas)) (hschema : r.schema ∈ schemas)
    (same : r'.schema = r.schema) (regular : r.Regular) (regular' : r'.Regular)
    (showable : r.Showable) (showable' : r'.Showable) :
  ∃ shown shown', r.toJson = .ok shown ∧ r'.toJson = .ok shown'
    ∧ (shown = shown' ↔ r.pools = r'.pools) ∧ r.ShownBy shown
  := by
  have wf := Declarations.wellFormed_of_resolve hresolve r.schema hschema
  have distinct := Declarations.distinct_of_resolve hresolve r.schema hschema
  have wf' : r'.schema.WellFormed := by rwa [same]
  have distinct' : r'.schema.Distinct := by rwa [same]
  obtain ⟨shown, hshown⟩ := (showable.wellTyped wf regular).toJson regular
  obtain ⟨shown', hshown'⟩ := (showable'.wellTyped wf' regular').toJson regular'
  have shows := shownBy_of_toJson distinct hshown
  refine ⟨shown, shown', hshown, hshown', ⟨?_, ?_⟩, shows⟩
  · rintro rfl
    exact pools_eq_of_shownBy wf same regular regular' showable showable' shows
      (shownBy_of_toJson distinct' hshown')
  · intro pools
    have equal : r = r' := by
      rw [show r = ⟨r.schema, r.pools⟩ from rfl, pools, ← same]
    rw [equal, hshown'] at hshown
    apply (Except.ok.inj hshown).symm

/-! ### Notes -/

/-- The declaration of a note with the next one, the others and a weight. -/
def noteDeclarations : Declarations where
  fields := .ofList [⟨"text", "string"⟩, ⟨"next", "Note"⟩, ⟨"rest", "[]Note"⟩,
    ⟨"weight", "float64"⟩]
  structs := .ofList [⟨"Note", [⟨0⟩, ⟨1⟩, ⟨2⟩, ⟨3⟩]⟩]
  regions := .ofList [⟨"Notes", [⟨0⟩]⟩]
  schemas := .ofList [⟨[⟨0⟩]⟩]

/-- The schema of such notes. -/
def notes : RegionSchema :=
  ⟨"Notes", [⟨"Note", [⟨"text", .string⟩, ⟨"next", .struct 0⟩, ⟨"rest", .list 0⟩,
    ⟨"weight", .float .w64⟩]⟩], [.struct 0]⟩

/-- The declarations of notes give the schema of notes. -/
theorem resolve_noteDeclarations :
  (noteDeclarations.resolve ⟨0⟩).run = .ok (.ok [notes])
  := by
  have compiled : compiled? (noteDeclarations.resolve ⟨0⟩).run = some [notes] := by
    decide +kernel
  apply eq_of_compiled? compiled

/-- A note with the given text, the given next note and the given weight, and an empty one. -/
def notebook (text : String) (next : Nat) (weight : Binary64) : Region :=
  ⟨notes, [.ofList [
    [.string text, .ref ⟨0, next⟩, .list [.ref ⟨0, 1⟩, .ref ⟨0, 0⟩], .float weight],
    [.string "", .null, .list [], .float Binary64.zero]]]⟩

section

variable (text : String) {next : Nat} {weight : Binary64}

/-- A notebook is regular. -/
theorem regular_notebook (next : Nat) (weight : Binary64) :
  (notebook text next weight).Regular
  := by
  simp [Region.Regular, notebook, notes, PoolsRegular, RegionSchema.widths, Pool.toList,
    Pool.ofList]

/-- A notebook can be shown if its weight is a number. -/
theorem showable_notebook (inside : next < 2) (finite : weight.isFinite = true) :
  (notebook text next weight).Showable
  := by
  have found : (notebook text next weight).conforms (.ref ⟨0, next⟩) (.struct 0) = .ok true :=
    congrArg Except.ok (decide_eq_true inside)
  have others : (Value.list [.ref ⟨0, 1⟩, .ref ⟨0, 0⟩]).Finite := by
    rintro x (_ | ⟨hitem, holds⟩)
    rcases List.mem_pair.mp hitem with rfl | rfl <;> cases holds
  have none : (Value.list []).Finite := by
    rintro x (_ | ⟨⟨⟩, -⟩)
  apply Showable.of_objects
  rintro (_ | id) s pool hs hpool
  · obtain rfl := Option.some.inj hs
    obtain rfl := Option.some.inj hpool
    rw [Pool.toList_ofList, List.forall_mem_cons, List.forall_mem_singleton]
    constructor
    · refine .cons ⟨rfl, ?_⟩ (.cons ⟨found, ?_⟩ (.cons ⟨rfl, others⟩ (.cons ⟨rfl, ?_⟩ .nil)))
      · rintro x ⟨⟩
      · rintro x ⟨⟩
      · rintro x ⟨⟩
        apply finite
    · refine .cons ⟨rfl, ?_⟩ (.cons ⟨rfl, ?_⟩ (.cons ⟨rfl, none⟩ (.cons ⟨rfl, ?_⟩ .nil)))
      · rintro x ⟨⟩
      · rintro x ⟨⟩
      · rintro x ⟨⟩
        rfl
  · cases hs

end

/-- The trees of the two zeros differ, and so do those of notes whose references and texts change
places, although a reference is shown as the text that names it. -/
theorem toJson_faithful_notes :
  ∃ shown changed negated, (notebook "Note#1" 0 Binary64.zero).toJson = .ok shown
    ∧ (notebook "Note#0" 1 Binary64.zero).toJson = .ok changed ∧ shown ≠ changed
    ∧ (notebook "Note#1" 0 ⟨0x8000000000000000⟩).toJson = .ok negated ∧ shown ≠ negated
    ∧ (notebook "Note#1" 0 Binary64.zero).ShownBy shown
  := by
  have member : (notebook "Note#1" 0 Binary64.zero).schema ∈ [notes] := List.mem_singleton_self _
  have same text next weight :
      (notebook text next weight).schema = (notebook "Note#1" 0 Binary64.zero).schema := rfl
  have compare text next weight (inside : next < 2) (finite : weight.isFinite = true) :=
    toJson_faithful resolve_noteDeclarations member (same text next weight)
      (regular_notebook _ _ _) (regular_notebook _ _ _) (showable_notebook _ (by decide) (by decide))
      (showable_notebook _ inside finite)
  obtain ⟨shown, changed, hshown, hchanged, swapped, shows⟩ :=
    compare "Note#0" 1 Binary64.zero (by decide) (by decide)
  obtain ⟨shown', negated, hshown', hnegated, signed, -⟩ :=
    compare "Note#1" 0 ⟨0x8000000000000000⟩ (by decide) (by decide)
  obtain rfl := Except.ok.inj (hshown.symm.trans hshown')
  use shown, changed, negated, hshown, hchanged
  constructor
  · intro equal
    have pools := swapped.mp equal
    simp [notebook, Pool.ofList] at pools
  constructor
  · apply hnegated
  constructor
  · intro equal
    have pools := signed.mp equal
    simp [notebook, Pool.ofList, Binary64.zero] at pools
  · apply shows

end Region

end PoolGraph
