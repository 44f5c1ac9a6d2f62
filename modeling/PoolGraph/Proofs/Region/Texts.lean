import PoolGraph.Proofs.Region.WellTyped
import PoolGraph.Region.Text

/-!
# Texts of well-typed regions

A reference is shown by the name of its struct, so that a text has a fault when a reference names
no struct of the schema.  In a well-typed region none does, and both texts of the region exist
(`Region.WellTyped.text`, `Region.WellTyped.toJson`).
-/

namespace PoolGraph

namespace Value

/-- Whether every reference in a value names a struct of the schema. -/
def Names (schema : RegionSchema) (value : Value) : Prop :=
  ∀ target, value.Mentions target → target.struct < schema.structs.length

variable {schema : RegionSchema}

theorem Names.item {items : List Value} (h : (Value.list items).Names schema) :
  ∀ v ∈ items, v.Names schema
  := by
  intro v hv target mentions
  apply h target (.inside hv mentions)

theorem Names.label {target : Instance} (h : (Value.ref target).Names schema) :
  ∃ label, schema.label target = .ok label
  := by
  have inside := h target (.here target)
  have found := RegionSchema.struct_eq_ok.mpr (List.getElem?_eq_getElem inside)
  exact ⟨_, Except.bind_eq_ok.mpr ⟨_, found, rfl⟩⟩

mutual

theorem exists_appendText (value : Value) (h : value.Names schema) (out : String) :
  ∃ text, value.appendText schema.label out = .ok text
  := by
  cases value with
  | ref target =>
    obtain ⟨label, hlabel⟩ := h.label
    rw [appendText]
    use out ++ label, Except.bind_eq_ok.mpr ⟨label, hlabel, rfl⟩
  | list items =>
    obtain ⟨text, htext⟩ := exists_appendItems items h.item "" (out ++ "[")
    rw [appendText]
    use text ++ "]", Except.bind_eq_ok.mpr ⟨text, htext, rfl⟩
  | bool b => cases b <;> exact ⟨_, rfl⟩
  | _ => exact ⟨_, rfl⟩

theorem exists_appendItems (items : List Value) (h : ∀ v ∈ items, v.Names schema)
    (separator out : String) :
  ∃ text, appendItems schema.label separator out items = .ok text
  := by
  cases items with
  | nil =>
    use out
    rfl
  | cons item rest =>
    obtain ⟨first, others⟩ := List.forall_mem_cons.mp h
    obtain ⟨shown, hshown⟩ := exists_appendText item first (out ++ separator)
    obtain ⟨text, htext⟩ := exists_appendItems rest others ", " shown
    rw [appendItems]
    use text
    apply Except.bind_eq_ok.mpr ⟨shown, hshown, htext⟩

end

mutual

theorem exists_toJson (value : Value) (h : value.Names schema) :
  ∃ json, value.toJson schema = .ok json
  := by
  cases value with
  | ref target =>
    obtain ⟨label, hlabel⟩ := h.label
    rw [toJson]
    use Json.string label, Except.bind_eq_ok.mpr ⟨label, hlabel, rfl⟩
  | list items =>
    obtain ⟨shown, hshown⟩ := exists_toJsonItems items h.item []
    rw [toJson]
    use Json.array shown, Except.bind_eq_ok.mpr ⟨shown, hshown, rfl⟩
  | _ => exact ⟨_, rfl⟩

theorem exists_toJsonItems (items : List Value) (h : ∀ v ∈ items, v.Names schema)
    (before : List Json) :
  ∃ shown, toJsonItems schema before items = .ok shown
  := by
  cases items with
  | nil =>
    use before.reverse
    rfl
  | cons item rest =>
    obtain ⟨first, others⟩ := List.forall_mem_cons.mp h
    obtain ⟨json, hjson⟩ := exists_toJson item first
    obtain ⟨shown, hshown⟩ := exists_toJsonItems rest others (json :: before)
    rw [toJsonItems]
    use shown
    apply Except.bind_eq_ok.mpr ⟨json, hjson, hshown⟩

end

end Value

namespace Region

variable {schema : RegionSchema} {r : Region}

section

variable {object : Object} (names : ∀ v ∈ object, v.Names schema)

include names

/-- The values of an object are listed where there is one for each field. -/
theorem exists_appendFields (number : Nat) {fields : List Field}
    (width : number + fields.length = object.length) (separator out : String) :
  ∃ text, appendFields schema object number separator out fields = .ok text
  := by
  induction fields generalizing number separator out with
  | nil =>
    use out
    rfl
  | cons field rest ih =>
    rw [List.length_cons] at width
    have inside : number < object.length := by omega
    have found := Object.value_eq_ok.mpr (List.getElem?_eq_getElem inside)
    obtain ⟨shown, hshown⟩ := Value.exists_appendText object[number]
      (names _ (List.getElem_mem inside)) (out ++ separator ++ field.name ++ ": ")
    obtain ⟨text, htext⟩ := ih (number + 1) (by omega) ", " shown
    use text
    apply Except.bind_eq_ok.mpr
    use object[number], found
    apply Except.bind_eq_ok.mpr
    use shown, hshown

/-- An object is shown where it has a value for each field. -/
theorem exists_objectJson {s : StructSchema} (width : object.length = s.fields.length) :
  ∃ json, objectJson schema s object = .ok json
  := by
  have each : ∀ p ∈ s.fields.zipIdx, ∃ member : String × Json,
      (do return (p.1.name, ← (← object.value p.2).toJson schema)) = Except.ok member := by
    intro p hp
    obtain ⟨inside, -⟩ := List.getElem?_eq_some_iff.mp (List.mem_zipIdx_iff_getElem?.mp hp)
    rw [← width] at inside
    have found := Object.value_eq_ok.mpr (List.getElem?_eq_getElem inside)
    obtain ⟨json, hjson⟩ := Value.exists_toJson object[p.2] (names _ (List.getElem_mem inside))
    use (p.1.name, json)
    apply Except.bind_eq_ok.mpr
    use object[p.2], found
    apply Except.bind_eq_ok.mpr
    use json, hjson
    rfl
  obtain ⟨members, hmembers⟩ := Except.exists_mapM_ok each
  use .sortedObject members
  apply Except.bind_eq_ok.mpr
  use members, hmembers
  rfl

end

theorem exists_appendObjects {s : StructSchema} {objects : List Object}
    (widths : ∀ object ∈ objects, object.length = s.fields.length)
    (names : ∀ object ∈ objects, ∀ v ∈ object, v.Names schema) (index : Nat) (out : String) :
  ∃ text, appendObjects schema s index out objects = .ok text
  := by
  induction objects generalizing index out with
  | nil =>
    use out
    rfl
  | cons object rest ih =>
    obtain ⟨width, widths⟩ := List.forall_mem_cons.mp widths
    obtain ⟨first, others⟩ := List.forall_mem_cons.mp names
    obtain ⟨shown, hshown⟩ := exists_appendFields first 0
      ((Nat.zero_add _).trans width.symm) "" (out ++ s.name ++ "#" ++ toString index ++ " \x7b")
    obtain ⟨text, htext⟩ := ih widths others (index + 1) (shown ++ "\x7d\n")
    use text
    apply Except.bind_eq_ok.mpr
    use shown, hshown

section

variable (typed : r.WellTyped) (regular : r.Regular)

include typed regular

/-- Every struct has a pool, whose objects have a value for each field, and in them every reference
names a struct. -/
theorem WellTyped.exists_pool {id : Nat} {s : StructSchema}
    (hs : r.schema.structs[id]? = some s) :
  ∃ pool, r.pool id = .ok pool ∧ (∀ object ∈ pool.toList, object.length = s.fields.length)
    ∧ ∀ object ∈ pool.toList, ∀ v ∈ object, v.Names r.schema
  := by
  obtain ⟨pool, found⟩ := Region.exists_pool (regular.lt_length_pools hs)
  have hpool := pool_eq_ok.mp found
  use pool, found
  constructor
  · intro object hobject
    apply regular.length_of_mem_pool hs hpool hobject
  · intro object hobject v hv target mentions
    obtain ⟨j, hj⟩ := List.mem_iff_getElem?.mp hobject
    rw [Pool.toList, Array.getElem?_toList] at hj
    have stored : r.object ⟨id, j⟩ = .ok object := object_eq_ok.mpr ⟨pool, hpool, hj⟩
    have holds := typed.closed ⟨id, j⟩ target ⟨object, stored, v, hv, mentions⟩
    rw [← regular.length_pools]
    apply holds.lt_length_pools

/-- The listing of a well-typed region exists. -/
theorem WellTyped.text :
  ∃ text, r.text = .ok text
  := by
  apply Except.exists_foldlM_ok
  intro p hp out
  obtain ⟨pool, found, widths, names⟩ :=
    typed.exists_pool regular (List.mem_zipIdx_iff_getElem?.mp hp)
  obtain ⟨text, htext⟩ := exists_appendObjects widths names 0 out
  use text
  apply Except.bind_eq_ok.mpr
  use pool, found

/-- The pools of a well-typed region can be shown as JSON. -/
theorem WellTyped.toJson :
  ∃ json, r.toJson = .ok json
  := by
  have each : ∀ p ∈ r.schema.structs.zipIdx, ∃ member : String × Json, (do return (p.1.name,
      .array (← (← r.pool p.2).toList.mapM (objectJson r.schema p.1)))) = Except.ok member := by
    intro p hp
    obtain ⟨pool, found, widths, names⟩ :=
      typed.exists_pool regular (List.mem_zipIdx_iff_getElem?.mp hp)
    obtain ⟨objects, hobjects⟩ := Except.exists_mapM_ok fun object ho =>
      exists_objectJson (names object ho) (widths object ho)
    use (p.1.name, .array objects)
    apply Except.bind_eq_ok.mpr
    use pool, found
    apply Except.bind_eq_ok.mpr
    use objects, hobjects
    rfl
  obtain ⟨members, hmembers⟩ := Except.exists_mapM_ok each
  use .sortedObject members
  apply Except.bind_eq_ok.mpr
  use members, hmembers
  rfl

end

end Region

end PoolGraph
