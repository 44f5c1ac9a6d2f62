import Mathlib.Tactic.Use
import PoolGraph.Proofs.Declaration.Agreement
import PoolGraph.Proofs.Declaration.Binding

/-!
# Storing in declarations and in their region

A field of a declaration takes values of one kind: strings, or lists of references to one struct.
The region with the same objects compares the value to the type of the field.  The two refuse the
same values and store alike (`Declarations.assign_alike`), except that references between
declarations are always set, so that no list of them has room for an unset one, and that the region
alone looks whether they lead to objects: what the region takes, the declarations take too.
-/

namespace PoolGraph

theorem Except.exists_error_iff {x : Except ε α} :
  (∃ e, x = .error e) ↔ ¬ ∃ a, x = .ok a
  := by
  cases x with
  | error e => simp
  | ok a => simp

theorem Ref.ofValue_eq_ok {α : Type} [Declared α] {value : Value} {ref : Ref α} :
  Ref.ofValue α value = .ok ref ↔ value = .ref ⟨Declared.struct α, ref.index⟩
  := by
  constructor
  · intro h
    unfold Ref.ofValue at h
    split at h
    · next target =>
      split at h
      · next here =>
        obtain rfl := Except.ok.inj h
        rw [← here]
      · cases h
    · cases h
  · rintro rfl
    apply if_pos rfl

namespace Declarations

variable {d : Declarations} {value : Value}

/-- Whether a value has no unset references and is of a type as far as its references lead to
objects. -/
structure Admits (d : Declarations) (value : Value) (type : FieldType) : Prop where
  set : value.IsSet
  typed : (∀ target, value.Mentions target → d.toRegion.Holds target) →
    d.toRegion.HasType value type

theorem admits_string (text : String) :
  Admits d (.string text) .string
  := ⟨.string text, fun _ => .string text⟩

/-- What is taken for a list of references is one. -/
theorem admits_refs (α : Type) [Declared α] {items : List Value} {refs : List (Ref α)}
    (h : items.mapM (Ref.ofValue α) = .ok refs) {id : Nat}
    (hitem : declarationSchema.lists[id]? = some (.struct (Declared.struct α))) :
  Admits d (.list items) (.list id)
  := by
  have each : ∀ v ∈ items, ∃ index, v = .ref ⟨Declared.struct α, index⟩ := by
    intro v hv
    obtain ⟨i, hi, rfl⟩ := List.getElem_of_mem hv
    have all := Except.mapM_eq_ok.mp h
    exact ⟨_, Ref.ofValue_eq_ok.mp (all.get hi (all.length_eq ▸ hi))⟩
  refine ⟨.list fun v hv => ?_, fun held => .list hitem fun v hv => ?_⟩
  · obtain ⟨index, rfl⟩ := each v hv
    exact .ref _
  · obtain ⟨index, rfl⟩ := each v hv
    exact .ref (held _ (.inside hv (.here _)))

/-- What a field of a declaration takes. -/
theorem admits_of_assign {d' : Declarations} {target : Instance} {struct : StructSchema}
    (hs : declarationSchema.structs[target.struct]? = some struct) {field : Nat} {slot : Field}
    (hslot : struct.fields[field]? = some slot) (h : d.assign target field value = .ok d') :
  Admits d value slot.type
  := by
  unfold assign at h
  split at h
  case h_8 => cases h
  all_goals
    rename_i here
    rw [here] at hs
    obtain rfl := Option.some.inj hs
    obtain rfl := Option.some.inj hslot
  case h_1 | h_2 | h_3 | h_5 => apply admits_string
  case h_4 =>
    obtain ⟨refs, hrefs, -⟩ := Except.bind_eq_ok.mp h
    apply admits_refs FieldDecl hrefs rfl
  case h_6 =>
    obtain ⟨refs, hrefs, -⟩ := Except.bind_eq_ok.mp h
    apply admits_refs StructDecl hrefs rfl
  case h_7 =>
    obtain ⟨refs, hrefs, -⟩ := Except.bind_eq_ok.mp h
    apply admits_refs RegionDecl hrefs rfl

section

variable {target : Instance} {object : Object} (hobject : d.toRegion.object target = .ok object)
  {struct : StructSchema} (hs : declarationSchema.structs[target.struct]? = some struct)
  {field : Nat} {slot : Field} (hslot : struct.fields[field]? = some slot)

include hobject hs hslot

/-- The region with the same objects takes the values of the type of the field. -/
theorem toRegion_assign_eq_ok_iff {r : Region} :
  d.toRegion.assign target field value = .ok r
    ↔ d.toRegion.HasType value slot.type ∧ r = d.toRegion.setObject target (object.set field value)
  := by
  have regular : d.toRegion.Regular := d.regular_toRegion
  apply Region.assign_eq_ok_iff wellFormed_declarationSchema regular hobject hs hslot

/-- What both take changes both alike. -/
theorem toRegion_eq_of_assign {d' : Declarations} {r : Region}
    (h : d.assign target field value = .ok d') (h' : d.toRegion.assign target field value = .ok r) :
  d'.toRegion = r
  := by
  obtain ⟨typed, rfl⟩ := (toRegion_assign_eq_ok_iff hobject hs hslot).mp h'
  have set := (admits_of_assign hs hslot h).set
  obtain ⟨d'', again, view⟩ := toRegion_assign hobject hs hslot typed set
  obtain rfl := Except.ok.inj (h.symm.trans again)
  apply view

/-- Of the values without unset references the region takes those that the declarations take and
whose references lead to objects. -/
theorem exists_toRegion_assign_iff (set : value.IsSet) :
  (∃ r, d.toRegion.assign target field value = .ok r)
    ↔ (∃ d', d.assign target field value = .ok d')
      ∧ ∀ other, value.Mentions other → d.toRegion.Holds other
  := by
  simp only [toRegion_assign_eq_ok_iff hobject hs hslot]
  constructor
  · rintro ⟨r, typed, -⟩
    obtain ⟨d', h, -⟩ := toRegion_assign hobject hs hslot typed set
    constructor
    · use d'
    · intro other
      apply typed.holds
  · rintro ⟨⟨d', h⟩, held⟩
    use d.toRegion.setObject target (object.set field value)
    constructor
    · apply (admits_of_assign hs hslot h).typed held
    · rfl

end

/-- A field of a declaration refuses every value with an unset reference in it.  A value without one
that it refuses is refused by the field of the same object in the region, and the region refuses
more only if a reference leads to no object.  So the two refuse the same values where all references
are set and lead to objects.  What both take changes both alike. -/
theorem assign_alike {target : Instance} {object : Object}
    (hobject : d.toRegion.object target = .ok object) {struct : StructSchema}
    (hs : declarationSchema.structs[target.struct]? = some struct) {field : Nat} {slot : Field}
    (hslot : struct.fields[field]? = some slot) (value : Value) :
  (¬ value.IsSet → ∃ fault, d.assign target field value = .error fault)
    ∧ (value.IsSet → (∃ fault, d.assign target field value = .error fault) →
      ∃ fault, d.toRegion.assign target field value = .error fault)
    ∧ (value.IsSet → ((∃ fault, d.toRegion.assign target field value = .error fault)
      ↔ (∃ fault, d.assign target field value = .error fault)
        ∨ ∃ other, value.Mentions other ∧ ¬ d.toRegion.Holds other))
    ∧ (value.IsSet → (∀ other, value.Mentions other → d.toRegion.Holds other) →
      ((∃ fault, d.assign target field value = .error fault)
        ↔ ∃ fault, d.toRegion.assign target field value = .error fault))
    ∧ ∀ d' r, d.assign target field value = .ok d' →
      d.toRegion.assign target field value = .ok r → d'.toRegion = r
  := by
  have refused (set : value.IsSet) :
      (∃ fault, d.toRegion.assign target field value = .error fault)
        ↔ (∃ fault, d.assign target field value = .error fault)
          ∨ ∃ other, value.Mentions other ∧ ¬ d.toRegion.Holds other := by
    rw [Except.exists_error_iff, Except.exists_error_iff,
      exists_toRegion_assign_iff hobject hs hslot set, not_and_or]
    simp only [not_forall, exists_prop]
  constructor
  · intro unset
    apply Except.exists_error_iff.mpr
    rintro ⟨d', h⟩
    apply unset (admits_of_assign hs hslot h).set
  constructor
  · intro set fault
    apply (refused set).mpr (.inl fault)
  use refused
  constructor
  · intro set held
    rw [refused set, or_iff_left]
    rintro ⟨other, mentioned, dangling⟩
    apply dangling (held other mentioned)
  · intro d' r
    apply toRegion_eq_of_assign hobject hs hslot

/-- A struct beside the declaration of a field that it does not have yet. -/
def fieldless : Declarations :=
  ⟨.ofList [⟨"next", "Node"⟩], .ofList [⟨"Node", []⟩], .empty, .empty⟩

theorem toRegion_fieldless :
  fieldless.toRegion
    = ⟨declarationSchema, [.ofList [[.string "next", .string "Node"]],
        .ofList [[.string "Node", .list []]], .empty, .empty]⟩
  := by
  simp only [toRegion, fieldless, Pool.map, Pool.ofList, Pool.empty, List.map_toArray]
  rfl

/-- The struct is given its field: neither refuses the list, and the objects stay the same.  A list
of references to regions, which lead to nothing, is refused by both. -/
theorem assign_alike_fieldless :
  fieldless.toRegion.object ⟨1, 0⟩ = .ok [.string "Node", .list []]
    ∧ (Value.list [.ref ⟨0, 0⟩]).IsSet
    ∧ (∀ other, (Value.list [.ref ⟨0, 0⟩]).Mentions other → fieldless.toRegion.Holds other)
    ∧ ((∃ fault, fieldless.assign ⟨1, 0⟩ 1 (.list [.ref ⟨0, 0⟩]) = .error fault)
      ↔ ∃ fault, fieldless.toRegion.assign ⟨1, 0⟩ 1 (.list [.ref ⟨0, 0⟩]) = .error fault)
    ∧ (∃ d', fieldless.assign ⟨1, 0⟩ 1 (.list [.ref ⟨0, 0⟩]) = .ok d'
      ∧ fieldless.toRegion.assign ⟨1, 0⟩ 1 (.list [.ref ⟨0, 0⟩]) = .ok d'.toRegion)
    ∧ (∃ fault, fieldless.assign ⟨1, 0⟩ 1 (.list [.ref ⟨2, 5⟩]) = .error fault)
    ∧ ∃ fault, fieldless.toRegion.assign ⟨1, 0⟩ 1 (.list [.ref ⟨2, 5⟩]) = .error fault
  := by
  have hobject : fieldless.toRegion.object ⟨1, 0⟩ = .ok [.string "Node", .list []] := by
    rw [toRegion_fieldless]
    rfl
  have set (target : Instance) : (Value.list [.ref target]).IsSet :=
    .list (List.forall_mem_singleton.mpr (.ref target))
  have held : ∀ other, (Value.list [.ref ⟨0, 0⟩]).Mentions other →
      fieldless.toRegion.Holds other := by
    rintro _ ⟨⟩
    next hitem mentions =>
    obtain rfl := List.mem_singleton.mp hitem
    cases mentions
    rw [toRegion_fieldless]
    apply Nat.one_pos
  have hslot : [Field.mk "name" .string, ⟨"fields", .list 0⟩][1]? = some ⟨"fields", .list 0⟩ := rfl
  obtain ⟨-, -, -, same, alike⟩ := assign_alike hobject rfl hslot (.list [.ref ⟨0, 0⟩])
  obtain ⟨-, more, -⟩ := assign_alike hobject rfl hslot (.list [.ref ⟨2, 5⟩])
  have stored : fieldless.toRegion.assign ⟨1, 0⟩ 1 (.list [.ref ⟨0, 0⟩])
      = .ok (fieldless.toRegion.setObject ⟨1, 0⟩ [.string "Node", .list [.ref ⟨0, 0⟩]]) := by
    rw [toRegion_fieldless]
    rfl
  have strange : ∃ fault, fieldless.assign ⟨1, 0⟩ 1 (.list [.ref ⟨2, 5⟩]) = .error fault :=
    ⟨_, rfl⟩
  use hobject, set _, held, same (set _) held
  constructor
  · apply Exists.intro _
    apply And.intro rfl
    rw [alike _ _ rfl stored, stored]
  · use strange
    apply more (set _) strange

/-- An unset reference in a list is refused by the declarations alone, and a reference to no object
by the region alone. -/
theorem assign_differs :
  (∃ fault, fieldless.assign ⟨1, 0⟩ 1 (.list [.null]) = .error fault)
    ∧ (∃ r, fieldless.toRegion.assign ⟨1, 0⟩ 1 (.list [.null]) = .ok r)
    ∧ (∃ d', fieldless.assign ⟨1, 0⟩ 1 (.list [.ref ⟨0, 1⟩]) = .ok d')
    ∧ ∃ fault, fieldless.toRegion.assign ⟨1, 0⟩ 1 (.list [.ref ⟨0, 1⟩]) = .error fault
  := by
  rw [toRegion_fieldless]
  constructor
  · exact ⟨_, rfl⟩
  constructor
  · exact ⟨_, rfl⟩
  constructor
  · exact ⟨_, rfl⟩
  · exact ⟨_, rfl⟩

end Declarations

end PoolGraph
