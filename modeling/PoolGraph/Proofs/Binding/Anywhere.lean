import PoolGraph.Proofs.Binding.Shifting

/-!
# Binding into any region

`Binding.outcome` says what binding comes to even where the objects of a region do not hold what
they should: the binder looks at the sizes of the pools alone (`Binding.bind_run_of_regular`).
Larger pools move the references of an outcome and change nothing else (`Binding.outcome_moved`),
so that whether there is a value, and which errors there are, does not depend on the region.
-/

namespace PoolGraph

open Binding

/-- An object whose references lead past as many objects of their struct. -/
def Added.shift (base : Nat → Nat) (a : Added) : Added :=
  ⟨a.struct, a.object.map (Value.shift base)⟩

namespace Added

variable {base size : Nat → Nat}

/-- Moving the objects that are added moves those of each struct. -/
theorem of_map_shift (id : Nat) (added : List Added) :
  Added.of id (added.map (Added.shift base)) = (Added.of id added).map (List.map (Value.shift base))
  := by
  rw [Added.of, Added.of, List.filter_map, List.map_map, List.map_map]
  rfl

/-- Objects that are moved add to the sizes of the pools what they add where they are. -/
theorem sizes_map_shift (added : List Added) :
  Added.sizes (fun id => base id + size id) (added.map (Added.shift base))
    = fun id => base id + Added.sizes size added id
  := by
  funext id
  rw [Added.sizes, Added.sizes, of_map_shift, List.length_map, Nat.add_assoc]

/-- A zero object has no reference to move. -/
theorem shift_zero (id : Nat) (s : StructSchema) :
  Added.shift base ⟨id, s.zero⟩ = ⟨id, s.zero⟩
  := by
  rw [Added.shift, StructSchema.map_shift_zero]

end Added

namespace Binding

/-! ### Outcomes among other objects -/

/-- An outcome in which the references lead past as many objects of their struct. -/
def Outcome.moved (f : α → β) (base : Nat → Nat) (o : Outcome α) : Outcome β :=
  ⟨f o.result, o.objects.map (Added.shift base), o.reported⟩

variable {base : Nat → Nat}

/-- Objects that came before are moved with the others. -/
theorem Outcome.moved_after (f : α → β) (o : Outcome α) (objects : List Added)
    (reported : List Diagnostic) :
  (o.after objects reported).moved f base
    = (o.moved f base).after (objects.map (Added.shift base)) reported
  := by
  rw [Outcome.after, moved, List.map_append]
  rfl

/-- A value is stored alike before and after both are moved. -/
theorem filled_map_shift (object : Object) (number : Nat) (value? : Option Value) :
  filled (object.map (Value.shift base)) number (value?.map (Value.shift base))
    = (filled object number value?).map (Value.shift base)
  := by
  cases value? with
  | none => rfl
  | some value =>
    rw [Option.map_some, filled, filled, List.map_set]

mutual

/-- Behind other objects an expression comes to what it comes to among none, with its references
moved. -/
theorem outcome_moved (schema : RegionSchema) (size : Nat → Nat) (expected : Option FieldType)
    (e : Expr) :
  outcome schema (fun id => base id + size id) expected e
    = Outcome.moved (Option.map (Value.shift base)) base <$> outcome schema size expected e
  := by
  rw [outcome.eq_def, outcome.eq_def schema size, map_bind]
  apply bind_congr
  rintro (error | type)
  · rfl
  dsimp only
  cases e with
  | string raw value => rfl
  | bool span value => rfl
  | integer raw =>
    dsimp only
    cases hnumber : numberOf schema type raw.text with
    | error fault => rfl
    | ok number =>
      cases number with
      | error error => rfl
      | ok value =>
        show Except.ok _ = Except.ok (Outcome.mk (some (value.shift base)) [] [])
        rw [shift_of_numberOf hnumber]
  | struct type? brace arguments =>
    cases type with
    | struct id =>
      dsimp only
      rw [map_bind]
      apply bind_congr
      intro s
      have zeros := argumentsOutcome_moved schema (Added.sizes size [⟨id, s.zero⟩]) s [] s.zero
        true arguments
      rw [← Added.sizes_map_shift, List.map_singleton, Added.shift_zero,
        StructSchema.map_shift_zero] at zeros
      rw [zeros, bind_map_left, map_bind]
      apply bind_congr
      rintro ⟨⟨object, complete⟩, objects, reported⟩
      cases complete <;> rfl
    | _ =>
      dsimp only
      rw [map_bind]
      rfl
  | list bracket items =>
    cases type with
    | list id =>
      dsimp only
      rw [map_bind]
      apply bind_congr
      intro item
      have all := itemsOutcome_moved schema size item (some []) items
      rw [Option.map_some, List.map_nil] at all
      rw [all, bind_map_left, map_bind]
      apply bind_congr
      rintro ⟨_ | values, objects, reported⟩
      · rfl
      · show Except.ok (Outcome.mk (some (Value.list (values.map (Value.shift base)))) _ _) = _
        rw [← Value.shift_list]
        rfl
    | _ =>
      dsimp only
      rw [map_bind]
      rfl

/-- Behind other objects arguments come to what they come to among none, with their references
moved. -/
theorem argumentsOutcome_moved (schema : RegionSchema) (size : Nat → Nat) (s : StructSchema)
    (defined : List Nat) (object : Object) (complete : Bool) (arguments : List (Token × Expr)) :
  argumentsOutcome schema (fun id => base id + size id) s defined (object.map (Value.shift base))
      complete arguments
    = Outcome.moved (Prod.map (List.map (Value.shift base)) id) base
      <$> argumentsOutcome schema size s defined object complete arguments
  := by
  cases arguments with
  | nil =>
    rw [argumentsOutcome.eq_def, argumentsOutcome.eq_def schema size]
    rfl
  | cons argument rest =>
    obtain ⟨name, value⟩ := argument
    rw [argumentsOutcome.eq_def, argumentsOutcome.eq_def schema size]
    dsimp only
    cases s.field? name.text with
    | none =>
      simp only [argumentsOutcome_moved, map_bind, bind_map_left, map_pure, Outcome.moved_after]
      rfl
    | some slot =>
      dsimp only
      split
      · simp only [argumentsOutcome_moved, map_bind, bind_map_left, map_pure, Outcome.moved_after]
        rfl
      · simp only [outcome_moved, map_bind, bind_map_left, Outcome.moved, Added.sizes_map_shift,
          filled_map_shift, Option.isSome_map, argumentsOutcome_moved, map_pure, Outcome.after,
          List.map_append]

/-- Behind other objects items come to what they come to among none, with their references moved. -/
theorem itemsOutcome_moved (schema : RegionSchema) (size : Nat → Nat) (type : FieldType)
    (before : Option (List Value)) (items : List Expr) :
  itemsOutcome schema (fun id => base id + size id) type
      (before.map (List.map (Value.shift base))) items
    = Outcome.moved (Option.map (List.map (Value.shift base))) base
      <$> itemsOutcome schema size type before items
  := by
  cases items with
  | nil =>
    rw [itemsOutcome.eq_def, itemsOutcome.eq_def schema size]
    cases before with
    | none => rfl
    | some values =>
      show Except.ok (Outcome.mk (some (values.map (Value.shift base)).reverse) [] []) = _
      rw [← List.map_reverse]
      rfl
  | cons item rest =>
    rw [itemsOutcome.eq_def, itemsOutcome.eq_def schema size]
    dsimp only
    rw [outcome_moved, bind_map_left, map_bind]
    apply bind_congr
    intro bound
    have gathered : (do return (← bound.result.map (Value.shift base))
          :: (← before.map (List.map (Value.shift base))))
        = (do return (← bound.result) :: (← before) : Option (List Value)).map
          (List.map (Value.shift base)) := by
      cases bound.result <;> cases before <;> rfl
    simp only [Outcome.moved, Added.sizes_map_shift, gathered, itemsOutcome_moved, map_bind,
      bind_map_left, map_pure, Outcome.after, List.map_append]

end

end Binding

/-! ### Regions whose values are of any type -/

namespace Region

/-- An object that is added to the region behind is added to both, moved. -/
theorem followedBy_add (front back : Region) (a : Added) :
  front.followedBy (back.add a) = (front.followedBy back).add (a.shift front.size)
  := by
  rw [add, add, followedBy, followedBy, Region.mk.injEq]
  constructor
  · rfl
  apply zipWith_modify
  intro old pool _
  apply Pool.followedBy_push

/-- Objects added to the region behind are added to the whole, moved. -/
theorem followedBy_extend (front back : Region) (added : List Added) :
  front.followedBy (back.extend added)
    = (front.followedBy back).extend (added.map (Added.shift front.size))
  := by
  induction added generalizing back with
  | nil => rfl
  | cons a added ih =>
    show front.followedBy ((back.add a).extend added) = _
    rw [ih, followedBy_add]
    rfl

end Region

/-- An expression is bound into a region as its outcome for the sizes of the pools says, whatever
the objects of the region hold. -/
theorem Binding.bind_run_of_regular {r : Region} (wf : r.schema.WellFormed)
    (distinct : r.schema.Distinct) (regular : r.Regular) {expected : Option FieldType}
    (known : ∀ t, expected = some t → r.schema.Knows t) {e : Expr} (he : e.WellFormed)
    (reported : Array Diagnostic) :
  ∃ o, outcome r.schema r.size expected e = .ok o
    ∧ (bind r.schema expected e).run ⟨r, reported⟩
      = .ok (o.result, ⟨r.extend o.objects, reported ++ o.reported.toArray⟩)
    ∧ ∀ a ∈ o.objects, a.struct < r.schema.structs.length
  := by
  obtain ⟨o, after, hout, hrun, ran, -⟩ := bind_run (Region.models wf distinct) wf expected known e
    he ⟨Region.empty r.schema, reported⟩ (Region.sound_empty r.schema)
  obtain ⟨-, hrun⟩ := moves_bind r.schema expected e _ _ _ (Region.parallel_empty regular) hrun
  have size : r.size = fun id => r.size id + (Region.empty r.schema).size id := by
    funext id
    rw [Region.size_empty, Nat.add_zero]
  have store : r.followedBy after.store = r.extend (o.objects.map (Added.shift r.size)) := by
    rw [ran.view_eq, Region.followedBy_extend, Region.followedBy_empty regular]
  rw [State.behind, State.behind, Region.followedBy_empty regular, store, ran.reported_eq] at hrun
  use o.moved (Option.map (Value.shift r.size)) r.size
  constructor
  · rw [size, outcome_moved, hout, ← size]
    rfl
  constructor
  · apply hrun
  · intro a ha
    obtain ⟨a', ha', rfl⟩ := List.mem_map.mp ha
    apply ran.known a' ha'

end PoolGraph
