import PoolGraph.Proofs.Binding.Files
import PoolGraph.Proofs.Expr.Bare

/-!
# Binding does not look at places

What binding an expression comes to depends on its bare tree alone.  The places of tokens show up
in diagnostics and nowhere else, and the spelling of a string shows up nowhere
(`Binding.outcome_bare`).  Trees that differ in places are therefore bound to the same value and
the same objects, and errors are reported about them in the same words and the same order
(`Binding.bare_outcome_eq`).
-/

namespace PoolGraph

/-- A diagnostic without its place. -/
def Diagnostic.bare (diagnostic : Diagnostic) : Diagnostic :=
  ⟨default, diagnostic.message⟩

/-- An error about a bare expression has no place. -/
theorem Expr.errorSpan_bare (e : Expr) :
  e.bare.errorSpan = default
  := by
  cases e with
  | struct type? brace arguments => cases type? <;> rfl
  | _ => rfl

namespace Binding

/-- An outcome without the places of its errors. -/
def Outcome.bare (o : Outcome α) : Outcome α :=
  ⟨o.result, o.objects, o.reported.map Diagnostic.bare⟩

theorem Outcome.bare_after (o : Outcome α) (objects : List Added) (reported : List Diagnostic) :
  (o.after objects reported).bare = o.bare.after objects (reported.map Diagnostic.bare)
  := by
  rw [Outcome.after, bare, List.map_append]
  rfl

/-- The type of an expression and the error about it do not depend on places. -/
theorem inferType_bare (schema : RegionSchema) (expected : Option FieldType) (e : Expr) :
  inferType schema expected e.bare = inferType schema expected e
  := by
  cases e with
  | struct type? brace arguments => cases type? <;> rfl
  | _ => rfl

mutual

theorem outcome_bare (schema : RegionSchema) (size : Nat → Nat) (expected : Option FieldType)
    (e : Expr) :
  outcome schema size expected e.bare = Outcome.bare <$> outcome schema size expected e
  := by
  rw [outcome.eq_def, outcome.eq_def schema size expected e, inferType_bare, map_bind]
  apply bind_congr
  rintro (error | type)
  · dsimp only
    rw [Expr.errorSpan_bare]
    rfl
  dsimp only
  cases e with
  | string raw value => rfl
  | bool span value => rfl
  | integer raw =>
    rw [Expr.bare, map_bind]
    apply bind_congr
    rintro (error | value) <;> rfl
  | struct type? brace arguments =>
    rw [Expr.bare]
    cases type with
    | struct id =>
      simp only [argumentsOutcome_bare, map_bind, bind_map_left]
      rfl
    | _ =>
      dsimp only
      rw [map_bind]
      rfl
  | list bracket items =>
    rw [Expr.bare]
    cases type with
    | list id =>
      simp only [itemsOutcome_bare, map_bind, bind_map_left]
      rfl
    | _ =>
      dsimp only
      rw [map_bind]
      rfl

theorem argumentsOutcome_bare (schema : RegionSchema) (size : Nat → Nat) (s : StructSchema)
    (defined : List Nat) (object : Object) (complete : Bool) (arguments : List (Token × Expr)) :
  argumentsOutcome schema size s defined object complete (Expr.bareArguments arguments)
    = Outcome.bare <$> argumentsOutcome schema size s defined object complete arguments
  := by
  cases arguments with
  | nil =>
    rw [Expr.bareArguments, argumentsOutcome.eq_def]
    rfl
  | cons argument rest =>
    obtain ⟨name, value⟩ := argument
    rw [Expr.bareArguments, argumentsOutcome.eq_def,
      argumentsOutcome.eq_def schema size s defined object complete (_ :: rest)]
    dsimp only [Token.bare]
    cases s.field? name.text with
    | none =>
      simp only [argumentsOutcome_bare, map_bind, bind_map_left, map_pure, Outcome.bare_after]
      rfl
    | some slot =>
      dsimp only
      split
      · simp only [argumentsOutcome_bare, map_bind, bind_map_left, map_pure, Outcome.bare_after]
        rfl
      · simp only [outcome_bare, argumentsOutcome_bare, map_bind, bind_map_left, map_pure,
          Outcome.bare_after]
        rfl

theorem itemsOutcome_bare (schema : RegionSchema) (size : Nat → Nat) (type : FieldType)
    (before : Option (List Value)) (items : List Expr) :
  itemsOutcome schema size type before (Expr.bareItems items)
    = Outcome.bare <$> itemsOutcome schema size type before items
  := by
  cases items with
  | nil =>
    rw [Expr.bareItems, itemsOutcome.eq_def]
    rfl
  | cons item rest =>
    rw [Expr.bareItems, itemsOutcome.eq_def,
      itemsOutcome.eq_def schema size type before (_ :: rest)]
    dsimp only
    simp only [outcome_bare, itemsOutcome_bare, map_bind, bind_map_left, map_pure,
      Outcome.bare_after]
    rfl

end

/-- Trees that differ in places alone come to the same, places aside. -/
theorem bare_outcome_eq {schema : RegionSchema} {size : Nat → Nat} {expected : Option FieldType}
    {e e' : Expr} (h : e.bare = e'.bare) {o o' : Outcome (Option Value)}
    (ho : outcome schema size expected e = .ok o) (ho' : outcome schema size expected e' = .ok o') :
  o.bare = o'.bare
  := by
  have same := outcome_bare schema size expected e
  rw [h, outcome_bare, ho, ho'] at same
  apply (Except.ok.inj same).symm

end Binding

end PoolGraph
