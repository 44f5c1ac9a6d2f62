import PoolGraph.Binding
import PoolGraph.Proofs.State

/-!
# What binding keeps

Binding changes a region by `ObjectStore.allocate` and `ObjectStore.assign` alone.  So what these
two keep (`StoreInvariant`), the whole of `bindRoot` keeps, whether or not it finds errors.
-/

namespace PoolGraph

/-- A property of regions that allocating and assigning keep. -/
structure StoreInvariant {S : Type} [ObjectStore S] (P : S → Prop) : Prop where
  allocate : ∀ {s s' : S} {name : String} {target? : Option Instance}, P s →
    ObjectStore.allocate s name = .ok (target?, s') → P s'
  assign : ∀ {s s' : S} {target : Instance} {field : Nat} {value : Value}, P s →
    ObjectStore.assign s target field value = .ok s' → P s'

namespace Binding

namespace Keeps

variable {S : Type} {P : S → Prop}

/-- Reporting an error leaves the store alone. -/
theorem report (span : Span) (error : BindError) :
  Keeps (fun s => P s.store) (Binding.report span error : BindM S (Option α))
  := by
  intro s y s' hs h
  obtain ⟨-, rfl⟩ := Prod.mk.inj (Except.ok.inj h)
  apply hs

variable [ObjectStore S]

/-- Adding an object keeps what the operations of the store keep. -/
theorem allocate (inv : StoreInvariant P) (struct : String) :
  Keeps (fun s => P s.store) (Binding.allocate struct : BindM S Instance)
  := by
  intro s y s' hs h
  obtain ⟨⟨target?, store⟩, hstore, h⟩ := Except.bind_eq_ok.mp h
  cases target? with
  | none => cases h
  | some target =>
    obtain ⟨-, rfl⟩ := Prod.mk.inj (Except.ok.inj h)
    apply inv.allocate hs hstore

/-- Storing a value keeps what the operations of the store keep. -/
theorem assign (inv : StoreInvariant P) (target : Instance) (field : Nat) (value : Value) :
  Keeps (fun s => P s.store) (Binding.assign target field value : BindM S Unit)
  := by
  intro s y s' hs h
  obtain ⟨store, hstore, h⟩ := Except.bind_eq_ok.mp h
  obtain ⟨-, rfl⟩ := Prod.mk.inj (Except.ok.inj h)
  apply inv.assign hs hstore

end Keeps

variable {S : Type} [ObjectStore S] {P : S → Prop}

mutual

/-- Binding an expression keeps what the operations of the store keep. -/
theorem keeps_bind (inv : StoreInvariant P) (schema : RegionSchema) (expected : Option FieldType)
    (e : Expr) :
  Keeps (fun s => P s.store) (bind schema expected e : BindM S (Option Value))
  := by
  rw [bind.eq_def]
  apply Keeps.bind (Keeps.lift _)
  rintro (error | type)
  · apply Keeps.report
  dsimp only
  cases e with
  | string raw value => apply Keeps.pure
  | bool span value => apply Keeps.pure
  | integer raw =>
    apply Keeps.bind (Keeps.lift _)
    rintro (error | value)
    · apply Keeps.report
    · apply Keeps.pure
  | struct type? brace arguments =>
    cases type with
    | struct id =>
      apply Keeps.bind (Keeps.lift _)
      intro s
      apply Keeps.bind (Keeps.allocate inv _)
      intro target
      apply Keeps.bind (keeps_bindArguments inv schema s target [] true arguments)
      intro complete
      apply Keeps.pure
    | _ =>
      apply Keeps.bind (Keeps.lift _)
      intro name
      apply Keeps.report
  | list bracket items =>
    cases type with
    | list id =>
      apply Keeps.bind (Keeps.lift _)
      intro item
      apply Keeps.bind (keeps_bindItems inv schema item (some []) items)
      intro bound
      apply Keeps.pure
    | _ =>
      apply Keeps.bind (Keeps.lift _)
      intro name
      apply Keeps.report

/-- Binding arguments keeps what the operations of the store keep. -/
theorem keeps_bindArguments (inv : StoreInvariant P) (schema : RegionSchema) (s : StructSchema)
    (target : Instance) (defined : List Nat) (complete : Bool) (arguments : List (Token × Expr)) :
  Keeps (fun s => P s.store)
    (bindArguments schema s target defined complete arguments : BindM S Bool)
  := by
  cases arguments with
  | nil =>
    rw [bindArguments.eq_def]
    apply Keeps.pure
  | cons argument rest =>
    obtain ⟨name, value⟩ := argument
    have go := fun (defined : List Nat) (complete : Bool) =>
      keeps_bindArguments inv schema s target defined complete rest
    rw [bindArguments.eq_def]
    dsimp only
    cases s.field? name.text with
    | none =>
      apply Keeps.bind (Keeps.report _ _)
      intro _
      apply go
    | some slot =>
      obtain ⟨number, field⟩ := slot
      dsimp only
      split
      · apply Keeps.bind (Keeps.report _ _)
        intro _
        apply go
      · apply Keeps.bind (keeps_bind inv schema (some field.type) value)
        rintro (_ | bound)
        · apply go
        · apply Keeps.bind (Keeps.assign inv _ _ _)
          intro _
          apply go

/-- Binding items keeps what the operations of the store keep. -/
theorem keeps_bindItems (inv : StoreInvariant P) (schema : RegionSchema) (type : FieldType)
    (before : Option (List Value)) (items : List Expr) :
  Keeps (fun s => P s.store) (bindItems schema type before items : BindM S (Option (List Value)))
  := by
  cases items with
  | nil =>
    rw [bindItems.eq_def]
    apply Keeps.pure
  | cons item rest =>
    rw [bindItems.eq_def]
    apply Keeps.bind (keeps_bind inv schema (some type) item)
    intro bound
    apply keeps_bindItems inv schema type _ rest

end

end Binding

/-- Binding a file keeps what allocating and assigning keep. -/
theorem StoreInvariant.bindRoot {S : Type} [ObjectStore S] {P : S → Prop} (inv : StoreInvariant P)
    {store store' : S} {e : Expr} {result : Except (List Diagnostic) Value} (hs : P store)
    (h : PoolGraph.bindRoot store e = .ok (result, store')) :
  P store'
  := by
  obtain ⟨⟨value?, s⟩, hrun, h⟩ := Except.bind_eq_ok.mp h
  have kept : P s.store := Binding.keeps_bind inv _ _ e _ _ _ hs hrun
  cases value? with
  | none =>
    obtain ⟨-, rfl⟩ := Prod.mk.inj (Except.ok.inj h)
    apply kept
  | some value =>
    dsimp only at h
    split at h <;>
      · obtain ⟨-, rfl⟩ := Prod.mk.inj (Except.ok.inj h)
        apply kept

end PoolGraph
