import PoolGraph.Compile.Error
import PoolGraph.Proofs.Except

/-!
# Compilations that succeed

When a compilation goes through without a refusal or a fault, each of its steps does.  It meets no
fault when none of its steps does (`Compile.Faultless`).
-/

namespace PoolGraph.Compile

/-- Two compilations in a row succeed if the first does and the second does behind it. -/
theorem bind_eq_ok {x : Compile α} {f : α → Compile β} {y : β} :
  (x >>= f).run = .ok (.ok y) ↔ ∃ a, x.run = .ok (.ok a) ∧ (f a).run = .ok (.ok y)
  := by
  rw [ExceptT.run_bind, Except.bind_eq_ok]
  constructor
  · rintro ⟨(e | a), hx, h⟩
    · cases Except.ok.inj h
    · use a, hx, h
  · rintro ⟨a, hx, h⟩
    use .ok a, hx, h

/-- Behind a step that goes through, a compilation goes on with the others. -/
theorem run_bind_of_eq_ok {x : Compile α} {f : α → Compile β} {a : α} (h : x.run = .ok (.ok a)) :
  (x >>= f).run = (f a).run
  := by
  rw [ExceptT.run_bind, h]
  rfl

/-- A step that refuses a file ends a compilation. -/
theorem run_bind_of_eq_error {x : Compile α} {f : α → Compile β} {e : CompileError}
    (h : x.run = .ok (.error e)) :
  (x >>= f).run = .ok (.error e)
  := by
  rw [ExceptT.run_bind, h]
  rfl

/-- A step that can only fault succeeds if it does not. -/
theorem lift_eq_ok {x : Except Fault α} {y : α} :
  (liftM x : Compile α).run = .ok (.ok y) ↔ x = .ok y
  := by
  cases x with
  | error fault =>
    constructor <;>
      · intro h
        cases h
  | ok a =>
    constructor
    · intro h
      obtain rfl := Except.ok.inj (Except.ok.inj h)
      rfl
    · intro h
      obtain rfl := Except.ok.inj h
      rfl

/-- A result is compiled to itself. -/
theorem ofExcept_eq_ok {result : Except CompileError α} {y : α} :
  (ofExcept result).run = .ok (.ok y) ↔ result = .ok y
  := by
  constructor
  · intro h
    apply Except.ok.inj h
  · rintro rfl
    rfl

theorem ofCodec_eq_ok {result : Except CodecError α} {y : α} :
  (ofCodec result).run = .ok (.ok y) ↔ result = .ok y
  := by
  rw [ofCodec, ofExcept_eq_ok, Except.mapError_eq_ok]

theorem ofSchema_eq_ok {result : Except SchemaError α} {y : α} :
  (ofSchema result).run = .ok (.ok y) ↔ result = .ok y
  := by
  rw [ofSchema, ofExcept_eq_ok, Except.mapError_eq_ok]

/-! ### Compilations without a fault -/

/-- Whether a computation goes through or refuses a file, but meets no fault. -/
def Faultless (x : Compile α) : Prop :=
  ∃ result, x.run = .ok result

namespace Faultless

theorem pure (x : α) :
  Faultless (Pure.pure x)
  := ⟨.ok x, rfl⟩

theorem throw (e : CompileError) :
  Faultless (MonadExcept.throw e : Compile α)
  := ⟨.error e, rfl⟩

theorem ofExcept (result : Except CompileError α) :
  Faultless (ofExcept result)
  := ⟨result, rfl⟩

theorem lift {x : Except Fault α} (h : ∃ y, x = .ok y) :
  Faultless (liftM x : Compile α)
  := by
  obtain ⟨y, rfl⟩ := h
  exact ⟨.ok y, rfl⟩

/-- The second step need only be looked at where the first one goes through. -/
theorem bind {x : Compile α} {f : α → Compile β} (hx : Faultless x)
    (hf : ∀ a, x.run = .ok (.ok a) → Faultless (f a)) :
  Faultless (x >>= f)
  := by
  obtain ⟨result, hresult⟩ := hx
  cases result with
  | error e => exact ⟨.error e, run_bind_of_eq_error hresult⟩
  | ok a =>
    rw [Faultless, run_bind_of_eq_ok hresult]
    apply hf a hresult

/-- Behind a step that goes through, a compilation without a fault meets none. -/
theorem behind {x : Compile α} {f : α → Compile β} {a : α} (h : Faultless (x >>= f))
    (hx : x.run = .ok (.ok a)) :
  Faultless (f a)
  := by
  rw [Faultless, run_bind_of_eq_ok hx] at h
  apply h

end Faultless

end PoolGraph.Compile
