import PoolGraph.Proofs.Except

/-!
# Computations with a state

`Ensures P m Q` says that from a state with `P` a run of `m` that succeeds leads to a result and
a state with `Q`, and `Keeps P m` that a property of the state is kept.
-/

namespace PoolGraph

variable {σ ε α β : Type}

/-- A computation that goes through goes through its parts, each from the state of the one
before. -/
theorem run_bind_eq_ok {m : StateT σ (Except ε) α} {f : α → StateT σ (Except ε) β} {s s₂ : σ}
    {y : β} :
  (m >>= f).run s = .ok (y, s₂) ↔ ∃ x s₁, m.run s = .ok (x, s₁) ∧ (f x).run s₁ = .ok (y, s₂)
  := by
  rw [StateT.run_bind, Except.bind_eq_ok]
  constructor
  · rintro ⟨⟨x, s₁⟩, hx, hy⟩
    use x, s₁, hx, hy
  · rintro ⟨x, s₁, hx, hy⟩
    use (x, s₁), hx, hy

/-- What a successful run from a state with `P` leads to. -/
def Ensures (P : σ → Prop) (m : StateT σ (Except ε) α) (Q : α → σ → Prop) : Prop :=
  ∀ s x s', P s → m.run s = .ok (x, s') → Q x s'

/-- Whether a successful run keeps a property of the state. -/
def Keeps (P : σ → Prop) (m : StateT σ (Except ε) α) : Prop :=
  Ensures P m fun _ => P

namespace Ensures

variable {P : σ → Prop} {Q : α → σ → Prop}

/-- A fact that does not depend on the state can be taken out of what held before. -/
theorem assume {m : StateT σ (Except ε) α} {fact : Prop} (h : fact → Ensures P m Q) :
  Ensures (fun s => fact ∧ P s) m Q
  := by
  rintro s x s' ⟨holds, hs⟩ run
  apply h holds s x s' hs run

/-- Giving a result changes nothing. -/
theorem pure {x : α} (h : ∀ s, P s → Q x s) :
  Ensures P (Pure.pure x : StateT σ (Except ε) α) Q
  := by
  intro s y s' hs run
  obtain ⟨rfl, rfl⟩ := Prod.mk.inj (Except.ok.inj run)
  apply h _ hs

/-- What the first part ensures is what the second part may rely on. -/
theorem bind {m : StateT σ (Except ε) α} {f : α → StateT σ (Except ε) β} {R : β → σ → Prop}
    (hm : Ensures P m Q) (hf : ∀ x, Ensures (Q x) (f x) R) :
  Ensures P (m >>= f) R
  := by
  intro s y s' hs run
  obtain ⟨⟨x, mid⟩, hx, hy⟩ := Except.bind_eq_ok.mp run
  apply hf x mid y s' _ hy
  apply hm s x mid hs hx

/-- A computation without state leaves the state alone. -/
theorem lift {x : Except ε α} (h : ∀ a s, x = .ok a → P s → Q a s) :
  Ensures P (liftM x : StateT σ (Except ε) α) Q
  := by
  intro s y s' hs run
  obtain ⟨a, ha, run⟩ := Except.bind_eq_ok.mp run
  obtain ⟨rfl, rfl⟩ := Prod.mk.inj (Except.ok.inj run)
  apply h a _ ha hs

/-- The state itself may be looked at. -/
theorem get {R : σ → σ → Prop} (h : ∀ s, P s → R s s) :
  Ensures P (MonadState.get : StateT σ (Except ε) σ) R
  := by
  intro s y s' hs run
  obtain ⟨rfl, rfl⟩ := Prod.mk.inj (Except.ok.inj run)
  apply h _ hs

/-- A change of the state ensures what holds of the changed state. -/
theorem modify {f : σ → σ} {R : Unit → σ → Prop} (h : ∀ s, P s → R () (f s)) :
  Ensures P (modify f : StateT σ (Except ε) Unit) R
  := by
  intro s y s' hs run
  obtain ⟨rfl, rfl⟩ := Prod.mk.inj (Except.ok.inj run)
  apply h _ hs

end Ensures

namespace Keeps

variable {P : σ → Prop}

/-- Giving a result keeps every property. -/
theorem pure (x : α) :
  Keeps P (Pure.pure x : StateT σ (Except ε) α)
  := by
  apply Ensures.pure
  intro s hs
  apply hs

/-- What each part keeps the whole keeps. -/
theorem bind {m : StateT σ (Except ε) α} {f : α → StateT σ (Except ε) β} (hm : Keeps P m)
    (hf : ∀ x, Keeps P (f x)) :
  Keeps P (m >>= f)
  := Ensures.bind hm hf

/-- A computation without state keeps every property. -/
theorem lift (x : Except ε α) :
  Keeps P (liftM x : StateT σ (Except ε) α)
  := by
  apply Ensures.lift
  intro a s _ hs
  apply hs

end Keeps

end PoolGraph
