import Mathlib.Data.List.Forall2

/-!
# Computations that succeed

When a sequence of computations in `Except` succeeds, each of them does, and when it fails it does
so in the way of the first that fails (`Except.error?_mapM`).
-/

namespace PoolGraph.Except

theorem bind_eq_ok {x : Except ε α} {f : α → Except ε β} {y : β} :
  (x >>= f) = .ok y ↔ ∃ a, x = .ok a ∧ f a = .ok y
  := by
  cases x with
  | error e =>
    constructor
    · intro h
      cases h
    · rintro ⟨a, ⟨⟩, -⟩
  | ok a =>
    constructor
    · intro h
      use a, rfl, h
    · rintro ⟨b, hb, h⟩
      obtain rfl := Except.ok.inj hb
      apply h

theorem bind_eq_error {x : Except ε α} {f : α → Except ε β} {e : ε} :
  (x >>= f) = .error e ↔ x = .error e ∨ ∃ a, x = .ok a ∧ f a = .error e
  := by
  cases x with
  | error e' =>
    constructor
    · intro h
      exact .inl (congrArg Except.error (Except.error.inj h))
    · rintro (h | ⟨a, ⟨⟩, -⟩)
      apply congrArg Except.error (Except.error.inj h)
  | ok a =>
    constructor
    · intro h
      exact .inr ⟨a, rfl, h⟩
    · rintro (⟨⟨⟩⟩ | ⟨b, hb, h⟩)
      obtain rfl := Except.ok.inj hb
      apply h

theorem mapError_eq_ok {x : Except ε α} {f : ε → ε'} {y : α} :
  x.mapError f = .ok y ↔ x = .ok y
  := by
  cases x with
  | error e => simp [Except.mapError]
  | ok a => simp [Except.mapError]

theorem mapError_bind (x : Except ε α) (f : α → Except ε β) (e : ε → ε') :
  (x >>= f).mapError e = x.mapError e >>= fun a => (f a).mapError e
  := by
  cases x <;> rfl

theorem mapError_mapM (xs : List α) (f : α → Except ε β) (e : ε → ε') :
  (xs.mapM f).mapError e = xs.mapM fun x => (f x).mapError e
  := by
  induction xs with
  | nil => rfl
  | cons x xs ih =>
    rw [List.mapM_cons, List.mapM_cons, mapError_bind]
    congr 1
    funext y
    rw [mapError_bind, ih]
    rfl

theorem mapM_eq_ok {f : α → Except ε β} {xs : List α} {ys : List β} :
  xs.mapM f = .ok ys ↔ List.Forall₂ (fun x y => f x = .ok y) xs ys
  := by
  induction xs generalizing ys with
  | nil =>
    rw [List.mapM_nil]
    constructor
    · intro h
      obtain rfl := Except.ok.inj h
      exact .nil
    · intro h
      cases h
      rfl
  | cons x xs ih =>
    rw [List.mapM_cons, bind_eq_ok]
    constructor
    · rintro ⟨y, hy, h⟩
      obtain ⟨rest, hrest, h⟩ := bind_eq_ok.mp h
      obtain rfl := Except.ok.inj h
      exact .cons hy (ih.mp hrest)
    · intro h
      cases h with
      | cons hy hrest =>
        refine ⟨_, hy, ?_⟩
        rw [ih.mpr hrest]
        rfl

/-- When a computation succeeds on every item, it does so on the list. -/
theorem exists_mapM_ok {f : α → Except ε β} {xs : List α} (h : ∀ x ∈ xs, ∃ y, f x = .ok y) :
  ∃ ys, xs.mapM f = .ok ys
  := by
  induction xs with
  | nil =>
    use []
    rfl
  | cons x xs ih =>
    obtain ⟨first, others⟩ := List.forall_mem_cons.mp h
    obtain ⟨y, hy⟩ := first
    obtain ⟨ys, hys⟩ := ih others
    use y :: ys
    apply mapM_eq_ok.mpr (.cons hy (mapM_eq_ok.mp hys))

/-- When a computation succeeds on a list, it does so on every item. -/
theorem exists_of_mapM_eq_ok {f : α → Except ε β} {xs : List α} {ys : List β}
    (h : xs.mapM f = .ok ys) :
  ∀ x ∈ xs, ∃ y, f x = .ok y
  := by
  intro x hx
  obtain ⟨i, hi, rfl⟩ := List.getElem_of_mem hx
  have all := mapM_eq_ok.mp h
  exact ⟨_, all.get hi (all.length_eq ▸ hi)⟩

/-- When every step of a fold succeeds from wherever it starts, the fold does. -/
theorem exists_foldlM_ok {f : β → α → Except ε β} {xs : List α}
    (h : ∀ x ∈ xs, ∀ acc, ∃ y, f acc x = .ok y) (acc : β) :
  ∃ y, xs.foldlM f acc = .ok y
  := by
  induction xs generalizing acc with
  | nil =>
    use acc
    rfl
  | cons x xs ih =>
    obtain ⟨first, others⟩ := List.forall_mem_cons.mp h
    obtain ⟨mid, hmid⟩ := first acc
    obtain ⟨y, hy⟩ := ih others mid
    rw [List.foldlM_cons]
    use y
    apply bind_eq_ok.mpr ⟨mid, hmid, hy⟩

/-- When a computation fails on a list, it fails on one of the items in the same way. -/
theorem exists_of_mapM_eq_error {f : α → Except ε β} {xs : List α} {e : ε}
    (h : xs.mapM f = .error e) :
  ∃ x ∈ xs, f x = .error e
  := by
  induction xs with
  | nil =>
    rw [List.mapM_nil] at h
    cases h
  | cons x xs ih =>
    rw [List.mapM_cons] at h
    rcases bind_eq_error.mp h with hx | ⟨y, -, h⟩
    · use x, .head _, hx
    · rcases bind_eq_error.mp h with hxs | ⟨ys, -, h⟩
      · obtain ⟨x', hx', failed⟩ := ih hxs
        use x', .tail _ hx', failed
      · cases h

/-- A computation fails on a list as it does on the first item on which it fails. -/
theorem mapM_eq_error {f : α → Except ε β} {xs : List α} {e : ε} :
  xs.mapM f = .error e ↔ ∃ (i : Nat) (x : α), xs[i]? = some x ∧ f x = .error e
    ∧ ∀ (j : Nat) (y : α), j < i → xs[j]? = some y → ∃ z, f y = .ok z
  := by
  induction xs with
  | nil =>
    rw [List.mapM_nil]
    constructor
    · intro h
      cases h
    · rintro ⟨i, x, hx, -⟩
      cases hx
  | cons x xs ih =>
    rw [List.mapM_cons, bind_eq_error]
    constructor
    · rintro (here | ⟨y, hy, h⟩)
      · refine ⟨0, x, rfl, here, fun j _ before _ => absurd before (Nat.not_lt_zero j)⟩
      · obtain ⟨i, x', hx', failed, before⟩ := ih.mp <|
          (bind_eq_error.mp h).resolve_right fun ⟨_, _, impossible⟩ => by cases impossible
        use i + 1, x', hx', failed
        intro j z hj hz
        cases j with
        | zero =>
          obtain rfl := Option.some.inj hz
          use y, hy
        | succ j => apply before j z (Nat.lt_of_succ_lt_succ hj) hz
    · rintro ⟨i, x', hx', failed, before⟩
      cases i with
      | zero =>
        obtain rfl := Option.some.inj hx'
        exact .inl failed
      | succ i =>
        obtain ⟨y, hy⟩ := before 0 x (Nat.succ_pos i) rfl
        refine .inr ⟨y, hy, bind_eq_error.mpr (.inl (ih.mpr ⟨i, x', hx', failed, ?_⟩))⟩
        intro j z hj hz
        apply before (j + 1) z (Nat.succ_lt_succ hj) hz

/-- The way in which a computation fails, if it does. -/
def error? : Except ε α → Option ε
  | .error e => some e
  | .ok _ => none

theorem error?_eq_none {x : Except ε α} : error? x = none ↔ ∃ y, x = .ok y
  := by
  cases x with
  | error e => simp [error?]
  | ok y => simp [error?]

theorem error?_eq_some {x : Except ε α} {e : ε} : error? x = some e ↔ x = .error e
  := by
  cases x with
  | error e => simp [error?]
  | ok y => simp [error?]

/-- Nothing fails behind a computation that goes on without failing. -/
theorem error?_bind_pure (x : Except ε α) (f : α → β) :
  error? (x >>= fun a => pure (f a)) = error? x
  := by
  cases x <;> rfl

theorem error?_mapM (f : α → Except ε β) (xs : List α) :
  error? (xs.mapM f) = xs.findSome? fun x => error? (f x)
  := by
  induction xs with
  | nil => rfl
  | cons x xs ih =>
    rw [List.mapM_cons, List.findSome?_cons]
    cases f x with
    | error e => rfl
    | ok y =>
      rw [← ih]
      apply error?_bind_pure

theorem bind_pure_eq_error {x : Except ε α} {f : α → β} {e : ε} :
  (x >>= fun a => pure (f a)) = .error e ↔ x = .error e
  := by
  rw [← error?_eq_some, error?_bind_pure, error?_eq_some]

theorem exists_bind_pure_eq_ok {x : Except ε α} {f : α → β} :
  (∃ y, (x >>= fun a => pure (f a)) = .ok y) ↔ ∃ a, x = .ok a
  := by
  rw [← error?_eq_none, error?_bind_pure, error?_eq_none]

/-- A computation succeeds on a list exactly when it does on every item. -/
theorem exists_mapM_eq_ok_iff {f : α → Except ε β} {xs : List α} :
  (∃ ys, xs.mapM f = .ok ys) ↔ ∀ x ∈ xs, ∃ y, f x = .ok y
  := ⟨fun ⟨_, h⟩ => exists_of_mapM_eq_ok h, exists_mapM_ok⟩

end PoolGraph.Except
