import Mathlib.Data.List.Forall2
import Mathlib.Tactic.Tauto
import Mathlib.Tactic.Use

/-!
# Lists side by side

Lists that `List.Forall₂` relates item by item have related items at the same positions
(`exists_of_forall₂`) and agree in what is computed from related items.  A list is walked beside the
positions of another one as beside the other itself (`mapM_zipIdx_eq`).
-/

namespace PoolGraph

section

variable {R : α → β → Prop} {xs : List α} {ys : List β}

/-- What stands beside an item is related to it. -/
theorem exists_of_forall₂ (h : List.Forall₂ R xs ys) {i : Nat} {x : α} (hx : xs[i]? = some x) :
  ∃ y, ys[i]? = some y ∧ R x y
  := by
  obtain ⟨inside, rfl⟩ := List.getElem?_eq_some_iff.mp hx
  have inside' := h.length_eq ▸ inside
  exact ⟨ys[i], List.getElem?_eq_getElem inside', h.get inside inside'⟩

/-- Every item of the second list stands beside one of the first. -/
theorem exists_mem_of_forall₂ (h : List.Forall₂ R xs ys) {y : β} (hy : y ∈ ys) :
  ∃ x ∈ xs, R x y
  := by
  obtain ⟨i, hi⟩ := List.mem_iff_getElem?.mp hy
  obtain ⟨x, hx, related⟩ := exists_of_forall₂ h.flip hi
  use x, List.mem_of_getElem? hx, related

/-- Searches that give the same for related items give the same. -/
theorem findSome?_eq_of_forall₂ {f : α → Option γ} {g : β → Option γ} (h : List.Forall₂ R xs ys)
    (same : ∀ x y, R x y → f x = g y) :
  xs.findSome? f = ys.findSome? g
  := by
  induction h with
  | nil => rfl
  | cons first _ ih => rw [List.findSome?_cons, List.findSome?_cons, same _ _ first, ih]

end

theorem map_eq_map_of_forall₂ {f : α → γ} {g : β → γ} {xs : List α} {ys : List β}
    (h : List.Forall₂ (fun x y => f x = g y) xs ys) :
  xs.map f = ys.map g
  := by
  rw [← List.forall₂_eq_eq_eq, List.forall₂_map_left_iff, List.forall₂_map_right_iff]
  apply h

/-- Lists whose items are related to the same ones are equal when the items are. -/
theorem eq_of_forall₂ {R S : α → γ → Prop} {xs ys : List α} {zs : List γ}
    (h : List.Forall₂ R xs zs) (h' : List.Forall₂ S ys zs)
    (one : ∀ x ∈ xs, ∀ y ∈ ys, ∀ z, R x z → S y z → x = y) :
  xs = ys
  := by
  induction h generalizing ys with
  | nil =>
    cases h'
    rfl
  | cons first others ih =>
    cases h' with
    | cons first' others' =>
      rw [one _ (.head _) _ (.head _) _ first first',
        ih others' fun x hx y hy => one x (.tail _ hx) y (.tail _ hy)]

/-- Walks that do the same at every item are the same. -/
theorem mapM_congr {m : Type → Type} [Monad m] [LawfulMonad m] {α β : Type} {xs : List α}
    {f g : α → m β} (same : ∀ x ∈ xs, f x = g x) :
  xs.mapM f = xs.mapM g
  := by
  induction xs with
  | nil => rw [List.mapM_nil, List.mapM_nil]
  | cons x xs ih =>
    obtain ⟨first, others⟩ := List.forall_mem_cons.mp same
    rw [List.mapM_cons, List.mapM_cons, first, ih others]

/-- A walk over items with their positions is one over items side by side with those of another
list when what it does at a position depends on the item there. -/
theorem mapM_zipIdx_eq {m : Type → Type} [Monad m] [LawfulMonad m] {α β γ : Type} {xs : List α}
    {ys : List β} (same : xs.length = ys.length) {k : Nat} {f : α × Nat → m γ} {g : α × β → m γ}
    (each : ∀ (i : Nat) x y, xs[i]? = some x → ys[i]? = some y → f (x, k + i) = g (x, y)) :
  (xs.zipIdx k).mapM f = (xs.zip ys).mapM g
  := by
  induction xs generalizing k ys with
  | nil => rw [List.zipIdx_nil, List.zip_nil_left, List.mapM_nil, List.mapM_nil]
  | cons x xs ih =>
    obtain ⟨y, ys, rfl⟩ := List.exists_cons_of_length_eq_add_one same.symm
    have first : f (x, k) = g (x, y) := each 0 x y rfl rfl
    rw [List.zipIdx_cons, List.zip_cons_cons, List.mapM_cons, List.mapM_cons, first]
    congr 1
    funext z
    rw [ih (Nat.succ.inj same)]
    intro i x' y' hx hy
    rw [Nat.add_assoc, Nat.add_comm 1]
    apply each (i + 1) x' y'
    · rw [List.getElem?_cons_succ, hx]
    · rw [List.getElem?_cons_succ, hy]

/-! ### Lists made of others -/

/-- What two functions make of the same items stands side by side. -/
theorem forall₂_map_map {S : β → γ → Prop} {f : α → β} {g : α → γ} {xs : List α}
    (h : ∀ x ∈ xs, S (f x) (g x)) :
  List.Forall₂ S (xs.map f) (xs.map g)
  := by
  rw [List.forall₂_map_left_iff, List.forall₂_map_right_iff, List.forall₂_same]
  apply h

/-- A value put beside an item that it is related to leaves the lists side by side. -/
theorem forall₂_set {R : α → β → Prop} {xs : List α} {ys : List β} (h : List.Forall₂ R xs ys)
    {i : Nat} {x : α} {y : β} (hy : ys[i]? = some y) (hx : R x y) :
  List.Forall₂ R (xs.set i x) ys
  := by
  induction h generalizing i with
  | nil => exact .nil
  | cons first rest ih =>
    cases i with
    | zero =>
      obtain rfl := Option.some.inj hy
      exact .cons hx rest
    | succ i => exact .cons first (ih hy)

/-- Lists side by side with one list are side by side. -/
theorem forall₂_trans {R : α → β → Prop} {S : β → γ → Prop} {T : α → γ → Prop}
    (h : ∀ x y z, R x y → S y z → T x z) {xs : List α} {ys : List β} {zs : List γ}
    (first : List.Forall₂ R xs ys) (second : List.Forall₂ S ys zs) :
  List.Forall₂ T xs zs
  := by
  induction first generalizing zs with
  | nil =>
    cases second
    exact .nil
  | cons hx _ ih =>
    cases second with
    | cons hy rest => exact .cons (h _ _ _ hx hy) (ih rest)

/-- Items that stand beside pairs stand beside the second parts of the pairs. -/
theorem forall₂_zip_zip {f : γ → β} {Q : α → γ → δ → Prop} {xs : List α} {ys : List β}
    (same : xs.length = ys.length) {zs : List γ} {ws : List δ} :
  (zs.length = (xs.zip ys).length
      ∧ List.Forall₂ (fun p w => f p.2 = p.1.2 ∧ Q p.1.1 p.2 w) ((xs.zip ys).zip zs) ws)
    ↔ zs.length = xs.length ∧ zs.map f = ys ∧ List.Forall₂ (fun p w => Q p.1 p.2 w) (xs.zip zs) ws
  := by
  induction xs generalizing ys zs ws with
  | nil =>
    obtain rfl := List.eq_nil_of_length_eq_zero same.symm
    cases zs <;> simp
  | cons x xs ih =>
    cases ys with
    | nil => cases same
    | cons y ys =>
      cases zs with
      | nil => simp
      | cons z zs =>
        cases ws with
        | nil => simp
        | cons w ws =>
          simp only [List.zip_cons_cons, List.length_cons, List.map_cons, List.cons.injEq,
            List.forall₂_cons, Nat.add_right_cancel_iff]
          have ih := @ih ys (Nat.succ.inj same) zs ws
          tauto

/-- What stands side by side with a list stands so with one that corresponds to it. -/
theorem forall₂_zip_of {R : α → β → Prop} {Q : β × γ → δ → Prop} {xs : List α} {ys : List β}
    (h : List.Forall₂ R xs ys) {zs : List γ} {ws : List δ} (all : List.Forall₂ Q (ys.zip zs) ws) :
  List.Forall₂ (fun p w => ∃ y, R p.1 y ∧ Q (y, p.2) w) (xs.zip zs) ws
  := by
  induction h generalizing zs ws with
  | nil =>
    cases all
    exact .nil
  | cons hx _ ih =>
    cases zs with
    | nil =>
      cases all
      exact .nil
    | cons z zs =>
      cases all with
      | cons first rest => exact .cons ⟨_, hx, first⟩ (ih rest)

/-- Lists whose items look alike at each place look alike. -/
theorem mapIdx_eq_mapIdx {R : α → β → Prop} {f : Nat → α → γ} {g : Nat → β → γ}
    (h : ∀ i x y, R x y → f i x = g i y) {xs : List α} {ys : List β} (all : List.Forall₂ R xs ys) :
  xs.mapIdx f = ys.mapIdx g
  := by
  induction all generalizing f g with
  | nil => rfl
  | cons first _ ih =>
    rw [List.mapIdx_cons, List.mapIdx_cons, h 0 _ _ first]
    apply congrArg
    apply ih
    intro i
    apply h

/-- A change of one argument shows at the same place of the result. -/
theorem zipWith_modify {f : α → β → γ} {xs : List α} {ys : List β} {i : Nat} {g : β → β}
    {h : γ → γ} (commute : ∀ x y, xs[i]? = some x → f x (g y) = h (f x y)) :
  List.zipWith f xs (ys.modify i g) = (List.zipWith f xs ys).modify i h
  := by
  apply List.ext_getElem?
  intro j
  rw [List.getElem?_zipWith, List.getElem?_modify, List.getElem?_modify, List.getElem?_zipWith]
  cases hx : xs[j]? with
  | none => rfl
  | some x =>
    cases ys[j]? with
    | none => rfl
    | some y =>
      by_cases here : i = j
      · subst here
        simp only [Option.map_eq_map, Option.map_some, if_true, commute x y hx]
      · simp only [Option.map_eq_map, Option.map_some, if_neg here]

end PoolGraph
