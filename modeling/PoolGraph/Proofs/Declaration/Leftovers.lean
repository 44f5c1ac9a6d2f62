import PoolGraph.Proofs.Declaration.Agreement
import PoolGraph.Proofs.Region.Objects

/-!
# What a refused reading leaves

Reading into empty declarations first makes pools of the sizes that the bytes announce and then
fills them.  When the bytes are refused before all sizes are known, the declarations stay empty;
when they are refused later, pools of these sizes stay, and nothing can be read into the declarations
any more (`Declarations.deserialize_eq_error`).  In a region the same bytes leave nothing.
-/

namespace PoolGraph.Declarations

/-- The number of declarations of each kind. -/
def sizes (d : Declarations) : List Nat :=
  [d.fields.size, d.structs.size, d.regions.size, d.schemas.size]

/-- Declarations are empty if all four pools are. -/
theorem isEmpty_iff_sizes {d : Declarations} :
  d.isEmpty = true ↔ d.sizes = [0, 0, 0, 0]
  := by
  have pool : ∀ {α} (p : Pool α), p.isEmpty = true ↔ p.size = 0 := by
    intro α p
    rw [Pool.isEmpty, Array.isEmpty_iff_size_eq_zero, Pool.size]
  simp only [isEmpty, Bool.and_eq_true, pool, sizes, List.cons.injEq, and_true, and_assoc]

/-- Only one set of declarations is empty. -/
theorem isEmpty_iff {d : Declarations} :
  d.isEmpty = true ↔ d = empty
  := by
  have pool : ∀ {α} (p : Pool α), p.isEmpty = true ↔ p = Pool.empty := by
    rintro α ⟨objects⟩
    rw [Pool.isEmpty, Array.isEmpty_iff, Pool.empty, Pool.mk.injEq]
  obtain ⟨_, _, _, _⟩ := d
  simp only [isEmpty, Bool.and_eq_true, pool, empty, mk.injEq, and_assoc]

/-- Declarations that are there are not read over. -/
theorem deserialize_of_not_empty {d : Declarations} (h : d.isEmpty = false) (bytes : List UInt8) :
  d.deserialize bytes = (.error .regionNotEmpty, d)
  := by
  rw [deserialize, h]
  rfl

/-! ### Sizes stay -/

/-- Reading takes bytes and leaves the declarations as they are. -/
theorem run_take (p : Reader α) (input : List UInt8) (d : Declarations) :
  (take p).run ⟨input, d⟩ = match p.run input with
    | .ok value rest => .ok value ⟨rest, d⟩
    | .error error rest => .error error ⟨rest, d⟩
  := rfl

/-- Whether a computation leaves the sizes of the pools as they are, also when it fails. -/
def KeepsSizes (m : FillM α) : Prop :=
  ∀ s, match m.run s with
    | .ok _ s' => s'.filled.sizes = s.filled.sizes
    | .error _ s' => s'.filled.sizes = s.filled.sizes

namespace KeepsSizes

/-- Doing nothing keeps the sizes. -/
theorem pure (x : α) :
  KeepsSizes (Pure.pure x)
  := fun _ => rfl

/-- Steps that keep the sizes, one after the other, keep them. -/
theorem bind {m : FillM α} {f : α → FillM β} (hm : KeepsSizes m) (hf : ∀ x, KeepsSizes (f x)) :
  KeepsSizes (m >>= f)
  := by
  intro s
  have first := hm s
  rw [EStateM.run_bind]
  cases hrun : m.run s with
  | error e mid =>
    rw [hrun] at first
    apply first
  | ok x mid =>
    rw [hrun] at first
    have second := hf x mid
    dsimp only at first ⊢
    cases hrest : (f x).run mid <;>
      · rw [hrest] at second
        apply Eq.trans second first

/-- Reading a value keeps the sizes. -/
theorem take (p : Reader α) :
  KeepsSizes (Declarations.take p)
  := by
  rintro ⟨input, filled⟩
  rw [run_take]
  cases p.run input <;> rfl

/-- Storing keeps the sizes if the change does. -/
theorem store {f : Declarations → Declarations} (h : ∀ d, (f d).sizes = d.sizes) :
  KeepsSizes (Declarations.store f)
  := fun s => h s.filled

/-- A loop keeps the sizes if each round does. -/
theorem forM {item : Nat → FillM Unit} (h : ∀ i, KeepsSizes (item i)) (positions : List Nat) :
  KeepsSizes (positions.forM item)
  := by
  induction positions with
  | nil => apply pure
  | cons i positions ih =>
    apply (h i).bind
    intro _
    apply ih

end KeepsSizes

/-- Two parts of a declaration that are read and stored one after the other. -/
theorem KeepsSizes.pair {first : β → Declarations → Declarations}
    {second : γ → Declarations → Declarations} (p : Reader β) (q : Reader γ)
    (hfirst : ∀ x d, (first x d).sizes = d.sizes) (hsecond : ∀ y d, (second y d).sizes = d.sizes) :
  KeepsSizes (do
    let x ← Declarations.take p
    Declarations.store (first x)
    let y ← Declarations.take q
    Declarations.store (second y))
  := by
  apply (take p).bind
  intro x
  apply (store (hfirst x)).bind
  intro _
  apply (take q).bind
  intro y
  apply store (hsecond y)

/-- Filling a field declaration adds no object. -/
theorem keepsSizes_fillField (position : Nat) :
  KeepsSizes (fillField position)
  := by
  apply KeepsSizes.pair <;>
    · intro _ d
      simp only [sizes, Pool.size_modify]

/-- Filling a struct declaration adds no object. -/
theorem keepsSizes_fillStruct (fieldCount position : Nat) :
  KeepsSizes (fillStruct fieldCount position)
  := by
  apply KeepsSizes.pair <;>
    · intro _ d
      simp only [sizes, Pool.size_modify]

/-- Filling a region declaration adds no object. -/
theorem keepsSizes_fillRegion (structCount position : Nat) :
  KeepsSizes (fillRegion structCount position)
  := by
  apply KeepsSizes.pair <;>
    · intro _ d
      simp only [sizes, Pool.size_modify]

/-- Filling a file declaration adds no object. -/
theorem keepsSizes_fillSchemas (regionCount position : Nat) :
  KeepsSizes (fillSchemas regionCount position)
  := by
  apply (KeepsSizes.take _).bind
  intro regions
  apply KeepsSizes.store
  intro d
  simp only [sizes, Pool.size_modify]

/-! ### Sizes come first -/

/-- Declarations of the given numbers that are still to be filled. -/
def blank (fieldCount structCount regionCount schemasCount : Nat) : Declarations where
  fields := ⟨Array.replicate fieldCount default⟩
  structs := ⟨Array.replicate structCount default⟩
  regions := ⟨Array.replicate regionCount default⟩
  schemas := ⟨Array.replicate schemasCount default⟩

/-- Blank declarations have the sizes that were announced. -/
theorem sizes_blank (fieldCount structCount regionCount schemasCount : Nat) :
  (blank fieldCount structCount regionCount schemasCount).sizes
    = [fieldCount, structCount, regionCount, schemasCount]
  := by
  simp only [sizes, blank, Pool.size, Array.size_replicate]

/-- Reads the declarations of pools of the given sizes. -/
def fillPools (fieldCount structCount regionCount schemasCount : Nat) : FillM Unit := do
  (List.range fieldCount).forM fillField
  (List.range structCount).forM (fillStruct fieldCount)
  (List.range regionCount).forM (fillRegion structCount)
  (List.range schemasCount).forM (fillSchemas regionCount)

/-- Filling the pools adds no object to them. -/
theorem keepsSizes_fillPools (fieldCount structCount regionCount schemasCount : Nat) :
  KeepsSizes (fillPools fieldCount structCount regionCount schemasCount)
  := by
  apply (KeepsSizes.forM keepsSizes_fillField _).bind
  intro _
  apply (KeepsSizes.forM (keepsSizes_fillStruct _) _).bind
  intro _
  apply (KeepsSizes.forM (keepsSizes_fillRegion _) _).bind
  intro _
  apply KeepsSizes.forM (keepsSizes_fillSchemas _)

/-- A reading that fails fails at its first value or behind it. -/
theorem take_bind_eq_error {p : Reader α} {f : α → FillM β} {input : List UInt8} {d : Declarations}
    {e : CodecError} {s : Filling} (h : (take p >>= f).run ⟨input, d⟩ = .error e s) :
  (∃ rest, p.run input = .error e rest ∧ s.filled = d)
    ∨ ∃ x rest, p.run input = .ok x rest ∧ (f x).run ⟨rest, d⟩ = .error e s
  := by
  rw [EStateM.run_bind, run_take] at h
  cases hrun : p.run input with
  | error e' rest =>
    rw [hrun] at h
    obtain ⟨rfl, rfl⟩ := EStateM.Result.error.inj h
    exact .inl ⟨rest, rfl, rfl⟩
  | ok x rest =>
    rw [hrun] at h
    exact .inr ⟨x, rest, rfl, h⟩

/-- When filling fails, either the sizes could not be read and nothing was changed, or pools of
these sizes were made and could not be filled. -/
theorem fill_eq_error {input : List UInt8} {d : Declarations} {e : CodecError} {s : Filling}
    (h : fill.run ⟨input, d⟩ = .error e s) :
  (∃ rest, (decodeSizes declarationLayout).run input = .error e rest ∧ s.filled = d)
    ∨ ∃ n₁ n₂ n₃ n₄ rest, (decodeSizes declarationLayout).run input = .ok [n₁, n₂, n₃, n₄] rest
      ∧ (fillPools n₁ n₂ n₃ n₄).run ⟨rest, blank n₁ n₂ n₃ n₄⟩ = .error e s
  := by
  have inOrder : decodeSizes declarationLayout = do
      let n₁ ← Decode.count
      let n₂ ← Decode.count
      let n₃ ← Decode.count
      let n₄ ← Decode.count
      return [n₁, n₂, n₃, n₄] := by
    simp only [decodeSizes, declarationLayout, List.mapM_cons, List.mapM_nil, bind_assoc, pure_bind]
  rw [inOrder]
  rcases take_bind_eq_error h with ⟨rest, failed, same⟩ | ⟨n₁, input₁, h₁, h⟩
  · exact .inl ⟨rest, by simp only [EStateM.run_bind, failed], same⟩
  rcases take_bind_eq_error h with ⟨rest, failed, same⟩ | ⟨n₂, input₂, h₂, h⟩
  · exact .inl ⟨rest, by simp only [EStateM.run_bind, h₁, failed], same⟩
  rcases take_bind_eq_error h with ⟨rest, failed, same⟩ | ⟨n₃, input₃, h₃, h⟩
  · exact .inl ⟨rest, by simp only [EStateM.run_bind, h₁, h₂, failed], same⟩
  rcases take_bind_eq_error h with ⟨rest, failed, same⟩ | ⟨n₄, input₄, h₄, h⟩
  · exact .inl ⟨rest, by simp only [EStateM.run_bind, h₁, h₂, h₃, failed], same⟩
  refine .inr ⟨n₁, n₂, n₃, n₄, input₄, ?_, h⟩
  simp only [EStateM.run_bind, EStateM.run_pure, h₁, h₂, h₃, h₄]

/-- Pools that could not be filled are not all without declarations. -/
theorem sizes_of_fillPools_eq_error {n₁ n₂ n₃ n₄ : Nat} {input : List UInt8} {e : CodecError}
    {s : Filling}
    (h : (fillPools n₁ n₂ n₃ n₄).run ⟨input, blank n₁ n₂ n₃ n₄⟩ = .error e s) :
  s.filled.sizes = [n₁, n₂, n₃, n₄] ∧ s.filled.isEmpty = false
  := by
  have kept := keepsSizes_fillPools n₁ n₂ n₃ n₄ ⟨input, blank n₁ n₂ n₃ n₄⟩
  rw [h] at kept
  have same : s.filled.sizes = [n₁, n₂, n₃, n₄] := kept.trans (sizes_blank n₁ n₂ n₃ n₄)
  constructor
  · apply same
  rw [Bool.eq_false_iff, Ne, isEmpty_iff_sizes, same]
  intro none
  obtain ⟨rfl, rfl, rfl, rfl⟩ : n₁ = 0 ∧ n₂ = 0 ∧ n₃ = 0 ∧ n₄ = 0 := by
    simpa only [List.cons.injEq, and_true] using none
  cases h

/-! ### A refused reading -/

/-- Bytes that are refused leave declarations as they were when there were some, or when the bytes
do not even tell the sizes.  Otherwise pools of the sizes that the bytes tell are left behind, so
that nothing can be read into the declarations any more. -/
theorem deserialize_eq_error {d d' : Declarations} {bytes : List UInt8} {e : CodecError}
    (h : d.deserialize bytes = (.error e, d')) :
  (d.isEmpty = false ∧ e = .regionNotEmpty ∧ d' = d)
    ∨ (d = empty ∧ d' = empty ∧ ∃ rest, (decodeSizes declarationLayout).run bytes = .error e rest)
    ∨ (d = empty ∧ d'.isEmpty = false
      ∧ (∃ rest, (decodeSizes declarationLayout).run bytes = .ok d'.sizes rest)
      ∧ ∀ more, d'.deserialize more = (.error .regionNotEmpty, d'))
  := by
  cases fresh : d.isEmpty with
  | false =>
    rw [deserialize_of_not_empty fresh] at h
    obtain ⟨failure, rfl⟩ := Prod.mk.inj h
    exact .inl ⟨rfl, (Except.error.inj failure).symm, rfl⟩
  | true =>
    obtain rfl := isEmpty_iff.mp fresh
    right
    rw [deserialize, if_neg (by rw [fresh]; decide)] at h
    split at h
    · cases h
    next e' s failed =>
    obtain ⟨failure, rfl⟩ := Prod.mk.inj h
    obtain rfl := Except.error.inj failure
    rcases fill_eq_error failed with ⟨rest, unread, same⟩ | ⟨n₁, n₂, n₃, n₄, rest, read, stopped⟩
    · exact .inl ⟨rfl, same, rest, unread⟩
    · obtain ⟨same, filled⟩ := sizes_of_fillPools_eq_error stopped
      rw [← same] at read
      exact .inr ⟨rfl, filled, ⟨rest, read⟩, deserialize_of_not_empty filled⟩

/-- The sizes of pools with one field, and no name of it. -/
def unnamed : List UInt8 :=
  [1, 0, 0, 0, 0, 0, 0, 0, 0, 0, 0, 0, 0, 0, 0, 0]

/-- Declarations with a field whose name was never read. -/
def leftover : Declarations :=
  blank 1 0 0 0

/-- Sixteen bytes that announce a field and end leave that field behind. -/
theorem deserialize_unnamed :
  empty.deserialize unnamed = (.error .endOfData, leftover)
  := rfl

/-- The field stays, and nothing is read behind it any more. -/
theorem deserialize_eq_error_unnamed :
  empty.deserialize unnamed = (.error .endOfData, leftover) ∧ leftover.isEmpty = false
    ∧ (∃ rest, (decodeSizes declarationLayout).run unnamed = .ok leftover.sizes rest)
    ∧ ∀ more, leftover.deserialize more = (.error .regionNotEmpty, leftover)
  := by
  have left : leftover.isEmpty = false := rfl
  rcases deserialize_eq_error deserialize_unnamed with ⟨held, -, -⟩ | ⟨-, gone, -⟩ | ⟨-, stays⟩
  · cases held
  · rw [gone] at left
    cases left
  · exact ⟨deserialize_unnamed, stays⟩

/-- Bytes that are refused can leave a field behind, and bytes that empty declarations take are
then refused. -/
theorem deserialize_leaves_field :
  ¬ ∀ (d d' : Declarations) (bytes : List UInt8) (e : CodecError),
    d.deserialize bytes = (.error e, d') →
    d' = d ∧ ∀ more, d'.deserialize more = d.deserialize more
  := by
  intro h
  obtain ⟨-, later⟩ := h _ _ _ _ deserialize_unnamed
  have refused : (leftover.deserialize (List.replicate 16 0)).1 = .error .regionNotEmpty := rfl
  have taken : (empty.deserialize (List.replicate 16 0)).1 = .ok () := rfl
  rw [later, taken] at refused
  cases refused

end PoolGraph.Declarations
