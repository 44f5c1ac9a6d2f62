import PoolGraph.Proofs.Region.Objects
import PoolGraph.Region.Cloner

/-!
# The table of copies

A cloner notes the copy of every object of its source in a table.  `Cloner.image?` reads the table
and `Cloner.note` writes it, which leaves one object less without a copy (`Cloner.uncopied_note`).
-/

namespace PoolGraph

namespace Cloner

/-- The copy of an object, if it has one. -/
def image? (c : Cloner) (old : Instance) : Option Instance :=
  match c.copy? old with
  | .ok copy? => copy?
  | .error _ => none

/-- An object has an image when its copy is in the table. -/
theorem image?_eq_some {c : Cloner} {old copy : Instance} :
  c.image? old = some copy ↔ c.copy? old = .ok (some copy)
  := by
  rw [image?]
  cases c.copy? old with
  | error fault => simp
  | ok copy? => simp

/-- The copy of an object is looked up by the struct and the index of it. -/
theorem copy?_eq_ok {c : Cloner} {old : Instance} {copy? : Option Instance} :
  c.copy? old = .ok copy? ↔ ∃ positions position, c.copies[old.struct]? = some positions
    ∧ positions[old.index]? = some position ∧ copy? = position.map (Instance.mk old.struct)
  := by
  rw [Cloner.copy?]
  cases c.copies[old.struct]? with
  | none => simp
  | some positions =>
    simp only [Option.some.injEq, exists_and_left, exists_eq_left']
    cases positions[old.index]? with
    | none => simp
    | some position => simp [eq_comm]

/-- The table has a position for every object of the source. -/
theorem holds_iff_copy? {source : Region} {c : Cloner}
    (sizes : c.copies.map Array.size = source.sizes) (old : Instance) :
  source.Holds old ↔ ∃ copy?, c.copy? old = .ok copy?
  := by
  have size : source.size old.struct = (c.copies[old.struct]?.map Array.size).getD 0 := by
    rw [Region.size_eq_getD, ← List.getElem?_map, ← List.getElem?_map, sizes, Region.sizes]
  simp only [copy?_eq_ok, Region.Holds, size]
  cases c.copies[old.struct]? with
  | none => simp
  | some positions =>
    rw [Option.map_some, Option.getD_some]
    constructor
    · intro inside
      exact ⟨_, _, _, rfl, Array.getElem?_eq_getElem inside, rfl⟩
    · rintro ⟨copy?, _, position, ⟨⟩, h, -⟩
      obtain ⟨inside, -⟩ := Array.getElem?_eq_some_iff.mp h
      apply inside

/-- The table with the position of a copy noted. -/
def note (copies : List (Array (Option Nat))) (old : Instance) (index : Nat) :
    List (Array (Option Nat)) :=
  copies.modify old.struct fun positions => positions.setIfInBounds old.index (some index)

/-- Noting a copy does not change the shape of the table. -/
theorem map_size_note (copies : List (Array (Option Nat))) (old : Instance) (index : Nat) :
  (note copies old index).map Array.size = copies.map Array.size
  := by
  apply List.ext_getElem?
  intro i
  rw [List.getElem?_map, List.getElem?_map, note, List.getElem?_modify]
  cases copies[i]? with
  | none => rfl
  | some positions =>
    simp only [Option.map_eq_map, Option.map_some]
    split
    · rw [Array.size_setIfInBounds]
    · rfl

/-- Noting a copy changes what the table says of its original alone. -/
theorem copy?_note {c c' : Cloner} {old : Instance} {index : Nat}
    (noted : c'.copies = note c.copies old index) {copy? : Option Instance}
    (h : c.copy? old = .ok copy?) (other : Instance) :
  c'.copy? other = if other = old then .ok (some ⟨old.struct, index⟩) else c.copy? other
  := by
  obtain ⟨positions, position, hpositions, hposition, -⟩ := copy?_eq_ok.mp h
  obtain ⟨inside, -⟩ := Array.getElem?_eq_some_iff.mp hposition
  by_cases same : other = old
  · subst same
    rw [if_pos rfl]
    apply copy?_eq_ok.mpr
    use positions.setIfInBounds other.index (some index), some index
    constructor
    · rw [noted, note, List.getElem?_modify_eq, hpositions]
      rfl
    constructor
    · rw [Array.getElem?_setIfInBounds_self_of_lt inside]
    · rfl
  · rw [if_neg same, Cloner.copy?, Cloner.copy?, noted, note, List.getElem?_modify]
    by_cases here : old.struct = other.struct
    · have elsewhere : old.index ≠ other.index := fun also =>
        same (Instance.eq_iff.mpr ⟨here.symm, also.symm⟩)
      rw [← here, hpositions]
      simp only [Option.map_eq_map, Option.map_some, if_true,
        Array.getElem?_setIfInBounds_ne elsewhere]
    · simp only [if_neg here, id_map']

/-- Noting a copy gives its original an image and leaves the others theirs. -/
theorem image?_note {c c' : Cloner} {old : Instance} {index : Nat}
    (noted : c'.copies = note c.copies old index) {copy? : Option Instance}
    (h : c.copy? old = .ok copy?) (other : Instance) :
  c'.image? other = if other = old then some ⟨old.struct, index⟩ else c.image? other
  := by
  rw [image?, copy?_note noted h]
  by_cases same : other = old
  · rw [if_pos same, if_pos same]
  · rw [if_neg same, if_neg same, image?]

/-! ### How much is left to do -/

/-- The number of objects without a copy. -/
def uncopied (c : Cloner) : Nat :=
  (c.copies.map fun positions => positions.toList.count none).sum

/-- Changing one item changes a sum by what the item changes. -/
theorem sum_map_modify (f : α → Nat) (g : α → α) {xs : List α} {i : Nat} {x : α}
    (h : xs[i]? = some x) :
  ((xs.modify i g).map f).sum + f x = (xs.map f).sum + f (g x)
  := by
  induction xs generalizing i with
  | nil => cases h
  | cons y ys ih =>
    cases i with
    | zero =>
      obtain rfl := Option.some.inj h
      simp only [List.modify_zero_cons, List.map_cons, List.sum_cons]
      omega
    | succ i =>
      have ih := ih (i := i) h
      simp only [List.modify_succ_cons, List.map_cons, List.sum_cons]
      omega

/-- Noting a copy leaves one object fewer to copy. -/
theorem uncopied_note {c c' : Cloner} {old : Instance} {index : Nat}
    (noted : c'.copies = note c.copies old index) (h : c.copy? old = .ok none) :
  c'.uncopied + 1 = c.uncopied
  := by
  obtain ⟨positions, position, hpositions, hposition, none⟩ := copy?_eq_ok.mp h
  obtain rfl := Option.map_eq_none_iff.mp none.symm
  have total := sum_map_modify (fun positions => positions.toList.count Option.none)
    (fun positions => positions.setIfInBounds old.index (some index)) hpositions
  have inside : old.index < positions.toList.length := by
    obtain ⟨inside, -⟩ := Array.getElem?_eq_some_iff.mp hposition
    apply inside
  have this : positions.toList[old.index] = Option.none := by
    obtain ⟨_, found⟩ := Array.getElem?_eq_some_iff.mp hposition
    apply found
  have positive : 0 < positions.toList.count Option.none := by
    apply List.count_pos_iff.mpr
    rw [← this]
    apply List.getElem_mem
  have changed : (positions.toList.set old.index (some index)).count Option.none
      = positions.toList.count Option.none - 1 := by
    rw [List.count_set inside, this]
    rfl
  rw [Array.toList_setIfInBounds, changed] at total
  rw [uncopied, uncopied, noted, note]
  omega

/-- No more objects are left to copy than the table has places. -/
theorem uncopied_le (c : Cloner) :
  c.uncopied ≤ (c.copies.map Array.size).sum
  := by
  rw [uncopied]
  induction c.copies with
  | nil => apply Nat.le_refl
  | cons positions rest ih =>
    rw [List.map_cons, List.map_cons, List.sum_cons, List.sum_cons]
    apply Nat.add_le_add _ ih
    rw [← Array.length_toList]
    apply List.count_le_length

end Cloner

end PoolGraph
