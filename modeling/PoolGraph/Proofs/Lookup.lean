import Mathlib.Data.List.Nodup
import Mathlib.Order.Basic

/-!
# Look-up in lists of pairs

A pair put in front is found first (`lookup_cons_eq_ite`), and one put in place of another changes
what is found under its own key alone (`lookup_put`).  Where no key occurs twice every pair is found
(`lookup_of_mem`).
-/

namespace PoolGraph

section

variable {κ ν : Type} [BEq κ] [LawfulBEq κ] [DecidableEq κ]

/-- The first entry of a table hides those of its key behind it. -/
theorem lookup_cons_eq_ite (key other : κ) (value : ν) (entries : List (κ × ν)) :
  ((key, value) :: entries).lookup other
    = if other = key then some value else entries.lookup other
  := by
  rcases eq_or_ne other key with rfl | apart
  · rw [List.lookup_cons_self, if_pos rfl]
  · rw [List.lookup_cons, beq_false_of_ne apart, if_neg apart]

/-- A table in which the entries of one key are replaced differs from the old one at that key
alone. -/
theorem lookup_put (entries : List (κ × ν)) (key other : κ) (value : ν) :
  (entries.map fun entry => if entry.1 = key then (key, value) else entry).lookup other
    = if other = key then (entries.lookup key).map fun _ => value else entries.lookup other
  := by
  induction entries with
  | nil =>
    split <;> rfl
  | cons entry entries ih =>
    obtain ⟨first, old⟩ := entry
    rw [List.map_cons]
    rcases eq_or_ne first key with rfl | unlike
    · rw [if_pos rfl, lookup_cons_eq_ite, lookup_cons_eq_ite, lookup_cons_eq_ite, if_pos rfl, ih]
      split <;> rfl
    · rw [if_neg unlike, lookup_cons_eq_ite, lookup_cons_eq_ite, lookup_cons_eq_ite,
        if_neg unlike.symm, ih]
      rcases eq_or_ne other first with rfl | apart
      · rw [if_pos rfl, if_pos rfl, if_neg unlike]
      · rw [if_neg apart, if_neg apart]

end

/-- The entry of a key is found if no key occurs twice. -/
theorem lookup_of_mem {κ ν : Type} [DecidableEq κ] {table : List (κ × ν)}
    (distinct : (table.map Prod.fst).Nodup) {key : κ} {value : ν} (h : (key, value) ∈ table) :
  table.lookup key = some value
  := by
  induction table with
  | nil => cases h
  | cons entry rest ih =>
    obtain ⟨absent, distinct⟩ := List.nodup_cons.mp distinct
    rw [List.lookup_cons]
    rcases List.mem_cons.mp h with rfl | h
    · rw [beq_self_eq_true]
    · have other : (key == entry.1) = false := by
        apply beq_eq_false_iff_ne.mpr
        rintro rfl
        exact absent (List.mem_map.mpr ⟨_, h, rfl⟩)
      rw [other]
      apply ih distinct h

end PoolGraph
