import PoolGraph.Proofs.Region.Objects

/-!
# References

`Value.Mentions` finds the references in a value at any depth of lists, and `Value.rename?`
replaces each of them.  `Region.RefersTo` is the graph of the objects of a region, and a region is
`Region.Closed` when all its references lead to objects.
-/

namespace PoolGraph

namespace Value

/-- Whether a value refers to an object, itself or in an item. -/
inductive Mentions : Value → Instance → Prop where
  | here (target : Instance) : Mentions (.ref target) target
  | inside {items : List Value} {item : Value} {target : Instance} (hitem : item ∈ items)
      (h : Mentions item target) : Mentions (.list items) target

mutual

/-- The references in a value, from left to right. -/
def references : Value → List Instance
  | .ref target => [target]
  | .list items => itemReferences items
  | _ => []

/-- The references in values, from left to right. -/
def itemReferences : List Value → List Instance
  | [] => []
  | item :: rest => item.references ++ itemReferences rest

end

/-- The references of items are those of each item. -/
theorem mem_itemReferences {items : List Value} {target : Instance} :
  target ∈ itemReferences items ↔ ∃ item ∈ items, target ∈ item.references
  := by
  induction items with
  | nil => simp [itemReferences]
  | cons item rest ih => simp [itemReferences, ih]

mutual

/-- A reference in a value is mentioned by it. -/
theorem mentions_of_mem_references {value : Value} {target : Instance}
    (h : target ∈ value.references) :
  value.Mentions target
  := by
  cases value with
  | ref other =>
    obtain rfl := List.mem_singleton.mp h
    exact .here target
  | list items =>
    rw [references] at h
    obtain ⟨item, hitem, h⟩ := mentions_of_mem_itemReferences h
    exact .inside hitem h
  | _ => cases h

theorem mentions_of_mem_itemReferences {items : List Value} {target : Instance}
    (h : target ∈ itemReferences items) :
  ∃ item ∈ items, item.Mentions target
  := by
  cases items with
  | nil => cases h
  | cons item rest =>
    rw [itemReferences] at h
    rcases List.mem_append.mp h with first | others
    · use item, .head _
      apply mentions_of_mem_references first
    · obtain ⟨other, hother, h⟩ := mentions_of_mem_itemReferences others
      use other, .tail _ hother, h

end

/-- The references in a value are those it mentions. -/
theorem mem_references {value : Value} {target : Instance} :
  target ∈ value.references ↔ value.Mentions target
  := by
  constructor
  · apply mentions_of_mem_references
  · intro h
    induction h with
    | here target => exact .head _
    | inside hitem _ ih =>
      rw [references]
      exact mem_itemReferences.mpr ⟨_, hitem, ih⟩

mutual

/-- A value with every reference replaced by its image, if all of them have one. -/
def rename? (image : Instance → Option Instance) : Value → Option Value
  | .ref target => (image target).map .ref
  | .list items => (renameItems? image items).map .list
  | value => some value

/-- Values with every reference replaced by its image, if all of them have one. -/
def renameItems? (image : Instance → Option Instance) : List Value → Option (List Value)
  | [] => some []
  | item :: rest => do return (← rename? image item) :: (← renameItems? image rest)

end

section

variable {image image' : Instance → Option Instance}

/-- Items are renamed one by one. -/
theorem renameItems?_eq_some {items items' : List Value} :
  renameItems? image items = some items'
    ↔ List.Forall₂ (fun item item' => item.rename? image = some item') items items'
  := by
  induction items generalizing items' with
  | nil => simp [renameItems?, eq_comm]
  | cons item rest ih =>
    rw [renameItems?]
    constructor
    · intro h
      obtain ⟨item', hitem, h⟩ := Option.bind_eq_some_iff.mp h
      obtain ⟨rest', hrest, h⟩ := Option.bind_eq_some_iff.mp h
      obtain rfl := Option.some.inj h
      exact .cons hitem (ih.mp hrest)
    · rintro (_ | ⟨hitem, hrest⟩)
      rw [hitem, ih.mpr hrest]
      rfl

mutual

/-- What has an image keeps it when further objects get one. -/
theorem rename?_mono (h : ∀ a b, image a = some b → image' a = some b) {value value' : Value}
    (hv : value.rename? image = some value') :
  value.rename? image' = some value'
  := by
  cases value with
  | ref target =>
    obtain ⟨copy, hcopy, rfl⟩ := Option.map_eq_some_iff.mp hv
    exact Option.map_eq_some_iff.mpr ⟨copy, h target copy hcopy, rfl⟩
  | list items =>
    obtain ⟨items', hitems, rfl⟩ := Option.map_eq_some_iff.mp hv
    exact Option.map_eq_some_iff.mpr ⟨items', renameItems?_mono h hitems, rfl⟩
  | _ => apply hv

/-- Items renamed once are renamed alike when more has an image. -/
theorem renameItems?_mono (h : ∀ a b, image a = some b → image' a = some b)
    {items items' : List Value} (hitems : renameItems? image items = some items') :
  renameItems? image' items = some items'
  := by
  cases items with
  | nil => apply hitems
  | cons item rest =>
    obtain ⟨item', hitem, more⟩ := Option.bind_eq_some_iff.mp hitems
    obtain ⟨rest', hrest, hsame⟩ := Option.bind_eq_some_iff.mp more
    obtain rfl := Option.some.inj hsame
    rw [renameItems?, rename?_mono h hitem, renameItems?_mono h hrest]
    rfl

end

/-- Every reference of a renamed value has an image. -/
theorem exists_image_of_mentions {value value' : Value} {target : Instance}
    (h : value.Mentions target) (hv : value.rename? image = some value') :
  ∃ copy, image target = some copy
  := by
  induction h generalizing value' with
  | here target =>
    obtain ⟨copy, hcopy, -⟩ := Option.map_eq_some_iff.mp hv
    use copy, hcopy
  | inside hitem _ ih =>
    obtain ⟨items', hitems, -⟩ := Option.map_eq_some_iff.mp hv
    have all := renameItems?_eq_some.mp hitems
    obtain ⟨i, hi, rfl⟩ := List.getElem_of_mem hitem
    apply ih (all.get hi (by rw [← all.length_eq]; exact hi))

end

end Value

namespace Region

/-- Whether an object of the region refers to another one. -/
def RefersTo (r : Region) (a b : Instance) : Prop :=
  ∃ object, r.object a = .ok object ∧ ∃ value ∈ object, value.Mentions b

/-- Whether all references of the region lead to objects. -/
def Closed (r : Region) : Prop :=
  ∀ a b, r.RefersTo a b → r.Holds b

/-- A region is closed when each of the references that are found in its pools leads to an
object. -/
theorem closed_of_references {r : Region}
    (h : ∀ pool ∈ r.pools, ∀ object ∈ pool.toList, ∀ target ∈ Value.itemReferences object,
      r.Holds target) :
  r.Closed
  := by
  rintro a b ⟨object, hobject, value, hvalue, mentions⟩
  obtain ⟨pool, hpool, found⟩ := object_eq_ok.mp hobject
  rw [Pool.get?, ← Array.getElem?_toList] at found
  apply h pool (List.mem_of_getElem? hpool) object (List.mem_of_getElem? found)
  exact Value.mem_itemReferences.mpr ⟨value, hvalue, Value.mem_references.mpr mentions⟩

end Region

end PoolGraph
