import PoolGraph.Proofs.Region.CopyTable
import PoolGraph.Proofs.Region.References
import PoolGraph.Proofs.State

/-!
# What a cloner does

`Cloner.Copying` is the invariant of a copying under way: which objects have copies, where the
copies are, and that each is filled or still to be filled.  Visiting an object and copying a value
keep it, and every turn of the loop takes one copy off those to be filled, so that the loop comes
to its end (`Cloner.fillAll_ok`).
-/

namespace PoolGraph

namespace Cloner

/-! ### The invariant -/

/-- The number of objects without a copy and of copies that are still to be filled. -/
def weight (c : Cloner) : Nat :=
  c.pending.length + c.uncopied

/-- Whether a copy holds the values of its original, with every reference replaced. -/
def Filled (c : Cloner) (old copy : Instance) : Prop :=
  ∃ object object', c.source.object old = .ok object ∧ c.target.object copy = .ok object'
    ∧ Value.renameItems? c.image? object = some object'

/-- How far a copying has come that began with the region `target`.  Only objects in `Within` have
copies; those in `opened` are being filled. -/
structure Copying (source target : Region) (Within : Instance → Prop)
    (opened : List (Instance × Instance)) (c : Cloner) : Prop where
  source_eq : c.source = source
  schema_eq : c.target.schema = source.schema
  regular : c.target.Regular
  sizes : c.copies.map Array.size = source.sizes
  /-- What was there before is unchanged. -/
  kept : ∀ i object, target.object i = .ok object → c.target.object i = .ok object
  within : ∀ old copy, c.image? old = some copy → Within old
  /-- Copies are new objects of the struct of their originals. -/
  fresh : ∀ old copy, c.image? old = some copy →
    copy.struct = old.struct ∧ c.target.Holds copy ∧ ¬ target.Holds copy
  injective : ∀ old old' copy, c.image? old = some copy → c.image? old' = some copy → old = old'
  /-- Every new object is a copy. -/
  onto : ∀ i, c.target.Holds i → target.Holds i ∨ ∃ old, c.image? old = some i
  unfilled : ∀ p ∈ opened ++ c.pending, c.image? p.1 = some p.2
  filled : ∀ old copy, c.image? old = some copy → (old, copy) ∈ opened ++ c.pending
    ∨ c.Filled old copy

/-- Whether nothing that has a copy loses it. -/
def Grows (c c' : Cloner) : Prop :=
  ∀ old copy, c.image? old = some copy → c'.image? old = some copy

theorem Grows.refl (c : Cloner) :
  c.Grows c
  := fun _ _ h => h

theorem Grows.trans {c c₁ c₂ : Cloner} (h : c.Grows c₁) (h' : c₁.Grows c₂) :
  c.Grows c₂
  := fun old copy found => h' old copy (h old copy found)

theorem Filled.mono {c c' : Cloner} {old copy : Instance} (h : c.Filled old copy)
    (source : c'.source = c.source) (grows : c.Grows c')
    (same : ∀ object, c.target.object copy = .ok object → c'.target.object copy = .ok object) :
  c'.Filled old copy
  := by
  obtain ⟨object, object', hobject, hobject', renamed⟩ := h
  refine ⟨object, object', ?_, same _ hobject', Value.renameItems?_mono grows renamed⟩
  rw [source]
  apply hobject

section

variable {source target : Region} {Within : Instance → Prop}
  {opened : List (Instance × Instance)} {c : Cloner}

theorem Copying.copy?_eq (inv : Copying source target Within opened c) {old : Instance}
    (holds : source.Holds old) :
  c.copy? old = .ok (c.image? old)
  := by
  obtain ⟨copy?, h⟩ := (holds_iff_copy? inv.sizes old).mp holds
  rw [h, image?, h]

/-- At the beginning nothing has a copy. -/
theorem copying_start (Within : Instance → Prop) (same : source.schema = target.schema)
    (regular : target.Regular) :
  ∃ c, start source target = .ok c ∧ Copying source target Within [] c ∧ c.pending = []
    ∧ ∀ old, c.image? old = none
  := by
  let c : Cloner :=
    ⟨source, target, source.pools.map fun pool => Array.replicate pool.size none, []⟩
  have none : ∀ old, c.image? old = none := by
    intro old
    apply Option.eq_none_iff_forall_ne_some.mpr
    intro copy found
    obtain ⟨positions, position, hpositions, hposition, found⟩ :=
      copy?_eq_ok.mp (image?_eq_some.mp found)
    rw [List.getElem?_map] at hpositions
    obtain ⟨pool, -, rfl⟩ := Option.map_eq_some_iff.mp hpositions
    obtain ⟨inside, rfl⟩ := Array.getElem?_eq_some_iff.mp hposition
    rw [Array.getElem_replicate] at found
    cases found
  have unfound : ∀ {P : Prop} {old copy}, c.image? old = some copy → P := by
    intro P old copy found
    rw [none] at found
    cases found
  use c, if_pos same
  constructor
  · exact {
      source_eq := rfl
      schema_eq := same.symm
      regular
      sizes := by
        rw [Region.sizes, List.map_map]
        apply List.map_congr_left
        intro pool _
        apply Array.size_replicate
      kept := fun _ _ before => before
      within := fun _ _ => unfound
      fresh := fun _ _ => unfound
      injective := fun _ _ _ => unfound
      onto := fun _ => .inl
      unfilled := List.forall_mem_nil _
      filled := fun _ _ => unfound }
  use rfl, none

/-! ### Visiting -/

/-- What visiting an object without a copy does. -/
structure Allots (c c' : Cloner) (old copy : Instance) : Prop where
  source_eq : c'.source = c.source
  schema_eq : c'.target.schema = c.target.schema
  regular : c'.target.Regular
  sizes : c'.copies.map Array.size = c.copies.map Array.size
  pending : c'.pending = (old, copy) :: c.pending
  weight : c'.weight = c.weight
  struct : copy.struct = old.struct
  absent : c.image? old = none
  image : ∀ other, c'.image? other = if other = old then some copy else c.image? other
  unheld : ¬ c.target.Holds copy
  holds : ∀ i, c'.target.Holds i ↔ c.target.Holds i ∨ i = copy
  objects : ∀ i object, c.target.object i = .ok object → c'.target.object i = .ok object

theorem allots_of_allocateStruct (regular : c.target.Regular) {old copy : Instance}
    {target' : Region} (new : c.copy? old = .ok none)
    (h : c.target.allocateStruct old.struct = .ok (copy, target')) :
  Allots c ⟨c.source, target', note c.copies old copy.index, (old, copy) :: c.pending⟩ old copy
  := by
  obtain ⟨-, -, -, place, -⟩ := Region.allocateStruct_eq_ok.mp h
  refine ⟨rfl, Region.schema_allocateStruct h, regular.allocateStruct h, map_size_note .., rfl,
    ?_, ?_, ?_, ?_, ?_, Region.holds_allocateStruct h, ?_⟩
  · have less : uncopied ⟨c.source, target', note c.copies old copy.index,
        (old, copy) :: c.pending⟩ + 1 = c.uncopied := uncopied_note rfl new
    rw [weight, weight, List.length_cons, ← less]
    omega
  · rw [place]
  · rw [image?, new]
  · intro other
    rw [image?_note rfl new, place]
  · rw [place]
    apply Nat.lt_irrefl
  · intro i object hobject
    exact (Region.object_allocateStruct h).mpr (.inl hobject)

theorem Allots.grows {c' : Cloner} {old copy : Instance} (h : Allots c c' old copy) :
  c.Grows c'
  := by
  intro other copy' found
  rw [h.image, if_neg, found]
  rintro rfl
  rw [h.absent] at found
  cases found

/-- What has a copy afterwards is the object itself or had one before. -/
theorem Allots.image_eq_some {c' : Cloner} {old copy other copy' : Instance}
    (h : Allots c c' old copy) (found : c'.image? other = some copy') :
  other = old ∧ copy' = copy ∨ c.image? other = some copy'
  := by
  rw [h.image] at found
  split at found
  · next same => exact .inl ⟨same, (Option.some.inj found).symm⟩
  · exact .inr found

theorem Copying.allots (inv : Copying source target Within opened c) {c' : Cloner}
    {old copy : Instance} (h : Allots c c' old copy) (within : Within old) :
  Copying source target Within opened c'
  where
  source_eq := h.source_eq.trans inv.source_eq
  schema_eq := h.schema_eq.trans inv.schema_eq
  regular := h.regular
  sizes := h.sizes.trans inv.sizes
  kept i object before := h.objects i object (inv.kept i object before)
  within other copy' found := by
    rcases h.image_eq_some found with ⟨rfl, -⟩ | found
    · apply within
    · apply inv.within other copy' found
  fresh other copy' found := by
    rcases h.image_eq_some found with ⟨rfl, rfl⟩ | found
    · constructor
      · apply h.struct
      constructor
      · apply (h.holds copy').mpr (.inr rfl)
      intro before
      obtain ⟨object, hobject⟩ := Region.holds_iff.mp before
      exact h.unheld (Region.holds_iff.mpr ⟨object, inv.kept copy' object hobject⟩)
    · obtain ⟨struct, held, new⟩ := inv.fresh other copy' found
      constructor
      · apply struct
      constructor
      · apply (h.holds copy').mpr (.inl held)
      · apply new
  injective a b copy' ha hb := by
    rcases h.image_eq_some ha with ⟨rfl, rfl⟩ | ha <;>
      rcases h.image_eq_some hb with ⟨rfl, same⟩ | hb
    · rfl
    · exact absurd (inv.fresh b copy' hb).2.1 h.unheld
    · exact absurd (same ▸ (inv.fresh a copy' ha).2.1) h.unheld
    · apply inv.injective a b copy' ha hb
  onto i hi := by
    rcases (h.holds i).mp hi with before | rfl
    · rcases inv.onto i before with first | ⟨other, found⟩
      · exact .inl first
      · exact .inr ⟨other, h.grows other i found⟩
    · exact .inr ⟨old, by rw [h.image, if_pos rfl]⟩
  unfilled p hp := by
    rw [h.pending, List.mem_append, List.mem_cons, or_left_comm, ← List.mem_append] at hp
    rcases hp with rfl | before
    · rw [h.image, if_pos rfl]
    · apply h.grows p.1 p.2 (inv.unfilled p before)
  filled other copy' found := by
    rw [h.pending, List.mem_append, List.mem_cons, or_left_comm, ← List.mem_append, or_assoc]
    rcases h.image_eq_some found with ⟨rfl, rfl⟩ | found
    · exact .inl rfl
    · apply Or.inr
      apply (inv.filled other copy' found).imp_right
      intro filled
      apply filled.mono h.source_eq h.grows (h.objects copy')

/-- Visiting an object finds its copy or allots one. -/
theorem visit_ok (regular : source.Regular) (inside : ∀ old, Within old → source.Holds old)
    (inv : Copying source target Within opened c) {old : Instance} (within : Within old) :
  ∃ copy c', (visit old).run c = .ok (copy, c') ∧ Copying source target Within opened c'
    ∧ c.Grows c' ∧ c'.weight = c.weight ∧ c'.image? old = some copy
  := by
  have known := inv.copy?_eq (inside old within)
  cases found : c.image? old with
  | some copy =>
    rw [found] at known
    use copy, c
    constructor
    · exact Except.bind_eq_ok.mpr ⟨_, known, rfl⟩
    use inv, .refl c, rfl, found
  | none =>
    rw [found] at known
    obtain ⟨object, hobject⟩ := Region.holds_iff.mp (inside old within)
    obtain ⟨s, hs⟩ : ∃ s, c.target.schema.structs[old.struct]? = some s := by
      obtain ⟨pool, hpool, -⟩ := Region.object_eq_ok.mp hobject
      obtain ⟨inside, -⟩ := List.getElem?_eq_some_iff.mp hpool
      rw [inv.schema_eq]
      exact ⟨_, List.getElem?_eq_getElem (regular.length_pools ▸ inside)⟩
    obtain ⟨copy, target', hallocate⟩ := inv.regular.allocates hs
    have allots := allots_of_allocateStruct inv.regular known hallocate
    refine ⟨copy, _, ?_, inv.allots allots within, allots.grows, allots.weight, ?_⟩
    · obtain ⟨source', target'', copies, pending⟩ := c
      refine Except.bind_eq_ok.mpr ⟨_, known, ?_⟩
      exact Except.bind_eq_ok.mpr ⟨_, hallocate, rfl⟩
    · rw [allots.image, if_pos rfl]

/-! ### Copying values -/

mutual

theorem copyValue_ok (regular : source.Regular) (inside : ∀ old, Within old → source.Holds old)
    {c : Cloner} (inv : Copying source target Within opened c) {value : Value}
    (within : ∀ t, value.Mentions t → Within t) :
  ∃ value' c', (copyValue value).run c = .ok (value', c')
    ∧ Copying source target Within opened c' ∧ c.Grows c' ∧ c'.weight = c.weight
    ∧ value.rename? c'.image? = some value'
  := by
  cases value with
  | ref old =>
    obtain ⟨copy, c', run, inv, grows, weight, found⟩ :=
      visit_ok regular inside inv (within old (.here old))
    use .ref copy, c'
    constructor
    · rw [copyValue]
      exact run_bind_eq_ok.mpr ⟨copy, c', run, rfl⟩
    use inv, grows, weight
    rw [Value.rename?, found]
    rfl
  | list items =>
    obtain ⟨items', c', run, inv, grows, weight, renamed⟩ := copyItems_ok regular inside inv []
      fun item hitem t ht => within t (.inside hitem ht)
    use .list items', c'
    constructor
    · rw [copyValue]
      exact run_bind_eq_ok.mpr ⟨items', c', run, rfl⟩
    use inv, grows, weight
    rw [Value.rename?, renamed]
    rfl
  | _ =>
    refine ⟨_, c, ?_, inv, .refl c, rfl, rfl⟩
    rw [copyValue.eq_def]
    rfl

theorem copyItems_ok (regular : source.Regular) (inside : ∀ old, Within old → source.Holds old)
    {c : Cloner} (inv : Copying source target Within opened c) (before : List Value)
    {items : List Value} (within : ∀ item ∈ items, ∀ t, item.Mentions t → Within t) :
  ∃ items' c', (copyItems before items).run c = .ok (before.reverse ++ items', c')
    ∧ Copying source target Within opened c' ∧ c.Grows c' ∧ c'.weight = c.weight
    ∧ Value.renameItems? c'.image? items = some items'
  := by
  cases items with
  | nil =>
    use [], c
    constructor
    · rw [copyItems, List.append_nil]
      rfl
    use inv, .refl c, rfl
    rfl
  | cons item rest =>
    obtain ⟨first, others⟩ := List.forall_mem_cons.mp within
    obtain ⟨item', c₁, run₁, inv₁, grows₁, weight₁, renamed₁⟩ :=
      copyValue_ok regular inside inv first
    obtain ⟨rest', c₂, run₂, inv₂, grows₂, weight₂, renamed₂⟩ :=
      copyItems_ok regular inside inv₁ (item' :: before) others
    use item' :: rest', c₂
    constructor
    · rw [copyItems]
      refine run_bind_eq_ok.mpr ⟨item', c₁, run₁, ?_⟩
      rw [run₂, List.reverse_cons, List.append_assoc]
      rfl
    use inv₂, grows₁.trans grows₂, weight₂.trans weight₁
    rw [Value.renameItems?, Value.rename?_mono grows₂ renamed₁, renamed₂]
    rfl

end

/-! ### Filling -/

/-- Taking a pending copy to fill it. -/
theorem Copying.take (inv : Copying source target Within [] c) {old copy : Instance}
    {rest : List (Instance × Instance)} (h : c.pending = (old, copy) :: rest) :
  Copying source target Within [(old, copy)] { c with pending := rest }
  := by
  have same : [] ++ c.pending = [(old, copy)] ++ rest := h
  refine { inv with unfilled := ?_, filled := ?_ }
  · rw [← same]
    apply inv.unfilled
  · rw [← same]
    apply inv.filled

/-- Putting the object that belongs there in place of a copy fills it. -/
theorem Copying.put {old copy : Instance} (inv : Copying source target Within [(old, copy)] c)
    {object object' : Object} (hobject : source.object old = .ok object)
    (renamed : Value.renameItems? c.image? object = some object')
    (width : source.schema.widths[copy.struct]? = some object'.length) :
  Copying source target Within [] { c with target := c.target.setObject copy object' }
  := by
  have found : c.image? old = some copy := inv.unfilled _ (List.mem_append_left _ (.head _))
  obtain ⟨-, held, new⟩ := inv.fresh old copy found
  have others : ∀ i, i ≠ copy → ∀ other, c.target.object i = .ok other →
      (c.target.setObject copy object').object i = .ok other := fun i elsewhere _ =>
    (Region.object_setObject_of_ne object' elsewhere).mpr
  refine { inv with
    regular := ?_, kept := ?_, fresh := ?_, onto := ?_, unfilled := ?_, filled := ?_ }
  · apply inv.regular.setObject
    rw [inv.schema_eq, width]
  · intro i other before
    apply others i _ other (inv.kept i other before)
    rintro rfl
    exact new (Region.holds_iff.mpr ⟨other, before⟩)
  · simp only [Region.holds_setObject]
    apply inv.fresh
  · simp only [Region.holds_setObject]
    apply inv.onto
  · intro p hp
    apply inv.unfilled p (List.mem_append_right _ hp)
  · intro other copy' found'
    by_cases same : other = old
    · subst same
      obtain rfl := Option.some.inj (found'.symm.trans found)
      refine .inr ⟨object, object', ?_, Region.object_setObject_self object' held, renamed⟩
      rw [← hobject, inv.source_eq]
    · have elsewhere : copy' ≠ copy := by
        rintro rfl
        apply same (inv.injective other old copy' found' found)
      rcases inv.filled other copy' found' with unfilled | filled
      · rcases List.mem_append.mp unfilled with this | pending
        · exact absurd (Prod.mk.inj (List.mem_singleton.mp this)).1 same
        · exact .inl pending
      · exact .inr (filled.mono rfl (.refl c) (others copy' elsewhere))

/-- A turn of the loop fills one copy and leaves one less to do. -/
theorem turn_ok (regular : source.Regular) (inside : ∀ old, Within old → source.Holds old)
    (closed : ∀ a b, Within a → source.RefersTo a b → Within b)
    (inv : Copying source target Within [] c) {p : Instance × Instance}
    {rest : List (Instance × Instance)} (h : c.pending = p :: rest) :
  ∃ c', (∀ n, (fill (n + 1)).run c = (fill n).run c') ∧ Copying source target Within [] c'
    ∧ c.Grows c' ∧ c'.weight + 1 = c.weight
  := by
  obtain ⟨old, copy⟩ := p
  have found : c.image? old = some copy := by
    apply inv.unfilled (old, copy)
    rw [h]
    exact .head _
  have within := inv.within old copy found
  obtain ⟨object, hobject⟩ := Region.holds_iff.mp (inside old within)
  obtain ⟨object', c₂, run, inv₂, grows, weight, renamed⟩ :=
    copyItems_ok regular inside (inv.take h) [] fun value hvalue t ht =>
      closed old t within ⟨object, hobject, value, hvalue, ht⟩
  have width : source.schema.widths[copy.struct]? = some object'.length := by
    have struct := (inv.fresh old copy found).1
    rw [struct, regular.object hobject, (Value.renameItems?_eq_some.mp renamed).length_eq]
  use { c₂ with target := c₂.target.setObject copy object' }
  constructor
  · intro n
    simp only [fill, StateT.run_bind, StateT.run_get, pure_bind, h]
    show Except.bind (Except.bind (c.source.object old) _) _ = _
    rw [inv.source_eq, hobject]
    show Except.bind ((copyItems [] object).run { c with pending := rest }) _ = _
    rw [run]
    rfl
  constructor
  · apply inv₂.put hobject renamed width
  constructor
  · apply grows
  · show c₂.weight + 1 = c.weight
    rw [weight, Cloner.weight, Cloner.weight, h, List.length_cons]
    show rest.length + c.uncopied + 1 = _
    omega

/-- With as many turns as there is to do, nothing stays pending. -/
theorem fill_ok (regular : source.Regular) (inside : ∀ old, Within old → source.Holds old)
    (closed : ∀ a b, Within a → source.RefersTo a b → Within b) {n : Nat} {c : Cloner}
    (inv : Copying source target Within [] c) (enough : c.weight ≤ n) :
  ∃ c', (fill n).run c = .ok ((), c') ∧ Copying source target Within [] c' ∧ c.Grows c'
    ∧ c'.pending = []
  := by
  induction n generalizing c with
  | zero =>
    have none : c.pending = [] := by
      apply List.eq_nil_of_length_eq_zero
      rw [weight] at enough
      omega
    use c, rfl, inv, .refl c, none
  | succ n ih =>
    cases h : c.pending with
    | nil =>
      use c
      constructor
      · simp only [fill, StateT.run_bind, StateT.run_get, pure_bind, h]
        rfl
      use inv, .refl c, h
    | cons p rest =>
      obtain ⟨c₁, turn, inv₁, grows₁, less⟩ := turn_ok regular inside closed inv h
      obtain ⟨c₂, run, inv₂, grows₂, none⟩ := ih inv₁ (by omega)
      use c₂
      constructor
      · rw [turn, run]
      use inv₂, grows₁.trans grows₂, none

/-- The loop comes to its end: an object is pending once at most. -/
theorem fillAll_ok (regular : source.Regular) (inside : ∀ old, Within old → source.Holds old)
    (closed : ∀ a b, Within a → source.RefersTo a b → Within b)
    (inv : Copying source target Within [] c) (enough : c.weight ≤ source.sizes.sum) :
  ∃ c', fillAll.run c = .ok ((), c') ∧ Copying source target Within [] c' ∧ c.Grows c'
    ∧ c'.pending = []
  := by
  obtain ⟨c', run, rest⟩ := fill_ok regular inside closed inv enough
  use c'
  constructor
  · rw [← inv.source_eq] at run
    rw [fillAll, StateT.run_bind, StateT.run_get]
    apply run
  · apply rest

/-! ### Calls -/

/-- A call on a cloner. -/
inductive Call where
  | object (old : Instance)
  | value (value : Value)

/-- What a call is to copy, as a value. -/
def Call.argument : Call → Value
  | .object old => .ref old
  | .value v => v

/-- The copy that a call gives, as a value. -/
def Call.run : Call → CloneM Value
  | .object old => do return .ref (← cloneInstance old)
  | .value v => cloneValue v

/-- Both kinds of calls copy their argument and then fill what is pending. -/
theorem Call.run_eq (call : Call) :
  call.run = do
    let copy ← copyValue call.argument
    fillAll
    return copy
  := by
  cases call with
  | object old =>
    simp only [Call.run, Call.argument, cloneInstance, copyValue, bind_assoc, pure_bind]
  | value v => rfl

/-- A call on a cloner at rest copies its argument and leaves the cloner at rest. -/
theorem call_ok (regular : source.Regular) (inside : ∀ old, Within old → source.Holds old)
    (closed : ∀ a b, Within a → source.RefersTo a b → Within b)
    (inv : Copying source target Within [] c) (rest : c.pending = []) {call : Call}
    (within : ∀ t, call.argument.Mentions t → Within t) :
  ∃ result c', call.run.run c = .ok (result, c') ∧ Copying source target Within [] c'
    ∧ c.Grows c' ∧ c'.pending = [] ∧ call.argument.rename? c'.image? = some result
  := by
  have enough : c.weight ≤ source.sizes.sum := by
    rw [weight, rest, List.length_nil, Nat.zero_add, ← inv.sizes]
    apply uncopied_le
  obtain ⟨result, c₁, run₁, inv₁, grows₁, weight₁, renamed⟩ :=
    copyValue_ok regular inside inv within
  rw [← weight₁] at enough
  obtain ⟨c₂, run₂, inv₂, grows₂, none⟩ := fillAll_ok regular inside closed inv₁ enough
  use result, c₂
  constructor
  · rw [Call.run_eq]
    exact run_bind_eq_ok.mpr ⟨result, c₁, run₁, run_bind_eq_ok.mpr ⟨(), c₂, run₂, rfl⟩⟩
  use inv₂, grows₁.trans grows₂, none
  apply Value.rename?_mono grows₂ renamed

theorem calls_ok (regular : source.Regular) (inside : ∀ old, Within old → source.Holds old)
    (closed : ∀ a b, Within a → source.RefersTo a b → Within b) {c : Cloner}
    (inv : Copying source target Within [] c) (rest : c.pending = []) {calls : List Call}
    (within : ∀ call ∈ calls, ∀ t, call.argument.Mentions t → Within t) :
  ∃ results c', (calls.mapM Call.run).run c = .ok (results, c')
    ∧ Copying source target Within [] c' ∧ c.Grows c' ∧ c'.pending = []
    ∧ List.Forall₂ (fun call result => call.argument.rename? c'.image? = some result) calls results
  := by
  induction calls generalizing c with
  | nil =>
    use [], c, rfl, inv, .refl c, rest, .nil
  | cons call calls ih =>
    obtain ⟨first, others⟩ := List.forall_mem_cons.mp within
    obtain ⟨result, c₁, run₁, inv₁, grows₁, rest₁, renamed⟩ :=
      call_ok regular inside closed inv rest first
    obtain ⟨results, c₂, run₂, inv₂, grows₂, rest₂, all⟩ := ih inv₁ rest₁ others
    use result :: results, c₂
    constructor
    · rw [List.mapM_cons]
      exact run_bind_eq_ok.mpr ⟨result, c₁, run₁, run_bind_eq_ok.mpr ⟨results, c₂, run₂, rfl⟩⟩
    use inv₂, grows₁.trans grows₂, rest₂
    exact .cons (Value.rename?_mono grows₂ renamed) all

end

end Cloner

end PoolGraph
