import PoolGraph.Proofs.Region.Regular
import PoolGraph.Proofs.State
import PoolGraph.Region.Cloner

/-!
# Reachable regions

`Region.Reachable` says that a region arises from empty ones by allocating, storing, reading bytes
and cloning.  A cloner only ever fills the copies that it allocated, object for object, so that
every reachable region is regular (`Region.Reachable.regular`).
-/

namespace PoolGraph

namespace Cloner

/-- While a region is copied its own objects stay as they are, the other region is regular, and
every copy that is still to be filled is an object of the struct of its original. -/
structure Regular (source : Region) (c : Cloner) : Prop where
  source_eq : c.source = source
  schema_eq : c.target.schema = source.schema
  target : c.target.Regular
  pending : ∀ p ∈ c.pending, p.2.struct = p.1.struct

variable {source : Region}

/-- A copying into a regular region begins regular. -/
theorem regular_of_start {target : Region} {c : Cloner} (h : start source target = .ok c)
    (regular : target.Regular) :
  c.Regular source
  := by
  unfold start at h
  split at h
  · next same =>
    obtain rfl := Except.ok.inj h
    exact ⟨rfl, same.symm, regular, List.forall_mem_nil _⟩
  · cases h

/-- A copy is of the struct of what it is a copy of. -/
theorem struct_of_copy? {c : Cloner} {old copy : Instance} (h : c.copy? old = .ok (some copy)) :
  copy.struct = old.struct
  := by
  unfold copy? at h
  split at h
  · cases h
  split at h
  · cases h
  · obtain ⟨index, -, rfl⟩ := Option.map_eq_some_iff.mp (Except.ok.inj h)
    rfl

/-- Visiting an object gives one of the same struct and keeps a copying regular. -/
theorem ensures_visit (old : Instance) :
  Ensures (Regular source) (visit old) fun copy c =>
    copy.struct = old.struct ∧ c.Regular source
  := by
  intro c copy c' regular run
  obtain ⟨copy?, hcopy, run⟩ := Except.bind_eq_ok.mp run
  cases copy? with
  | some found =>
    obtain ⟨rfl, rfl⟩ := Prod.mk.inj (Except.ok.inj run)
    constructor
    · apply struct_of_copy? hcopy
    · apply regular
  | none =>
    obtain ⟨source', target, copies, pending⟩ := c
    obtain ⟨⟨copy', target'⟩, hallocate, run⟩ := Except.bind_eq_ok.mp run
    obtain ⟨rfl, rfl⟩ := Prod.mk.inj (Except.ok.inj run)
    have schema := Region.schema_allocateStruct hallocate
    have target := regular.target.allocateStruct hallocate
    obtain ⟨s, -, -, rfl, -⟩ := Region.allocateStruct_eq_ok.mp hallocate
    refine ⟨rfl, regular.source_eq, schema.trans regular.schema_eq, target, ?_⟩
    exact List.forall_mem_cons.mpr ⟨rfl, regular.pending⟩

mutual

/-- Copying a value keeps a copying regular. -/
theorem keeps_copyValue (value : Value) :
  Keeps (Regular source) (copyValue value)
  := by
  cases value with
  | ref old =>
    rw [copyValue.eq_def]
    refine Ensures.bind (ensures_visit old) ?_
    intro copy
    apply Ensures.pure
    rintro c ⟨-, regular⟩
    apply regular
  | list items =>
    rw [copyValue.eq_def]
    refine Ensures.bind (ensures_copyItems [] items) ?_
    intro copies
    apply Ensures.pure
    rintro c ⟨-, regular⟩
    apply regular
  | _ =>
    rw [copyValue.eq_def]
    apply Keeps.pure

/-- Copying items gives as many as there are, and keeps a copying regular. -/
theorem ensures_copyItems (before items : List Value) :
  Ensures (Regular source) (copyItems before items) fun copies c =>
    copies.length = before.length + items.length ∧ c.Regular source
  := by
  cases items with
  | nil =>
    rw [copyItems.eq_def]
    apply Ensures.pure
    intro c regular
    exact ⟨List.length_reverse, regular⟩
  | cons item rest =>
    rw [copyItems.eq_def]
    refine Ensures.bind (keeps_copyValue item) ?_
    intro copy
    have more := ensures_copyItems (copy :: before) rest
    intro c copies c' regular run
    obtain ⟨length, regular⟩ := more c copies c' regular run
    constructor
    · rw [length, List.length_cons, List.length_cons]
      omega
    · apply regular

end

/-- The next pending copy is of the struct of its original, and those behind it are left. -/
theorem Regular.pop {c : Cloner} (h : c.Regular source) {old copy : Instance}
    {pending : List (Instance × Instance)} (hpending : c.pending = (old, copy) :: pending) :
  copy.struct = old.struct ∧ Regular source { c with pending }
  := by
  have all := h.pending
  rw [hpending] at all
  obtain ⟨same, others⟩ := List.forall_mem_cons.mp all
  exact ⟨same, h.source_eq, h.schema_eq, h.target, others⟩

/-- Storing an object of the width of its struct keeps a copying regular. -/
theorem Regular.store {c : Cloner} (h : c.Regular source) {copy : Instance} {object : Object}
    (width : source.schema.widths[copy.struct]? = some object.length) :
  Regular source { c with target := c.target.setObject copy object }
  := by
  refine ⟨h.source_eq, h.schema_eq, ?_, h.pending⟩
  apply h.target.setObject
  rw [h.schema_eq, width]

/-- Filling pending copies keeps a copying regular, since a copy gets as many values as its original
has. -/
theorem keeps_fill (regular : source.Regular) (n : Nat) :
  Keeps (Regular source) (fill n)
  := by
  induction n with
  | zero =>
    rw [fill]
    apply Keeps.pure
  | succ n ih =>
    rw [fill]
    refine Ensures.bind (Ensures.get (R := fun c c' => c' = c ∧ c.Regular source) ?_) ?_
    · intro c hc
      exact ⟨rfl, hc⟩
    intro c
    split
    · apply Ensures.pure
      rintro _ ⟨rfl, hc⟩
      apply hc
    next old copy pending hpending =>
    -- behind its removal only what is asked of the pair itself has to be remembered
    refine Ensures.bind (Ensures.modify (R := fun _ c' =>
      copy.struct = old.struct ∧ c'.Regular source) ?_) ?_
    · rintro _ ⟨rfl, hc⟩
      apply hc.pop hpending
    intro _
    apply Ensures.assume
    intro same
    refine Ensures.bind (Ensures.get (R := fun c c' =>
      c.source = source ∧ c'.Regular source) ?_) ?_
    · intro c hc
      exact ⟨hc.source_eq, hc⟩
    intro c
    apply Ensures.assume
    intro hsource
    refine Ensures.bind (Ensures.lift (Q := fun object c' =>
      source.object old = .ok object ∧ c'.Regular source) ?_) ?_
    · intro object c' hobject hc
      rw [hsource] at hobject
      exact ⟨hobject, hc⟩
    intro object
    apply Ensures.assume
    intro hobject
    -- the original is as wide as its struct, and so is the list of its copied values
    refine Ensures.bind (ensures_copyItems [] object) ?_
    intro copies
    apply Ensures.assume
    intro hlength
    refine Ensures.bind (Ensures.modify (R := fun _ => Regular source) ?_) fun _ => ih
    intro c hc
    apply hc.store
    rw [same, regular.object hobject, hlength, List.length_nil, Nat.zero_add]

/-- Filling all pending copies keeps a copying regular. -/
theorem keeps_fillAll (regular : source.Regular) :
  Keeps (Regular source) fillAll
  := by
  refine Ensures.bind (Ensures.get (R := fun _ => Regular source) fun _ hc => hc) ?_
  intro c
  apply keeps_fill regular

/-- Copying an object with all it leads to keeps a copying regular. -/
theorem keeps_cloneInstance (regular : source.Regular) (old : Instance) :
  Keeps (Regular source) (cloneInstance old)
  := by
  refine Ensures.bind (ensures_visit old) ?_
  intro copy
  apply Ensures.assume
  intro _
  apply Keeps.bind (keeps_fillAll regular)
  intro _
  apply Keeps.pure

/-- Copying a value with all it leads to keeps a copying regular. -/
theorem keeps_cloneValue (regular : source.Regular) (value : Value) :
  Keeps (Regular source) (cloneValue value)
  := by
  apply Keeps.bind (keeps_copyValue value)
  intro copy
  apply Keeps.bind (keeps_fillAll regular)
  intro _
  apply Keeps.pure

/-- Whether copying objects and values leads from a cloner to another. -/
inductive Copies : Cloner → Cloner → Prop where
  | none {c : Cloner} : Copies c c
  | object {c c₁ c₂ : Cloner} {old copy : Instance} (before : Copies c c₁)
      (run : (cloneInstance old).run c₁ = .ok (copy, c₂)) : Copies c c₂
  | value {c c₁ c₂ : Cloner} {old copy : Value} (before : Copies c c₁)
      (run : (cloneValue old).run c₁ = .ok (copy, c₂)) : Copies c c₂

/-- Copying any number of values keeps a copying regular. -/
theorem Copies.regular {c c' : Cloner} (h : Copies c c') (regular : source.Regular)
    (hc : c.Regular source) :
  c'.Regular source
  := by
  induction h with
  | none => apply hc
  | object _ run ih => apply keeps_cloneInstance regular _ _ _ _ ih run
  | value _ run ih => apply keeps_cloneValue regular _ _ _ _ ih run

end Cloner

namespace Region

/-- Whether a region arises from empty regions by what changes a region. -/
inductive Reachable : Region → Prop where
  | empty (schema : RegionSchema) : Reachable (empty schema)
  | allocate {r r' : Region} {struct : Nat} {target : Instance} (before : Reachable r)
      (h : r.allocateStruct struct = .ok (target, r')) : Reachable r'
  | store {r r' : Region} {target : Instance} {field : Nat} {value : Value}
      (before : Reachable r) (h : r.setField target field value = .ok r') : Reachable r'
  | read {r r' : Region} {bytes : List UInt8} (before : Reachable r)
      (h : r.deserialize bytes = .ok (.ok r')) : Reachable r'
  | clone {source target : Region} {c c' : Cloner} (original : Reachable source)
      (before : Reachable target) (h : Cloner.start source target = .ok c)
      (copies : Cloner.Copies c c') : Reachable c'.target

/-- Every region that can be reached has a pool for each struct and a value for each field. -/
theorem Reachable.regular {r : Region} (h : r.Reachable) :
  r.Regular
  := by
  induction h with
  | empty schema => apply regular_empty
  | allocate _ h ih => apply ih.allocateStruct h
  | store _ h ih => apply ih.setField h
  | read _ h _ => apply regular_of_deserialize h
  | clone _ _ h copies original before =>
    have start := Cloner.regular_of_start h before
    apply (copies.regular original start).target

end Region

end PoolGraph
