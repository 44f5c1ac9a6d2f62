import PoolGraph.Proofs.Region.Cloning
import PoolGraph.Proofs.Region.Reachable
import PoolGraph.Proofs.Region.WellTyped

/-!
# Copies are well typed

A call on a cloner comes through only when its argument refers to objects of the source, and then
leaves the cloner at rest (`Cloner.Copies.copying`).  What a cloner at rest has copied into a
well-typed region from another one is well typed (`Cloner.Copying.wellTyped`).
-/

namespace PoolGraph

namespace Region

/-- The values of an object keep their types when their references are replaced by ones to objects
of the same structs in another region. -/
theorem ObjectHasType.rename {r r' : Region} {object object' : Object} {fields : List Field}
    (h : r.ObjectHasType object fields) (schema : r'.schema = r.schema)
    {image : Instance → Option Instance}
    (sent : ∀ old copy, image old = some copy → copy.struct = old.struct ∧ r'.Holds copy)
    (renamed : Value.renameItems? image object = some object') :
  r'.ObjectHasType object' fields
  := by
  have all := Value.renameItems?_eq_some.mp renamed
  clear renamed
  induction h generalizing object' with
  | nil =>
    cases all
    exact .nil
  | cons typed _ ih =>
    cases all with
    | cons first others => exact .cons (typed.rename schema sent first) (ih others)

end Region

namespace Cloner

variable {source target : Region} {Within : Instance → Prop} {c c' : Cloner}

/-! ### Calls that come through -/

theorem holds_of_visit {old copy : Instance} (sizes : c.copies.map Array.size = source.sizes)
    (run : (visit old).run c = .ok (copy, c')) :
  source.Holds old ∧ c'.copies.map Array.size = source.sizes
  := by
  obtain ⟨copy?, hcopy, run⟩ := Except.bind_eq_ok.mp run
  constructor
  · apply (holds_iff_copy? sizes old).mpr ⟨copy?, hcopy⟩
  cases copy? with
  | some found =>
    obtain ⟨-, rfl⟩ := Prod.mk.inj (Except.ok.inj run)
    apply sizes
  | none =>
    obtain ⟨⟨copy', target'⟩, -, run⟩ := Except.bind_eq_ok.mp run
    obtain ⟨-, rfl⟩ := Prod.mk.inj (Except.ok.inj run)
    apply (map_size_note ..).trans sizes

mutual

theorem holds_of_copyValue {c c' : Cloner} (sizes : c.copies.map Array.size = source.sizes)
    {value value' : Value} (run : (copyValue value).run c = .ok (value', c')) :
  (∀ t, value.Mentions t → source.Holds t) ∧ c'.copies.map Array.size = source.sizes
  := by
  cases value with
  | ref old =>
    rw [copyValue] at run
    obtain ⟨copy, c₁, visited, after⟩ := run_bind_eq_ok.mp run
    obtain ⟨-, rfl⟩ := Prod.mk.inj (Except.ok.inj after)
    obtain ⟨holds, sizes⟩ := holds_of_visit sizes visited
    constructor
    · rintro _ ⟨⟩
      apply holds
    · apply sizes
  | list items =>
    rw [copyValue] at run
    obtain ⟨items', c₁, copied, after⟩ := run_bind_eq_ok.mp run
    obtain ⟨-, rfl⟩ := Prod.mk.inj (Except.ok.inj after)
    obtain ⟨holds, sizes⟩ := holds_of_copyItems sizes copied
    constructor
    · rintro t (_ | ⟨hitem, mentions⟩)
      apply holds _ hitem t mentions
    · apply sizes
  | _ =>
    rw [copyValue.eq_def] at run
    obtain ⟨-, rfl⟩ := Prod.mk.inj (Except.ok.inj run)
    exact ⟨nofun, sizes⟩

theorem holds_of_copyItems {c c' : Cloner} (sizes : c.copies.map Array.size = source.sizes)
    {before items items' : List Value} (run : (copyItems before items).run c = .ok (items', c')) :
  (∀ item ∈ items, ∀ t, item.Mentions t → source.Holds t)
    ∧ c'.copies.map Array.size = source.sizes
  := by
  cases items with
  | nil =>
    rw [copyItems] at run
    obtain ⟨-, rfl⟩ := Prod.mk.inj (Except.ok.inj run)
    constructor
    · exact List.forall_mem_nil _
    · apply sizes
  | cons item rest =>
    rw [copyItems] at run
    obtain ⟨item', c₁, run₁, run₂⟩ := run_bind_eq_ok.mp run
    obtain ⟨first, sizes⟩ := holds_of_copyValue sizes run₁
    obtain ⟨others, sizes⟩ := holds_of_copyItems sizes run₂
    constructor
    · apply List.forall_mem_cons.mpr ⟨first, others⟩
    · apply sizes

end

/-- A call that comes through leaves the cloner at rest. -/
theorem Call.copying (regular : source.Regular) (closed : source.Closed)
    (inv : Copying source target source.Holds [] c) (rest : c.pending = []) {call : Call}
    {result : Value} (run : call.run.run c = .ok (result, c')) :
  Copying source target source.Holds [] c' ∧ c'.pending = []
  := by
  have within : ∀ t, call.argument.Mentions t → source.Holds t := by
    rw [Call.run_eq] at run
    obtain ⟨result, c₁, run, -⟩ := run_bind_eq_ok.mp run
    apply (holds_of_copyValue inv.sizes run).1
  obtain ⟨_, _, run', inv', -, rest', -⟩ := call_ok regular (fun _ => id)
    (fun a b _ edge => closed a b edge) inv rest within
  obtain ⟨-, rfl⟩ := Prod.mk.inj (Except.ok.inj (run.symm.trans run'))
  exact ⟨inv', rest'⟩

/-- So do all calls that come through. -/
theorem Copies.copying (copies : Copies c c') (regular : source.Regular) (closed : source.Closed)
    (inv : Copying source target source.Holds [] c) (rest : c.pending = []) :
  Copying source target source.Holds [] c' ∧ c'.pending = []
  := by
  induction copies with
  | none => exact ⟨inv, rest⟩
  | @object _ _ old copy _ run ih =>
    obtain ⟨inv, rest⟩ := ih
    have run : (Call.object old).run.run _ = .ok (.ref copy, _) :=
      run_bind_eq_ok.mpr ⟨copy, _, run, rfl⟩
    apply Call.copying regular closed inv rest run
  | @value _ _ old copy _ run ih =>
    obtain ⟨inv, rest⟩ := ih
    have run : (Call.value old).run.run _ = .ok (copy, _) := run
    apply Call.copying regular closed inv rest run

/-! ### Types -/

/-- What a cloner at rest has made of a well-typed region is well typed. -/
theorem Copying.wellTyped (inv : Copying source target Within [] c) (rest : c.pending = [])
    (schema : source.schema = target.schema) (hsource : source.WellTyped)
    (htarget : target.WellTyped) :
  c.target.WellTyped
  := by
  intro i object hobject
  rcases inv.onto i (Region.holds_iff.mpr ⟨object, hobject⟩) with before | ⟨old, found⟩
  · obtain ⟨object', hobject'⟩ := Region.holds_iff.mp before
    obtain rfl := Except.ok.inj ((inv.kept i object' hobject').symm.trans hobject)
    obtain ⟨s, hs, values⟩ := htarget i _ hobject'
    have same := inv.schema_eq.trans schema
    use s
    constructor
    · rw [same, hs]
    apply values.mono same
    intro t held
    obtain ⟨other, hother⟩ := Region.holds_iff.mp held
    exact Region.holds_iff.mpr ⟨other, inv.kept t other hother⟩
  · obtain ⟨struct, -, -⟩ := inv.fresh old i found
    rcases inv.filled old i found with unfilled | ⟨original, object', horiginal, hobject', renamed⟩
    · rw [rest] at unfilled
      cases unfilled
    · obtain rfl := Except.ok.inj (hobject'.symm.trans hobject)
      rw [inv.source_eq] at horiginal
      obtain ⟨s, hs, values⟩ := hsource old original horiginal
      use s
      constructor
      · rw [inv.schema_eq, struct, hs]
      refine values.rename inv.schema_eq ?_ renamed
      intro old' copy' found'
      obtain ⟨struct', holds, -⟩ := inv.fresh old' copy' found'
      exact ⟨struct', holds⟩

end Cloner

end PoolGraph
