import Mathlib.Logic.Relation
import PoolGraph.Proofs.Region.Cloning

/-!
# The graph that a cloner copies

The calls on a cloner copy the objects that their arguments lead to, each of them once, and no
others; every reference in a copy leads to the copy of what the reference of the original leads
to.  So the copies are the graph of their originals beside what the target held before
(`Cloner.copied_reached`).
-/

namespace PoolGraph

namespace Cloner

/-- Whether one of the calls is given a reference that leads to the object. -/
def Reached (source : Region) (calls : List Call) (old : Instance) : Prop :=
  ∃ call ∈ calls, ∃ root, call.argument.Mentions root
    ∧ Relation.ReflTransGen source.RefersTo root old

/-- Whether a cloner has copied the graph of the objects in `Wanted` into the region that was
`target` before. -/
structure Copied (source target : Region) (Wanted : Instance → Prop) (c : Cloner) : Prop where
  source_eq : c.source = source
  schema_eq : c.target.schema = target.schema
  /-- What was there before is unchanged. -/
  kept : ∀ i object, target.object i = .ok object → c.target.object i = .ok object
  /-- The objects that have copies are those in `Wanted`. -/
  copied : ∀ old, (∃ copy, c.image? old = some copy) ↔ Wanted old
  /-- The copies are the objects that were not there before. -/
  added : ∀ i, (∃ old, c.image? old = some i) ↔ c.target.Holds i ∧ ¬ target.Holds i
  injective : ∀ old old' copy, c.image? old = some copy → c.image? old' = some copy → old = old'
  /-- A copy is an object of the same struct with the same values, up to references. -/
  filled : ∀ old copy, c.image? old = some copy → copy.struct = old.struct ∧ c.Filled old copy

section

variable {source target : Region} {calls : List Call}

theorem holds_of_reached (closed : source.Closed)
    (inside : ∀ call ∈ calls, ∀ t, call.argument.Mentions t → source.Holds t) {old : Instance}
    (reached : Reached source calls old) :
  source.Holds old
  := by
  obtain ⟨call, hcall, root, mentions, path⟩ := reached
  cases path with
  | refl => apply inside call hcall _ mentions
  | tail _ last => apply closed _ _ last

/-- What has a copy that is filled leads only to what has a copy. -/
theorem Copying.reaches {Within : Instance → Prop} {c : Cloner}
    (inv : Copying source target Within [] c) (rest : c.pending = []) {a b : Instance}
    (path : Relation.ReflTransGen source.RefersTo a b) (h : ∃ copy, c.image? a = some copy) :
  ∃ copy, c.image? b = some copy
  := by
  induction path with
  | refl => apply h
  | tail _ last ih =>
    obtain ⟨copy, found⟩ := ih
    obtain ⟨object, hobject, value, hvalue, mentions⟩ := last
    rcases inv.filled _ copy found with unfilled | ⟨object₁, object', hobject₁, -, renamed⟩
    · rw [rest] at unfilled
      cases unfilled
    · rw [inv.source_eq, hobject] at hobject₁
      obtain rfl := Except.ok.inj hobject₁
      have all := Value.renameItems?_eq_some.mp renamed
      obtain ⟨i, hi, rfl⟩ := List.getElem_of_mem hvalue
      exact Value.exists_image_of_mentions mentions (all.get hi (all.length_eq ▸ hi))

/-- A cloner at rest that got no further than the calls lead has copied what they lead to. -/
theorem Copying.copied {c : Cloner} {results : List Value}
    (inv : Copying source target (Reached source calls) [] c) (rest : c.pending = [])
    (schema : source.schema = target.schema)
    (renamed : List.Forall₂ (fun call result => call.argument.rename? c.image? = some result)
      calls results) :
  Copied source target (Reached source calls) c
  where
  source_eq := inv.source_eq
  schema_eq := inv.schema_eq.trans schema
  kept := inv.kept
  copied old := by
    constructor
    · rintro ⟨copy, found⟩
      apply inv.within old copy found
    · rintro ⟨call, hcall, root, mentions, path⟩
      obtain ⟨i, hi, rfl⟩ := List.getElem_of_mem hcall
      have argument := renamed.get hi (renamed.length_eq ▸ hi)
      apply inv.reaches rest path (Value.exists_image_of_mentions mentions argument)
  added i := by
    constructor
    · rintro ⟨old, found⟩
      apply (inv.fresh old i found).2
    · rintro ⟨now, new⟩
      apply (inv.onto i now).resolve_left new
  injective := inv.injective
  filled old copy found := by
    constructor
    · apply (inv.fresh old copy found).1
    rcases inv.filled old copy found with unfilled | filled
    · rw [rest] at unfilled
      cases unfilled
    · apply filled

/-- Every list of calls on a cloner, of which the arguments refer to objects of a closed region,
comes to its end.  Then the cloner has copied the objects that the arguments lead to, and the
calls have given the arguments with every reference replaced by the copy. -/
theorem copied_reached (schema : source.schema = target.schema) (hsource : source.Regular)
    (htarget : target.Regular) (closed : source.Closed)
    (inside : ∀ call ∈ calls, ∀ t, call.argument.Mentions t → source.Holds t) :
  ∃ c₀ results c, start source target = .ok c₀ ∧ (calls.mapM Call.run).run c₀ = .ok (results, c)
    ∧ c.pending = [] ∧ Copied source target (Reached source calls) c
    ∧ List.Forall₂ (fun call result => call.argument.rename? c.image? = some result) calls results
  := by
  obtain ⟨c₀, begins, inv₀, rest₀, -⟩ := copying_start (Reached source calls) schema htarget
  have within : ∀ call ∈ calls, ∀ t, call.argument.Mentions t → Reached source calls t :=
    fun call hcall t mentions => ⟨call, hcall, t, mentions, .refl⟩
  have onward : ∀ a b, Reached source calls a → source.RefersTo a b → Reached source calls b := by
    rintro a b ⟨call, hcall, root, mentions, path⟩ edge
    exact ⟨call, hcall, root, mentions, path.tail edge⟩
  obtain ⟨results, c, run, inv, -, rest, renamed⟩ :=
    calls_ok hsource (fun _ => holds_of_reached closed inside) onward inv₀ rest₀ within
  use c₀, results, c, begins, run, rest
  constructor
  · apply inv.copied rest schema renamed
  · apply renamed

/-- Two nodes that refer to each other, one of them also at a depth of two lists, and a third that
refers to them. -/
def ring : Region where
  schema := ⟨"Ring", [⟨"Node", [⟨"next", .struct 0⟩, ⟨"rows", .list 1⟩]⟩], [.struct 0, .list 0]⟩
  pools := [.ofList [[.ref ⟨0, 1⟩, .list [.list [], .list [.ref ⟨0, 0⟩, .null, .ref ⟨0, 1⟩]]],
    [.ref ⟨0, 0⟩, .list []], [.ref ⟨0, 0⟩, .list []]]]

/-- A node without references. -/
def lone : Region where
  schema := ring.schema
  pools := [.ofList [[.null, .list []]]]

theorem copied_reached_ring :
  ∃ c₀ results c, start ring lone = .ok c₀
    ∧ ([Call.value (.list [.ref ⟨0, 1⟩]), .object ⟨0, 0⟩].mapM Call.run).run c₀ = .ok (results, c)
    ∧ c.pending = []
    ∧ Copied ring lone (Reached ring [.value (.list [.ref ⟨0, 1⟩]), .object ⟨0, 0⟩]) c
    ∧ List.Forall₂ (fun call result => call.argument.rename? c.image? = some result)
      [Call.value (.list [.ref ⟨0, 1⟩]), .object ⟨0, 0⟩] results
  := by
  apply copied_reached (show ring.schema = lone.schema from rfl)
  · simp [Region.Regular, ring, PoolsRegular, RegionSchema.widths, Pool.toList, Pool.ofList]
  · simp [Region.Regular, lone, ring, PoolsRegular, RegionSchema.widths, Pool.toList, Pool.ofList]
  · apply Region.closed_of_references
    simp [ring, Value.itemReferences, Value.references, Region.Holds, Region.size]
  · simp only [List.forall_mem_cons, Call.argument, ← Value.mem_references, Value.references,
      Value.itemReferences, List.append_nil]
    simp [Region.Holds, Region.size, ring]

end

end Cloner

end PoolGraph
