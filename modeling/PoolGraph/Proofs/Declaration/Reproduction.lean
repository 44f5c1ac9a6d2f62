import PoolGraph.Proofs.Binding.DepthFirst
import PoolGraph.Proofs.Compile.Faultless
import PoolGraph.Proofs.Compile.RoundTrip
import PoolGraph.Proofs.Declaration.Cloning

/-!
# Reproducing declarations

A cloner copies declarations depth first, as the binder adds them.  So from the root of a schema
file every declaration is copied to where it stands already (`Cloner.InStep`), and what the file
declares is reproduced (`DeclarationCloner.reproduces_parseSchema`).
-/

namespace PoolGraph

/-- Regions of one schema with the same objects at the same places are equal. -/
theorem Region.eq_of_objects {r r' : Region} (schema : r.schema = r'.schema) (regular : r.Regular)
    (regular' : r'.Regular) (size : r.size = r'.size)
    (objects : ∀ i object, r.object i = .ok object → r'.object i = .ok object) :
  r = r'
  := by
  apply Region.ext_pools schema
  intro id
  have length : r.pools.length = r'.pools.length := by
    rw [regular.length_pools, regular'.length_pools, schema]
  by_cases inside : id < r.pools.length
  · have hpool := List.getElem?_eq_getElem inside
    have hpool' := List.getElem?_eq_getElem (length ▸ inside)
    have sizes := congrFun size id
    rw [size_eq_getD, size_eq_getD, hpool, hpool'] at sizes
    rw [hpool, hpool']
    apply congrArg some
    rw [← Pool.toList_inj]
    apply List.ext_getElem (by rw [Pool.length_toList, Pool.length_toList]; exact sizes)
    intro i h h'
    have here : r.object ⟨id, i⟩ = .ok r.pools[id].toList[i] := by
      refine object_eq_ok.mpr ⟨_, hpool, ?_⟩
      rw [Pool.get?_eq_getElem?]
      apply List.getElem?_eq_getElem h
    obtain ⟨pool, hfound, there⟩ := object_eq_ok.mp (objects _ _ here)
    obtain rfl := Option.some.inj (hpool'.symm.trans hfound)
    rw [Pool.get?_eq_getElem?] at there
    obtain ⟨_, same⟩ := List.getElem?_eq_some_iff.mp there
    apply same.symm
  · rw [List.getElem?_eq_none (Nat.not_lt.mp inside),
      List.getElem?_eq_none (length ▸ Nat.not_lt.mp inside)]

mutual

/-- A value of which every reference stays what it is stays what it is. -/
theorem Value.eq_of_rename? {image : Instance → Option Instance}
    (same : ∀ a b, image a = some b → b = a) {v v' : Value} (h : v.rename? image = some v') :
  v' = v
  := by
  cases v with
  | ref target =>
    obtain ⟨copy, hcopy, rfl⟩ := Option.map_eq_some_iff.mp h
    rw [same target copy hcopy]
  | list items =>
    obtain ⟨items', hitems, rfl⟩ := Option.map_eq_some_iff.mp h
    rw [Value.eq_of_renameItems? same hitems]
  | _ => apply (Option.some.inj h).symm

theorem Value.eq_of_renameItems? {image : Instance → Option Instance}
    (same : ∀ a b, image a = some b → b = a) {items items' : List Value}
    (h : Value.renameItems? image items = some items') :
  items' = items
  := by
  cases items with
  | nil => apply (Option.some.inj h).symm
  | cons item rest =>
    obtain ⟨item', hitem, h⟩ := Option.bind_eq_some_iff.mp h
    obtain ⟨rest', hrest, h⟩ := Option.bind_eq_some_iff.mp h
    obtain rfl := Option.some.inj h
    rw [Value.eq_of_rename? same hitem, Value.eq_of_renameItems? same hrest]

end

/-- Whether the copies that a cloner has made stand where their originals do, and nothing else is in
the target. -/
structure Cloner.InStep (source : Region) (c : Cloner) : Prop where
  source_eq : c.source = source
  image : ∀ old copy, c.image? old = some copy ↔ copy = old ∧ c.target.Holds old

namespace DeclarationCloner

section

variable {source : Region} {c c' : DeclarationCloner} {after : Nat → Nat}

/-- Whether a procedure keeps a cloner in step with a source whose objects stand depth first. -/
def Follows [Declared α] (source : Region) (clone : Ref α → CloneM (Ref α)) : Prop :=
  ∀ (c c' : DeclarationCloner) (old copy : Ref α) (after : Nat → Nat),
    (c.view []).InStep source → source.DepthFirst c.target.toRegion.size [old.place] after →
    (clone old).run c = .ok (copy, c') →
    (c'.view []).InStep source ∧ c'.target.toRegion.size = after

/-- The same for the parts of a declaration. -/
def FollowsParts [Declared α] [Inhabited α] [Kind α] (source : Region) (parts : α → CloneM α) :
    Prop :=
  ∀ (c c' : DeclarationCloner) (x x' : α) (after : Nat → Nat), (c.view []).InStep source →
    source.DepthFirst c.target.toRegion.size (Value.itemReferences (Kind.toObject x)) after →
    (parts x).run c = .ok (x', c') →
    (c'.view []).InStep source ∧ c'.target.toRegion.size = after

/-- References that stand depth first are followed one by one. -/
theorem follows_mapM [Declared α] {clone : Ref α → CloneM (Ref α)} (follows : Follows source clone)
    {refs refs' : List (Ref α)} (inStep : (c.view []).InStep source)
    (depthFirst : source.DepthFirst c.target.toRegion.size (refs.map Ref.place) after)
    (run : (refs.mapM clone).run c = .ok (refs', c')) :
  (c'.view []).InStep source ∧ c'.target.toRegion.size = after
  := by
  induction refs generalizing c refs' with
  | nil =>
    obtain ⟨-, rfl⟩ := Prod.mk.inj (Except.ok.inj run)
    cases depthFirst
    exact ⟨inStep, rfl⟩
  | cons r refs ih =>
    rw [List.mapM_cons] at run
    obtain ⟨r', c₁, run₁, run⟩ := run_bind_eq_ok.mp run
    obtain ⟨others', c₂, run₂, run⟩ := run_bind_eq_ok.mp run
    obtain ⟨-, rfl⟩ := Prod.mk.inj (Except.ok.inj run)
    cases depthFirst with
    | cons next found references others =>
    obtain ⟨inStep₁, rfl⟩ := follows c c₁ r r' _ inStep (.cons next found references .nil) run₁
    apply ih inStep₁ others run₂

theorem followsParts_pure :
  FollowsParts source (pure : FieldDecl → CloneM FieldDecl)
  := by
  intro c c' x x' after inStep depthFirst run
  obtain ⟨-, rfl⟩ := Prod.mk.inj (Except.ok.inj run)
  cases depthFirst
  exact ⟨inStep, rfl⟩

variable {α : Type} [Declared α] [Inhabited α] [Kind α]

/-- When a place is taken for a copy where its original is, the cloner stays in step. -/
theorem inStep_allotted {old : Ref α} (inStep : (c.view []).InStep source)
    (new : (Kind.copies (α := α) c)[old.index]? = some none)
    (next : old.index = c.target.toRegion.size (Declared.struct α)) :
  ((c.allotted old).view []).InStep source
  := by
  have place : (c.next α).place = old.place := by
    rw [place_next, ← next, Ref.place]
  have allots := allots_allotted [] c.target.regular new
  rw [place] at allots
  refine ⟨allots.source_eq.trans inStep.source_eq, fun other copy => ?_⟩
  have image : ((c.allotted old).view []).image? other
      = if other = old.place then some old.place else (c.view []).image? other :=
    allots.image other
  have holds : ((c.allotted old).view []).target.Holds other
      ↔ (c.view []).target.Holds other ∨ other = old.place := allots.holds other
  rw [image, holds]
  split
  · next same => simp [same, eq_comm]
  · next apart =>
    rw [or_iff_left apart]
    apply inStep.image

theorem size_allotted (c : DeclarationCloner) (old : Ref α) (object : Object) :
  (c.allotted old).target.toRegion.size
    = Added.sizes c.target.toRegion.size [⟨old.place.struct, object⟩]
  := by
  obtain ⟨s, hs, -⟩ := Kind.zero_eq (α := α)
  obtain ⟨inside, -⟩ := List.getElem?_eq_some_iff.mp hs
  have known : Declared.struct α < c.target.toRegion.pools.length := by
    rw [c.target.regular.length_pools]
    apply inside
  have extended := allocateStruct_view c old [] []
  have hs : (c.view []).target.schema.structs[old.place.struct]? = some s := hs
  have regular : (c.view []).target.Regular := c.target.regular
  rw [Region.allocateStruct_eq_extend regular hs] at extended
  obtain ⟨-, same⟩ := Prod.mk.inj (Except.ok.inj extended)
  have same : c.target.toRegion.extend [⟨Declared.struct α, s.zero⟩]
      = (c.allotted old).target.toRegion := same
  rw [← same, Region.size_extend (List.forall_mem_singleton.mpr known)]
  apply Added.sizes_singleton

/-- Filling a copy keeps the cloner in step. -/
theorem inStep_put (inStep : (c.view []).InStep source) (copy : Ref α) (filled : α) :
  ((c.put copy filled).view []).InStep source
    ∧ (c.put copy filled).target.toRegion.size = c.target.toRegion.size
  := by
  have view := view_put c [] copy filled
  have target : (c.put copy filled).target.toRegion
      = c.target.toRegion.setObject copy.place (Kind.toObject filled) := congrArg Cloner.target view
  constructor
  · rw [view]
    refine ⟨inStep.source_eq, fun other copy' => ?_⟩
    rw [Region.holds_setObject]
    apply inStep.image
  · rw [target]
    funext id
    apply Region.size_setObject

/-- What comes next is copied to where it stands, and so are its parts behind it. -/
theorem follows_with {parts : α → CloneM α} (followsParts : FollowsParts source parts) :
  Follows source (cloneWith parts)
  := by
  intro c c' old copy after inStep depthFirst run
  cases depthFirst with
  | @cons _ inside _ _ object _ next found references others =>
  cases others
  rcases run_cloneWith_eq_ok.mp run with ⟨known, rfl⟩ | ⟨new, x, filled, c₁, hx, parts, rfl, rfl⟩
  · -- what comes next has no copy yet
    obtain ⟨-, held⟩ := (inStep.image _ _).mp (image?_view.mpr ⟨copy, known, rfl⟩)
    rw [Region.Holds, next] at held
    exact absurd held (Nat.lt_irrefl _)
  · have same : c.source.toRegion = source := inStep.source_eq
    have hobject : object = Kind.toObject x := by
      rw [← same, object_place hx] at found
      apply (Except.ok.inj found).symm
    subst hobject
    rw [← size_allotted] at references
    obtain ⟨inStep₁, size⟩ := followsParts (c.allotted old) c₁ x filled after
      (inStep_allotted inStep new next) references parts
    obtain ⟨inStep₂, size'⟩ := inStep_put inStep₁ (c.next α) filled
    constructor
    · apply inStep₂
    · apply size'.trans size

theorem followsParts_of_follows [Declared β] {refs : α → List (Ref β)}
    {withRefs : α → List (Ref β) → α} (lists : Lists refs withRefs)
    {clone : Ref β → CloneM (Ref β)} (follows : Follows source clone) :
  FollowsParts source fun x => do return withRefs x (← (refs x).mapM clone)
  := by
  intro c c' x x' after inStep depthFirst run
  rw [lists.itemReferences] at depthFirst
  obtain ⟨new, c₁, copied, rest⟩ := run_bind_eq_ok.mp run
  obtain ⟨-, rfl⟩ := Prod.mk.inj (Except.ok.inj rest)
  apply follows_mapM follows inStep depthFirst copied

theorem follows_schemas (source : Region) :
  Follows source cloneSchemas
  := by
  rw [cloneSchemas_eq, cloneRegion_eq, cloneStruct_eq, cloneField_eq]
  apply follows_with
  apply followsParts_of_follows lists_schemas
  apply follows_with
  apply followsParts_of_follows lists_region
  apply follows_with
  apply followsParts_of_follows lists_struct
  apply follows_with followsParts_pure

end

/-- Declarations that were all copied to where they stand were reproduced. -/
theorem target_eq_of_inStep {d : Declarations} {target : Region} {Within : Instance → Prop}
    {c : DeclarationCloner} (inv : Cloner.Copying d.toRegion target Within [] (c.view []))
    (inStep : (c.view []).InStep d.toRegion)
    (size : c.target.toRegion.size = d.toRegion.size) :
  c.target = d
  := by
  have schema : d.toRegion.schema = c.target.toRegion.schema := rfl
  have objects : ∀ i object, d.toRegion.object i = .ok object →
      c.target.toRegion.object i = .ok object := by
    intro i object hobject
    have holds : c.target.toRegion.Holds i := by
      rw [Region.Holds, size]
      exact Region.holds_iff.mpr ⟨object, hobject⟩
    have found := (inStep.image i i).mpr ⟨rfl, holds⟩
    rcases inv.filled i i found with ⟨⟨⟩⟩ | ⟨original, object', horiginal, hobject', renamed⟩
    rw [inv.source_eq] at horiginal
    obtain rfl := Except.ok.inj (hobject.symm.trans horiginal)
    obtain rfl := Value.eq_of_renameItems? (fun a b h => ((inStep.image a b).mp h).1) renamed
    apply hobject'
  have same := Region.eq_of_objects schema d.regular c.target.regular size.symm objects
  apply Declarations.toRegion_injective same.symm

/-- A root whose declarations stand depth first, and which leads to all of them, is reproduced. -/
theorem reproduces {d : Declarations} {root : Ref SchemaDecl} (inRange : d.InRange)
    (inside : root.index < d.schemas.size)
    (depthFirst : d.toRegion.DepthFirst (Region.empty declarationSchema).size [root.place]
      d.toRegion.size) :
  ∃ c, (cloneSchemas root).run (start d .empty) = .ok (root, c) ∧ c.target = d
  := by
  have closed := Declarations.closed_of_inRange inRange
  have schema : d.toRegion.schema = Declarations.empty.toRegion.schema := rfl
  have size₀ : Declarations.empty.toRegion.size = (Region.empty declarationSchema).size := by
    rw [Declarations.toRegion_empty]
  have held : d.toRegion.Holds root.place := by
    show root.index < d.toRegion.size 3
    rw [d.size_toRegion.2.2.2]
    apply inside
  obtain ⟨c₀, begins, inv₀, -, none⟩ :=
    Cloner.copying_start d.toRegion.Holds schema Declarations.empty.regular
  obtain rfl := Except.ok.inj (begins.symm.trans (start_view d .empty))
  obtain ⟨copy, c, run, inv, -, found⟩ := copies_schemas d.regular (fun _ => id)
    (fun a b _ edge => closed a b edge) _ [] root inv₀ held
  have inStep₀ : ((start d .empty).view []).InStep d.toRegion := by
    refine ⟨rfl, fun old copy => iff_of_false (by simp [none]) fun ⟨_, holds⟩ => ?_⟩
    have holds : old.index < Declarations.empty.toRegion.size old.struct := holds
    rw [size₀, Region.size_empty] at holds
    cases holds
  rw [← size₀] at depthFirst
  obtain ⟨inStep, size⟩ := follows_schemas d.toRegion _ c root copy _ inStep₀ depthFirst run
  obtain rfl := Ref.eq_of_place ((inStep.image _ _).mp found).1
  use c, run
  apply target_eq_of_inStep inv inStep size

/-- The declarations of a schema file are reproduced from their root. -/
theorem reproduces_parseSchema {file : Source} {d : Declarations} {root : Ref SchemaDecl}
    (h : (parseSchema file).run = .ok (.ok (d, root))) :
  ∃ c, (cloneSchemas root).run (start d .empty) = .ok (root, c) ∧ c.target = d
  := by
  obtain ⟨inRange, inside⟩ := inRange_of_parseSchema h
  obtain ⟨⟨result, d'⟩, hstep, parsed⟩ := Compile.bind_eq_ok.mp h
  obtain ⟨value, hvalue, accepted⟩ := Compile.bind_eq_ok.mp parsed
  obtain ⟨root', hroot, last⟩ := Compile.bind_eq_ok.mp accepted
  obtain ⟨rfl, rfl⟩ := Prod.mk.inj (Except.ok.inj (Except.ok.inj last))
  obtain rfl := eq_of_ofRoot hroot
  obtain rfl := Compile.ofExcept_eq_ok.mp hvalue
  have one : ∀ s ∈ declarationSchema.structs, s.RefersByOne := by
    unfold StructSchema.RefersByOne
    decide
  have hparse := Compile.lift_eq_ok.mp hstep
  have depthFirst := depthFirst_of_parseFile Declarations.models wellFormed_declarationSchema one
    Declarations.toRegion_empty hparse
  apply reproduces inRange inside depthFirst

/-! ### What cloning preserves -/

/-- Calls on a cloner of declarations whose references are in range copy the declarations that their
arguments lead to, each of them once and no others; what the target held before is unchanged, and
every copy has the texts and the references of its original.  What a schema file declares is
reproduced from its root, down to the bytes. -/
theorem preserves_declarations :
  (∀ (source target : Declarations) (calls : List Call), source.InRange →
    (∀ call ∈ calls, source.toRegion.Holds call.old) →
    ∃ copies c, (calls.mapM Call.run).run (start source target) = .ok (copies, c)
      ∧ Cloner.Copied source.toRegion target.toRegion (Reached source calls) (c.view [])
      ∧ Mirrors source c
      ∧ List.Forall₂ (fun call copy => (c.view []).image? call.old = some copy) calls copies)
  ∧ ∀ (file : Source) (d : Declarations) (root : Ref SchemaDecl),
    (parseSchema file).run = .ok (.ok (d, root)) →
    ∃ c, (cloneSchemas root).run (start d .empty) = .ok (root, c) ∧ c.target = d
      ∧ c.target.serialize = d.serialize
  := by
  constructor
  · intro source target calls inRange inside
    obtain ⟨copies, c, run, copied, all⟩ := copied_of_calls inRange inside
    use copies, c, run, copied, mirrors_of_copied copied, all
  · intro file d root h
    obtain ⟨c, run, same⟩ := reproduces_parseSchema h
    use c, run, same
    apply congrArg Declarations.serialize same

/-- A struct in two regions, and twice in one of them. -/
def shared : Declarations where
  fields := .ofList [⟨"x", "int32"⟩]
  structs := .ofList [⟨"P", [⟨0⟩]⟩]
  regions := .ofList [⟨"R", [⟨0⟩]⟩, ⟨"Q", [⟨0⟩, ⟨0⟩]⟩]
  schemas := .ofList [⟨[⟨0⟩, ⟨1⟩]⟩]

theorem preserves_declarations_shared :
  (∃ copies c, ([Call.region ⟨1⟩, .struct ⟨0⟩, .schemas ⟨0⟩].mapM Call.run).run
      (start shared shared) = .ok (copies, c)
    ∧ Cloner.Copied shared.toRegion shared.toRegion
      (Reached shared [.region ⟨1⟩, .struct ⟨0⟩, .schemas ⟨0⟩]) (c.view [])
    ∧ Mirrors shared c
    ∧ List.Forall₂ (fun call copy => (c.view []).image? call.old = some copy)
      [Call.region ⟨1⟩, .struct ⟨0⟩, .schemas ⟨0⟩] copies)
  ∧ ∃ d root, (parseSchema weightsFile).run = .ok (.ok (d, root))
    ∧ ∃ c, (cloneSchemas root).run (start d .empty) = .ok (root, c) ∧ c.target = d
      ∧ c.target.serialize = d.serialize
  := by
  constructor
  · apply preserves_declarations.1
    · exact ⟨by decide, by decide, by decide⟩
    · unfold Region.Holds
      decide +kernel
  · obtain ⟨⟨d, root⟩, hparse, -⟩ := Compile.bind_eq_ok.mp compileSchemas_weightsFile
    use d, root, hparse
    apply preserves_declarations.2 weightsFile d root hparse

end DeclarationCloner

end PoolGraph
