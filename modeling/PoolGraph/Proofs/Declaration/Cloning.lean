import PoolGraph.Proofs.Declaration.Agreement
import PoolGraph.Proofs.Declaration.Faultless
import PoolGraph.Proofs.Declaration.Kinds
import PoolGraph.Proofs.Region.CopiedGraph

/-!
# What a cloner of declarations does

A cloner of declarations keeps the invariant of a cloner of objects (`Cloner.Copying`), with the
declarations whose parts are being copied for those that are still to be filled.  This holds of the
procedure of every kind when it holds of the one for its parts (`DeclarationCloner.copies_with`).
So the calls on a cloner copy the graph of the declarations that their arguments lead to
(`DeclarationCloner.copied_of_calls`), and the copies have the texts and the references of their
originals (`DeclarationCloner.mirrors_of_copied`).
-/

namespace PoolGraph

namespace Declarations

/-- References below the size of a pool are held. -/
theorem holds_of_refs [Declared α] {d : Declarations} {n : Nat}
    (size : d.toRegion.size (Declared.struct α) = n) {refs : List (Ref α)}
    (inside : ∀ r ∈ refs, r.index < n) :
  ∀ t ∈ Value.itemReferences [.refs refs], d.toRegion.Holds t
  := by
  rw [Value.itemReferences, Value.itemReferences, List.append_nil, Value.references_refs]
  intro t ht
  obtain ⟨r, hr, rfl⟩ := List.mem_map.mp ht
  show r.index < d.toRegion.size (Declared.struct α)
  rw [size]
  apply inside r hr

/-- When references between declarations lead to declarations, those of the region with the same
objects lead to objects. -/
theorem closed_of_inRange {d : Declarations} (inRange : d.InRange) :
  d.toRegion.Closed
  := by
  obtain ⟨fields, structs, regions, -⟩ := d.size_toRegion
  apply Region.closed_of_references
  simp only [toRegion, List.forall_mem_cons, Pool.toList_map, List.forall_mem_map]
  constructor
  · intro f _ t ht
    cases ht
  constructor
  · intro s hs
    apply holds_of_refs fields (inRange.fields s hs)
  constructor
  · intro r hr
    apply holds_of_refs structs (inRange.structs r hr)
  constructor
  · intro s hs
    apply holds_of_refs regions (inRange.regions s hs)
  · exact List.forall_mem_nil _

end Declarations

namespace DeclarationCloner

section

variable {source target : Region} {Within : Instance → Prop}

/-- Whether a procedure copies every declaration that it may copy. -/
def Copies [Declared α] (source target : Region) (Within : Instance → Prop)
    (clone : Ref α → CloneM (Ref α)) : Prop :=
  ∀ (c : DeclarationCloner) (stack : List (Instance × Instance)) (old : Ref α),
    Cloner.Copying source target Within [] (c.view stack) → Within old.place →
    ∃ copy c', (clone old).run c = .ok (copy, c')
      ∧ Cloner.Copying source target Within [] (c'.view stack)
      ∧ (c.view stack).Grows (c'.view stack)
      ∧ (c'.view stack).image? old.place = some copy.place

/-- Whether a procedure turns a declaration into one of the copies of its parts. -/
def CopiesParts [Declared α] [Inhabited α] [Kind α] (source target : Region)
    (Within : Instance → Prop) (parts : α → CloneM α) : Prop :=
  ∀ (c : DeclarationCloner) (stack : List (Instance × Instance)) (x : α),
    Cloner.Copying source target Within [] (c.view stack) →
    (∀ t ∈ Value.itemReferences (Kind.toObject x), Within t) →
    ∃ x' c', (parts x).run c = .ok (x', c')
      ∧ Cloner.Copying source target Within [] (c'.view stack)
      ∧ (c.view stack).Grows (c'.view stack)
      ∧ Value.renameItems? (c'.view stack).image? (Kind.toObject x) = some (Kind.toObject x')

variable {c : DeclarationCloner} {stack : List (Instance × Instance)}

/-- References are copied in order, each to the copy of what it refers to. -/
theorem copies_mapM [Declared α] {clone : Ref α → CloneM (Ref α)}
    (copies : Copies source target Within clone)
    (inv : Cloner.Copying source target Within [] (c.view stack)) {refs : List (Ref α)}
    (within : ∀ r ∈ refs, Within r.place) :
  ∃ refs' c', (refs.mapM clone).run c = .ok (refs', c')
    ∧ Cloner.Copying source target Within [] (c'.view stack)
    ∧ (c.view stack).Grows (c'.view stack)
    ∧ Value.rename? (c'.view stack).image? (.refs refs) = some (.refs refs')
  := by
  induction refs generalizing c with
  | nil =>
    use [], c, rfl, inv, .refl _
    rfl
  | cons r refs ih =>
    obtain ⟨first, others⟩ := List.forall_mem_cons.mp within
    obtain ⟨r', c₁, run₁, inv₁, grows₁, found⟩ := copies _ _ r inv first
    obtain ⟨refs', c₂, run₂, inv₂, grows₂, renamed⟩ := ih inv₁ others
    use r' :: refs', c₂
    constructor
    · rw [List.mapM_cons]
      exact run_bind_eq_ok.mpr ⟨r', c₁, run₁, run_bind_eq_ok.mpr ⟨refs', c₂, run₂, rfl⟩⟩
    use inv₂, grows₁.trans grows₂
    obtain ⟨_, hitems, same⟩ := Option.map_eq_some_iff.mp renamed
    obtain rfl := Value.list.inj same
    have first : Value.rename? (c₂.view stack).image? (.ref r.place) = some (.ref r'.place) :=
      Option.map_eq_some_iff.mpr ⟨_, grows₂ _ _ found, rfl⟩
    refine Option.map_eq_some_iff.mpr ⟨_, Value.renameItems?_eq_some.mpr ?_, rfl⟩
    exact .cons first (Value.renameItems?_eq_some.mp hitems)

/-- A field declaration has no parts to copy. -/
theorem copiesParts_pure :
  CopiesParts source target Within (pure : FieldDecl → CloneM FieldDecl)
  := fun _ _ _ inv _ => ⟨_, _, rfl, inv, .refl _, rfl⟩

variable {α : Type} [Declared α] [Inhabited α] [Kind α]

/-- A source object of the struct of a kind is a declaration of the kind. -/
theorem exists_declaration {d : Declarations} {r : Ref α}
    (holds : d.toRegion.Holds r.place) :
  ∃ x, (Kind.pool d).get? r = some x ∧ d.toRegion.object r.place = .ok (Kind.toObject x)
  := by
  obtain ⟨object, hobject⟩ := Region.holds_iff.mp holds
  obtain ⟨x, found, rfl⟩ := Declarations.exists_of_object (Kind.pool d)
    (Kind.pools_toRegion (α := α) d) hobject
  use x, found, hobject

/-- Every declaration has an entry in the table of its kind. -/
theorem exists_copies (inv : Cloner.Copying source target Within [] (c.view stack)) {old : Ref α}
    (holds : source.Holds old.place) :
  ∃ found, (Kind.copies (α := α) c)[old.index]? = some found
  := by
  obtain ⟨copy?, known⟩ := (Cloner.holds_iff_copy? inv.sizes old.place).mp holds
  obtain ⟨positions, position, hpositions, hposition, -⟩ := Cloner.copy?_eq_ok.mp known
  obtain rfl := Option.some.inj ((Kind.tables_eq (α := α) c).symm.trans hpositions)
  rw [Array.getElem?_map] at hposition
  obtain ⟨found, hfound, -⟩ := Option.map_eq_some_iff.mp hposition
  use found, hfound

/-- A place that is taken for a copy is an object that is allotted to its original. -/
theorem allots_allotted (stack : List (Instance × Instance)) {old : Ref α}
    (regular : (c.view stack).target.Regular)
    (new : (Kind.copies (α := α) c)[old.index]? = some none) :
  Cloner.Allots (c.view stack) ((c.allotted old).view ((old.place, (c.next α).place) :: stack))
    old.place (c.next α).place
  := by
  rw [view_allotted stack]
  exact Cloner.allots_of_allocateStruct regular (copy?_view stack new) (allocateStruct_view ..)

/-- A declaration is copied when its parts are. -/
theorem copies_with (regular : source.Regular) (inside : ∀ old, Within old → source.Holds old)
    (closed : ∀ a b, Within a → source.RefersTo a b → Within b) {parts : α → CloneM α}
    (copiesParts : CopiesParts source target Within parts) :
  Copies source target Within (cloneWith parts)
  := by
  intro c stack old inv within
  obtain ⟨found, hfound⟩ := exists_copies inv (inside _ within)
  cases found with
  | some copy =>
    use copy, c
    constructor
    · apply run_cloneWith_eq_ok.mpr (.inl ⟨hfound, rfl⟩)
    use inv, .refl _
    apply Cloner.image?_eq_some.mpr
    apply copy?_view stack hfound
  | none =>
    have allots := allots_allotted stack inv.regular hfound
    have inv₁ := inv.allots allots within
    have same : c.source.toRegion = source := inv.source_eq
    obtain ⟨x, hx, hobject⟩ := exists_declaration (r := old) (same ▸ inside _ within)
    rw [same] at hobject
    obtain ⟨x', c₂, run, inv₂, grows, renamed⟩ := copiesParts _ _ x inv₁ fun t ht => by
      obtain ⟨value, hvalue, mentions⟩ := Value.mentions_of_mem_itemReferences ht
      exact closed _ t within ⟨_, hobject, value, hvalue, mentions⟩
    have grows := allots.grows.trans grows
    have found : (c₂.view stack).image? old.place = some (c.next α).place :=
      inv₂.unfilled (old.place, (c.next α).place) (.head _)
    have width : source.schema.widths[old.place.struct]? = some (Kind.toObject x').length := by
      rw [regular.object hobject, (Value.renameItems?_eq_some.mp renamed).length_eq]
    have inv₃ := (inv₂.take rfl).put hobject renamed width
    use c.next α, c₂.put (c.next α) x'
    constructor
    · exact run_cloneWith_eq_ok.mpr (.inr ⟨hfound, x, x', c₂, hx, run, rfl, rfl⟩)
    constructor
    · rw [view_put]
      apply inv₃
    constructor
    · rw [view_put]
      apply grows
    · rw [view_put]
      apply found

/-- The parts of a declaration are copied when its references are. -/
theorem copiesParts_of_copies [Declared β] {refs : α → List (Ref β)}
    {withRefs : α → List (Ref β) → α} (lists : Lists refs withRefs)
    {clone : Ref β → CloneM (Ref β)} (copies : Copies source target Within clone) :
  CopiesParts source target Within fun x => do return withRefs x (← (refs x).mapM clone)
  := by
  intro c stack x inv within
  rw [lists.itemReferences, List.forall_mem_map] at within
  obtain ⟨new, c', run, inv, grows, renamed⟩ := copies_mapM copies inv within
  obtain ⟨texts, same, changed⟩ := lists x
  use withRefs x new, c'
  constructor
  · apply run_bind_eq_ok.mpr ⟨new, c', run, rfl⟩
  use inv, grows
  rw [same, changed, Value.renameItems?_texts, renamed]
  rfl

end

/-! ### Calls -/

/-- A call on a cloner. -/
inductive Call where
  | field (old : Ref FieldDecl)
  | struct (old : Ref StructDecl)
  | region (old : Ref RegionDecl)
  | schemas (old : Ref SchemaDecl)

/-- What a call is to copy. -/
def Call.old : Call → Instance
  | .field old => old.place
  | .struct old => old.place
  | .region old => old.place
  | .schemas old => old.place

/-- The copy that a call gives. -/
def Call.run : Call → CloneM Instance
  | .field old => do return (← cloneField old).place
  | .struct old => do return (← cloneStruct old).place
  | .region old => do return (← cloneRegion old).place
  | .schemas old => do return (← cloneSchemas old).place

section

variable {source target : Region} {Within : Instance → Prop} {c : DeclarationCloner}
  {stack : List (Instance × Instance)} (regular : source.Regular)
  (inside : ∀ old, Within old → source.Holds old)
  (closed : ∀ a b, Within a → source.RefersTo a b → Within b)

include regular inside closed

/-- Field declarations are copied as objects are. -/
theorem copies_field :
  Copies source target Within cloneField
  := by
  rw [cloneField_eq]
  apply copies_with regular inside closed copiesParts_pure

/-- Struct declarations are copied as objects are. -/
theorem copies_struct :
  Copies source target Within cloneStruct
  := by
  rw [cloneStruct_eq]
  apply copies_with regular inside closed
  apply copiesParts_of_copies lists_struct (copies_field regular inside closed)

/-- Region declarations are copied as objects are. -/
theorem copies_region :
  Copies source target Within cloneRegion
  := by
  rw [cloneRegion_eq]
  apply copies_with regular inside closed
  apply copiesParts_of_copies lists_region (copies_struct regular inside closed)

/-- File declarations are copied as objects are. -/
theorem copies_schemas :
  Copies source target Within cloneSchemas
  := by
  rw [cloneSchemas_eq]
  apply copies_with regular inside closed
  apply copiesParts_of_copies lists_schemas (copies_region regular inside closed)

/-- A call finishes, keeps the invariant and only adds copies. -/
theorem call_ok (inv : Cloner.Copying source target Within [] (c.view stack)) {call : Call}
    (within : Within call.old) :
  ∃ copy c', call.run.run c = .ok (copy, c')
    ∧ Cloner.Copying source target Within [] (c'.view stack)
    ∧ (c.view stack).Grows (c'.view stack) ∧ (c'.view stack).image? call.old = some copy
  := by
  cases call with
  | field old =>
    obtain ⟨copy, c', run, rest⟩ := copies_field regular inside closed _ _ old inv within
    use copy.place, c'
    constructor
    · apply run_bind_eq_ok.mpr ⟨copy, c', run, rfl⟩
    · apply rest
  | struct old =>
    obtain ⟨copy, c', run, rest⟩ := copies_struct regular inside closed _ _ old inv within
    use copy.place, c'
    constructor
    · apply run_bind_eq_ok.mpr ⟨copy, c', run, rfl⟩
    · apply rest
  | region old =>
    obtain ⟨copy, c', run, rest⟩ := copies_region regular inside closed _ _ old inv within
    use copy.place, c'
    constructor
    · apply run_bind_eq_ok.mpr ⟨copy, c', run, rfl⟩
    · apply rest
  | schemas old =>
    obtain ⟨copy, c', run, rest⟩ := copies_schemas regular inside closed _ _ old inv within
    use copy.place, c'
    constructor
    · apply run_bind_eq_ok.mpr ⟨copy, c', run, rfl⟩
    · apply rest

/-- Calls in a row finish, keep the invariant and give each root its copy. -/
theorem calls_ok (inv : Cloner.Copying source target Within [] (c.view stack)) {calls : List Call}
    (within : ∀ call ∈ calls, Within call.old) :
  ∃ copies c', (calls.mapM Call.run).run c = .ok (copies, c')
    ∧ Cloner.Copying source target Within [] (c'.view stack)
    ∧ (c.view stack).Grows (c'.view stack)
    ∧ List.Forall₂ (fun call copy => (c'.view stack).image? call.old = some copy) calls copies
  := by
  induction calls generalizing c with
  | nil =>
    use [], c, rfl, inv, .refl _, .nil
  | cons call calls ih =>
    obtain ⟨first, others⟩ := List.forall_mem_cons.mp within
    obtain ⟨copy, c₁, run₁, inv₁, grows₁, found⟩ := call_ok regular inside closed inv first
    obtain ⟨copies, c₂, run₂, inv₂, grows₂, all⟩ := ih inv₁ others
    use copy :: copies, c₂
    constructor
    · rw [List.mapM_cons]
      exact run_bind_eq_ok.mpr ⟨copy, c₁, run₁, run_bind_eq_ok.mpr ⟨copies, c₂, run₂, rfl⟩⟩
    use inv₂, grows₁.trans grows₂
    exact .cons (grows₂ _ _ found) all

end

/-- Whether one of the calls is given a declaration that leads to another one. -/
def Reached (source : Declarations) (calls : List Call) (old : Instance) : Prop :=
  ∃ call ∈ calls, Relation.ReflTransGen source.toRegion.RefersTo call.old old

variable {source target : Declarations} {calls : List Call}

/-- A call on a cloner of declarations reaches what the same call on one of objects does. -/
theorem reached_iff {old : Instance} :
  Cloner.Reached source.toRegion (calls.map fun call => .object call.old) old
    ↔ Reached source calls old
  := by
  constructor
  · rintro ⟨_, given, root, mentions, path⟩
    obtain ⟨call, hcall, rfl⟩ := List.mem_map.mp given
    cases mentions
    exact ⟨call, hcall, path⟩
  · rintro ⟨call, hcall, path⟩
    exact ⟨_, List.mem_map_of_mem hcall, call.old, .here _, path⟩

/-- A copying of declarations that has not begun, seen as one of objects. -/
theorem start_view (source target : Declarations) :
  Cloner.start source.toRegion target.toRegion = .ok ((start source target).view [])
  := by
  have none : ∀ {α} (toObject : α → Object) (pool : Pool α),
      Array.replicate (pool.map toObject).size (Option.none : Option Nat)
        = (Array.replicate pool.size Option.none).map (·.map (Ref.index (α := α))) := by
    intro α toObject pool
    rw [Pool.size_map, Array.map_replicate]
    rfl
  have tables : (start source target).tables
      = source.toRegion.pools.map fun pool => Array.replicate pool.size Option.none := by
    simp only [tables, start, Declarations.toRegion, List.map_cons, List.map_nil, none]
  rw [view, tables]
  apply if_pos rfl

/-- Every list of calls on a cloner of declarations whose references are in range comes to its end.
Then the cloner has copied the declarations that the arguments lead to, and the calls have given the
copies of their arguments. -/
theorem copied_of_calls (inRange : source.InRange)
    (inside : ∀ call ∈ calls, source.toRegion.Holds call.old) :
  ∃ copies c, (calls.mapM Call.run).run (start source target) = .ok (copies, c)
    ∧ Cloner.Copied source.toRegion target.toRegion (Reached source calls) (c.view [])
    ∧ List.Forall₂ (fun call copy => (c.view []).image? call.old = some copy) calls copies
  := by
  have closed := Declarations.closed_of_inRange inRange
  have same : Cloner.Reached source.toRegion (calls.map fun call => .object call.old)
      = Reached source calls := funext fun _ => propext reached_iff
  have schema : source.toRegion.schema = target.toRegion.schema := rfl
  obtain ⟨c₀, begins, inv₀, -, -⟩ :=
    Cloner.copying_start (Reached source calls) schema target.regular
  obtain rfl := Except.ok.inj (begins.symm.trans (start_view source target))
  have held : ∀ old, Reached source calls old → source.toRegion.Holds old := by
    rintro old ⟨call, hcall, path⟩
    cases path with
    | refl => apply inside call hcall
    | tail _ last => apply closed _ _ last
  obtain ⟨copies, c, run, inv, -, all⟩ := calls_ok source.regular held
    (fun a b ⟨call, hcall, path⟩ edge => ⟨call, hcall, path.tail edge⟩) inv₀
    (fun call hcall => ⟨call, hcall, .refl⟩)
  use copies, c, run
  constructor
  · rw [← same] at inv ⊢
    have renamed : List.Forall₂
        (fun (call : Cloner.Call) result => call.argument.rename? (c.view []).image? = some result)
        (calls.map fun call => .object call.old) (copies.map .ref) := by
      rw [List.forall₂_map_left_iff, List.forall₂_map_right_iff]
      exact all.imp fun call copy found => Option.map_eq_some_iff.mpr ⟨copy, found, rfl⟩
    apply inv.copied rfl rfl renamed
  · apply all

/-! ### Declarations and their copies -/

/-- Whether every copy has the texts of its original and, for each of its references in order, one
to the copy of what that refers to. -/
structure Mirrors (source : Declarations) (c : DeclarationCloner) : Prop where
  fields : ∀ old copy, c.fields[old.index]? = some (some copy) →
    ∃ f, source.fields.get? old = some f ∧ c.target.fields.get? copy = some f
  structs : ∀ old copy, c.structs[old.index]? = some (some copy) →
    ∃ s fields, source.structs.get? old = some s
      ∧ c.target.structs.get? copy = some ⟨s.name, fields⟩
      ∧ List.Forall₂ (fun f f' => c.fields[f.index]? = some (some f')) s.fields fields
  regions : ∀ old copy, c.regions[old.index]? = some (some copy) →
    ∃ r structs, source.regions.get? old = some r
      ∧ c.target.regions.get? copy = some ⟨r.name, structs⟩
      ∧ List.Forall₂ (fun s s' => c.structs[s.index]? = some (some s')) r.structs structs
  schemas : ∀ old copy, c.schemas[old.index]? = some (some copy) →
    ∃ s regions, source.schemas.get? old = some s ∧ c.target.schemas.get? copy = some ⟨regions⟩
      ∧ List.Forall₂ (fun r r' => c.regions[r.index]? = some (some r')) s.regions regions

section

variable {α : Type} [Declared α] [Inhabited α] [Kind α] {Wanted : Instance → Prop}
  {c : DeclarationCloner} {old copy : Ref α}
  (copied : Cloner.Copied source.toRegion target.toRegion Wanted (c.view []))

/-- References are renamed to references, each to the copy of its target. -/
theorem exists_refs_of_rename {refs : List (Ref α)} {value : Value}
    (h : Value.rename? (c.view []).image? (.refs refs) = some value) :
  ∃ new : List (Ref α), value = .refs new
    ∧ List.Forall₂ (fun r r' => (Kind.copies c)[r.index]? = some (some r')) refs new
  := by
  obtain ⟨items, hitems, rfl⟩ := Option.map_eq_some_iff.mp h
  have all := Value.renameItems?_eq_some.mp hitems
  clear hitems h
  induction refs generalizing items with
  | nil =>
    cases all
    use [], rfl, .nil
  | cons r refs ih =>
    cases all with
    | cons first others =>
    obtain ⟨new, same, rest⟩ := ih _ others
    obtain rfl := Value.list.inj same
    obtain ⟨_, found, rfl⟩ := Option.map_eq_some_iff.mp first
    obtain ⟨r', known, rfl⟩ := image?_view.mp found
    use r' :: new, rfl, .cons known rest

include copied

/-- A declaration that was copied stands beside its copy, renamed. -/
theorem exists_copied (known : (Kind.copies c)[old.index]? = some (some copy)) :
  ∃ x x', (Kind.pool source).get? old = some x ∧ (Kind.pool c.target).get? copy = some x'
    ∧ Value.renameItems? (c.view []).image? (Kind.toObject x) = some (Kind.toObject x')
  := by
  have found : (c.view []).image? old.place = some copy.place :=
    image?_view.mpr ⟨copy, known, rfl⟩
  obtain ⟨-, object, object', hobject, hobject', renamed⟩ := copied.filled _ _ found
  rw [copied.source_eq] at hobject
  obtain ⟨x, hx, rfl⟩ := Declarations.exists_of_object (Kind.pool source)
    (Kind.pools_toRegion (α := α) source) hobject
  obtain ⟨x', hx', rfl⟩ := Declarations.exists_of_object (Kind.pool c.target)
    (Kind.pools_toRegion (α := α) c.target) hobject'
  use x, x', hx, hx', renamed

/-- The references of a declaration are renamed one by one in its copy. -/
theorem exists_copied_of_lists [Declared β] [Inhabited β] [Kind β] {refs : α → List (Ref β)}
    {withRefs : α → List (Ref β) → α} (lists : Lists refs withRefs)
    (known : (Kind.copies c)[old.index]? = some (some copy)) :
  ∃ x new, (Kind.pool source).get? old = some x
    ∧ (Kind.pool c.target).get? copy = some (withRefs x new)
    ∧ List.Forall₂ (fun r r' => (Kind.copies c)[r.index]? = some (some r')) (refs x) new
  := by
  obtain ⟨x, x', hx, hx', renamed⟩ := exists_copied copied known
  obtain ⟨texts, same, changed⟩ := lists x
  rw [same, Value.renameItems?_texts] at renamed
  obtain ⟨value, hvalue, object⟩ := Option.map_eq_some_iff.mp renamed
  obtain ⟨new, rfl, all⟩ := exists_refs_of_rename hvalue
  obtain rfl := Kind.injective ((changed new).trans object)
  use x, new, hx, hx', all

/-- A copied graph of declarations, declaration by declaration. -/
theorem mirrors_of_copied :
  Mirrors source c
  where
  fields old copy known := by
    obtain ⟨f, f', hf, hf', renamed⟩ := exists_copied copied known
    have same : some (Kind.toObject f) = some (Kind.toObject f') := renamed
    obtain rfl := Kind.injective (Option.some.inj same)
    use f, hf, hf'
  structs old copy known := exists_copied_of_lists copied lists_struct known
  regions old copy known := exists_copied_of_lists copied lists_region known
  schemas old copy known := exists_copied_of_lists copied lists_schemas known

end

end DeclarationCloner

end PoolGraph
