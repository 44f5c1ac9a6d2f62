import PoolGraph.Declaration.Cloner
import PoolGraph.Proofs.Binding.Once
import PoolGraph.Proofs.Compile.Formatting
import PoolGraph.Proofs.Declaration.Binding
import PoolGraph.Proofs.Region.Cloning

/-!
# Kinds of declarations

The declarations of the four kinds are copied in one way (`DeclarationCloner.cloneWith`): a place is
taken for the copy and noted, then the parts are copied, and last the copy is filled.  What differs
is the pool, the table of copies and the parts (`Kind`).  Seen as regions, a copying of declarations
is a copying of objects (`DeclarationCloner.view`), and so are its steps.
-/

namespace PoolGraph

/-- Changing the object that was added last is the same as adding another one. -/
theorem Pool.modify_push (pool : Pool α) (x : α) (f : α → α) :
  (pool.push x).2.modify (pool.push x).1 f = (pool.push (f x)).2
  := by
  rw [← toList_inj, toList_modify, toList_push, toList_push, push, ← length_toList,
    modify_append_length]

theorem Pool.map_replace (toObject : α → Object) (pool : Pool α) (r : Ref α) (x : α) :
  (pool.modify r fun _ => x).map toObject
    = (pool.map toObject).modify ⟨r.index⟩ fun _ => toObject x
  := by
  rw [modify, map, modify, map, Pool.mk.injEq]
  apply Array.ext_getElem?
  intro i
  simp only [Array.getElem?_map, Array.getElem?_modify]
  split
  · rw [Option.map_map, Option.map_map]
    rfl
  · rfl

/-- The reference to a declaration, as a reference to an object. -/
def Ref.place [Declared α] (r : Ref α) : Instance :=
  ⟨Declared.struct α, r.index⟩

theorem Ref.eq_of_place [Declared α] {r r' : Ref α} (h : r.place = r'.place) :
  r = r'
  := by
  obtain ⟨index⟩ := r
  obtain ⟨index'⟩ := r'
  obtain ⟨-, rfl⟩ := Instance.mk.inj h
  rfl

/-- A list of references to declarations has these references. -/
theorem Value.references_refs [Declared α] (refs : List (Ref α)) :
  (Value.refs refs).references = refs.map Ref.place
  := by
  rw [Value.refs, references]
  induction refs with
  | nil => rfl
  | cons r refs ih =>
    rw [List.map_cons, itemReferences, ih]
    rfl

/-- Texts stay what they are when the references behind them are replaced. -/
theorem Value.renameItems?_texts (image : Instance → Option Instance) (texts : List String)
    (value : Value) :
  renameItems? image (texts.map .string ++ [value])
    = (value.rename? image).map fun value' => texts.map .string ++ [value']
  := by
  induction texts with
  | nil =>
    show renameItems? image [value] = _
    rw [renameItems?]
    cases value.rename? image <;> rfl
  | cons text texts ih =>
    rw [List.map_cons, List.cons_append, renameItems?, ih]
    cases value.rename? image <;> rfl

namespace DeclarationCloner

/-- The positions of the copies in the tables, by the positions of the kinds. -/
def tables (c : DeclarationCloner) : List (Array (Option Nat)) :=
  [c.fields.map (·.map Ref.index), c.structs.map (·.map Ref.index),
    c.regions.map (·.map Ref.index), c.schemas.map (·.map Ref.index)]

/-- A copying of declarations as one of objects; the copies that are not filled yet are given. -/
def view (c : DeclarationCloner) (pending : List (Instance × Instance)) : Cloner :=
  ⟨c.source.toRegion, c.target.toRegion, c.tables, pending⟩

end DeclarationCloner

/-- A kind of declaration: where its pool and its table of copies are, and what objects stand for
its declarations. -/
class Kind (α : Type) [Declared α] [Inhabited α] where
  pool : Declarations → Pool α
  withPool : Declarations → Pool α → Declarations
  copies : DeclarationCloner → Array (Option (Ref α))
  withCopies : DeclarationCloner → Array (Option (Ref α)) → DeclarationCloner
  toObject : α → Object
  injective : Function.Injective toObject
  source_withCopies : ∀ c copies, (withCopies c copies).source = c.source
  /-- The pool is the one that the region has at the position of the kind. -/
  pools_toRegion : ∀ d, d.toRegion.pools[Declared.struct α]? = some ((pool d).map toObject)
  toRegion_withPool : ∀ d p f, p.map toObject = f ((pool d).map toObject) →
    (withPool d p).toRegion = ⟨declarationSchema, d.toRegion.pools.modify (Declared.struct α) f⟩
  /-- So is the table among the tables. -/
  tables_eq : ∀ c, c.tables[Declared.struct α]? = some ((copies c).map (·.map Ref.index))
  tables_withCopies : ∀ c t f, t.map (·.map Ref.index) = f ((copies c).map (·.map Ref.index)) →
    (withCopies c t).tables = c.tables.modify (Declared.struct α) f
  /-- An empty declaration is a zero object. -/
  zero_eq : ∃ s, declarationSchema.structs[Declared.struct α]? = some s ∧ s.zero = toObject default

instance : Kind FieldDecl where
  pool d := d.fields
  withPool d fields := { d with fields }
  copies c := c.fields
  withCopies c fields := { c with fields }
  toObject := FieldDecl.toObject
  source_withCopies _ _ := rfl
  pools_toRegion _ := rfl
  toRegion_withPool d p f h := by
    show Region.mk _ [p.map _, _, _, _] = _
    rw [h]
    rfl
  tables_eq _ := rfl
  tables_withCopies c t f h := by
    show [t.map _, _, _, _] = _
    rw [h]
    rfl
  zero_eq := ⟨_, rfl, rfl⟩
  injective := by
    rintro ⟨name, type⟩ ⟨name', type'⟩ same
    simpa [FieldDecl.toObject] using same

instance : Kind StructDecl where
  pool d := d.structs
  withPool d structs := { d with structs }
  copies c := c.structs
  withCopies c structs := { c with structs }
  toObject := StructDecl.toObject
  source_withCopies _ _ := rfl
  pools_toRegion _ := rfl
  toRegion_withPool d p f h := by
    show Region.mk _ [_, p.map _, _, _] = _
    rw [h]
    rfl
  tables_eq _ := rfl
  tables_withCopies c t f h := by
    show [_, t.map _, _, _] = _
    rw [h]
    rfl
  zero_eq := ⟨_, rfl, rfl⟩
  injective := by
    rintro ⟨name, fields⟩ ⟨name', fields'⟩ same
    simpa [StructDecl.toObject, Value.refs_injective.eq_iff] using same

instance : Kind RegionDecl where
  pool d := d.regions
  withPool d regions := { d with regions }
  copies c := c.regions
  withCopies c regions := { c with regions }
  toObject := RegionDecl.toObject
  source_withCopies _ _ := rfl
  pools_toRegion _ := rfl
  toRegion_withPool d p f h := by
    show Region.mk _ [_, _, p.map _, _] = _
    rw [h]
    rfl
  tables_eq _ := rfl
  tables_withCopies c t f h := by
    show [_, _, t.map _, _] = _
    rw [h]
    rfl
  zero_eq := ⟨_, rfl, rfl⟩
  injective := by
    rintro ⟨name, structs⟩ ⟨name', structs'⟩ same
    simpa [RegionDecl.toObject, Value.refs_injective.eq_iff] using same

instance : Kind SchemaDecl where
  pool d := d.schemas
  withPool d schemas := { d with schemas }
  copies c := c.schemas
  withCopies c schemas := { c with schemas }
  toObject := SchemaDecl.toObject
  source_withCopies _ _ := rfl
  pools_toRegion _ := rfl
  toRegion_withPool d p f h := by
    show Region.mk _ [_, _, _, p.map _] = _
    rw [h]
    rfl
  tables_eq _ := rfl
  tables_withCopies c t f h := by
    show [_, _, _, t.map _] = _
    rw [h]
    rfl
  zero_eq := ⟨_, rfl, rfl⟩
  injective := by
    rintro ⟨regions⟩ ⟨regions'⟩ same
    simpa [SchemaDecl.toObject, Value.refs_injective.eq_iff] using same

theorem object_place [Declared α] [Inhabited α] [Kind α] {d : Declarations} {r : Ref α} {x : α}
    (h : (Kind.pool d).get? r = some x) :
  d.toRegion.object r.place = .ok (Kind.toObject x)
  := by
  refine Region.object_eq_ok.mpr ⟨_, Kind.pools_toRegion (α := α) d, ?_⟩
  exact (Pool.get?_map ..).trans (congrArg (Option.map Kind.toObject) h)

/-- Whether declarations of a kind consist of texts and of a list of references, and which part is
the list. -/
def Lists [Declared α] [Inhabited α] [Kind α] [Declared β] (refs : α → List (Ref β))
    (withRefs : α → List (Ref β) → α) : Prop :=
  ∀ x, ∃ texts : List String, Kind.toObject x = texts.map .string ++ [.refs (refs x)]
    ∧ ∀ new, Kind.toObject (withRefs x new) = texts.map .string ++ [.refs new]

theorem lists_struct :
  Lists StructDecl.fields fun s fields => { s with fields }
  := fun s => ⟨[s.name], rfl, fun _ => rfl⟩

theorem lists_region :
  Lists RegionDecl.structs fun r structs => { r with structs }
  := fun r => ⟨[r.name], rfl, fun _ => rfl⟩

theorem lists_schemas :
  Lists SchemaDecl.regions fun _ regions => ⟨regions⟩
  := fun _ => ⟨[], rfl, fun _ => rfl⟩

theorem Lists.itemReferences [Declared α] [Inhabited α] [Kind α] [Declared β]
    {refs : α → List (Ref β)} {withRefs : α → List (Ref β) → α} (lists : Lists refs withRefs)
    (x : α) :
  Value.itemReferences (Kind.toObject x) = (refs x).map Ref.place
  := by
  obtain ⟨texts, same, -⟩ := lists x
  have none : (texts.map Value.string).flatMap Value.references = [] := by
    rw [List.flatMap_map]
    apply List.flatMap_eq_nil_iff.mpr fun _ _ => rfl
  rw [same, Value.itemReferences_eq_flatMap, List.flatMap_append, none, List.flatMap_singleton,
    Value.references_refs, List.nil_append]

namespace DeclarationCloner

section

variable {α : Type} [Declared α] [Inhabited α] [Kind α]

variable (α) in
/-- The place of the next copy of a kind. -/
def next (c : DeclarationCloner) : Ref α :=
  ⟨(Kind.pool (α := α) c.target).size⟩

/-- A copying with a place taken for the copy of a declaration. -/
def allotted (c : DeclarationCloner) (old : Ref α) : DeclarationCloner :=
  { Kind.withCopies c ((Kind.copies c).setIfInBounds old.index (some (c.next α))) with
    target := Kind.withPool c.target ((Kind.pool c.target).push (default : α)).2 }

/-- A copying with a declaration put in place of a copy. -/
def put (c : DeclarationCloner) (copy : Ref α) (declaration : α) : DeclarationCloner :=
  { c with
    target := Kind.withPool c.target ((Kind.pool c.target).modify copy fun _ => declaration) }

/-- Copies a declaration whose parts are copied in the given way. -/
def cloneWith (parts : α → CloneM α) (old : Ref α) : CloneM (Ref α) := do
  match ← copy? (Kind.copies (← get)) old with
  | some copy => return copy
  | none =>
    let copy ← modifyGet fun c => (c.next α, c.allotted old)
    let declaration ← find (Kind.pool (← get).source) old
    let filled ← parts declaration
    modify fun c => c.put copy filled
    return copy

end

theorem cloneStruct_eq :
  cloneStruct = cloneWith fun s => do return { s with fields := ← s.fields.mapM cloneField }
  := by
  funext old
  simp only [cloneWith, bind_assoc, pure_bind]
  unfold cloneStruct
  refine bind_congr fun c => bind_congr fun found => ?_
  cases found <;> rfl

theorem cloneRegion_eq :
  cloneRegion = cloneWith fun r => do return { r with structs := ← r.structs.mapM cloneStruct }
  := by
  funext old
  simp only [cloneWith, bind_assoc, pure_bind]
  unfold cloneRegion
  refine bind_congr fun c => bind_congr fun found => ?_
  cases found <;> rfl

theorem cloneSchemas_eq :
  cloneSchemas = cloneWith fun s => do return ⟨← s.regions.mapM cloneRegion⟩
  := by
  funext old
  simp only [cloneWith, bind_assoc, pure_bind]
  unfold cloneSchemas
  refine bind_congr fun c => bind_congr fun found => ?_
  cases found <;> rfl

/-- A field has no parts, so that it can be added at once. -/
theorem cloneField_eq :
  cloneField = cloneWith pure
  := by
  funext old c
  show Except.bind ((copy? c.fields old).run c) _ = Except.bind ((copy? c.fields old).run c) _
  rw [copy?]
  cases c.fields[old.index]? with
  | none => rfl
  | some found =>
    cases found with
    | some copy => rfl
    | none =>
      show Except.bind ((find c.source.fields old).run c) _
        = Except.bind ((find c.source.fields old).run (c.allotted old)) _
      rw [find]
      cases c.source.fields.get? old with
      | none => rfl
      | some declaration =>
        have filled := Pool.modify_push c.target.fields default fun _ => declaration
        exact congrArg (fun fields => Except.ok (c.next FieldDecl,
          { c.allotted old with target := { c.target with fields } })) filled.symm

/-! ### Runs -/

section

variable {α : Type} [Declared α] [Inhabited α] [Kind α] {parts : α → CloneM α}
  {c c' : DeclarationCloner} {old copy : Ref α}

theorem run_cloneWith_eq_ok :
  (cloneWith parts old).run c = .ok (copy, c')
    ↔ (Kind.copies (α := α) c)[old.index]? = some (some copy) ∧ c' = c
      ∨ (Kind.copies (α := α) c)[old.index]? = some none ∧ ∃ declaration filled c₁,
        (Kind.pool c.source).get? old = some declaration
          ∧ (parts declaration).run (c.allotted old) = .ok (filled, c₁)
          ∧ copy = c.next α ∧ c' = c₁.put copy filled
  := by
  have source : (c.allotted old).source = c.source := Kind.source_withCopies _ _
  show Except.bind ((copy? (Kind.copies (α := α) c) old).run c) _ = _ ↔ _
  rw [copy?]
  cases (Kind.copies (α := α) c)[old.index]? with
  | none => exact iff_of_false nofun (by simp)
  | some found =>
    cases found with
    | some found =>
      show Except.ok (found, c) = Except.ok (copy, c') ↔ _
      simp [eq_comm]
    | none =>
      show Except.bind ((find (Kind.pool (c.allotted old).source) old).run (c.allotted old)) _ = _
        ↔ _
      rw [source, find]
      cases (Kind.pool c.source).get? old with
      | none => exact iff_of_false nofun (by simp)
      | some declaration =>
        show Except.bind ((parts declaration).run (c.allotted old)) _ = _ ↔ _
        cases run : (parts declaration).run (c.allotted old) with
        | error fault => exact iff_of_false nofun (by simp [run])
        | ok result =>
          show Except.ok (c.next α, result.2.put (c.next α) result.1) = Except.ok (copy, c') ↔ _
          constructor
          · intro h
            obtain ⟨rfl, rfl⟩ := Prod.mk.inj (Except.ok.inj h)
            exact .inr ⟨rfl, declaration, _, _, rfl, run, rfl, rfl⟩
          · rintro (⟨⟨⟩, -⟩ | ⟨-, _, _, _, ⟨⟩, run', rfl, rfl⟩)
            obtain rfl := Except.ok.inj (run.symm.trans run')
            rfl

/-! ### Runs seen as regions -/

/-- A copy is known where the table of its kind has it. -/
theorem copy?_view (stack : List (Instance × Instance)) {found : Option (Ref α)}
    (h : (Kind.copies (α := α) c)[old.index]? = some found) :
  (c.view stack).copy? old.place = .ok (found.map Ref.place)
  := by
  refine Cloner.copy?_eq_ok.mpr ⟨_, found.map Ref.index, Kind.tables_eq c, ?_, ?_⟩
  · show ((Kind.copies (α := α) c).map _)[old.index]? = _
    rw [Array.getElem?_map, h]
    rfl
  · rw [Option.map_map]
    rfl

/-- The next copy comes behind what the target holds. -/
theorem place_next :
  (c.next α).place = ⟨Declared.struct α, c.target.toRegion.size (Declared.struct α)⟩
  := by
  rw [Region.size, Kind.pools_toRegion (α := α)]
  show _ = Instance.mk _ ((Kind.pool (α := α) c.target).map _).size
  rw [Pool.size_map]
  rfl

/-- The image of a declaration is the copy that the table of its kind has. -/
theorem image?_view {stack : List (Instance × Instance)} {place : Instance} :
  (c.view stack).image? old.place = some place
    ↔ ∃ copy : Ref α, (Kind.copies c)[old.index]? = some (some copy) ∧ place = copy.place
  := by
  rw [Cloner.image?_eq_some]
  constructor
  · intro h
    obtain ⟨positions, position, hpositions, hposition, same⟩ := Cloner.copy?_eq_ok.mp h
    obtain rfl := Option.some.inj ((Kind.tables_eq (α := α) c).symm.trans hpositions)
    rw [Array.getElem?_map] at hposition
    obtain ⟨found, hfound, rfl⟩ := Option.map_eq_some_iff.mp hposition
    rw [Option.map_map] at same
    obtain ⟨copy, rfl, rfl⟩ := Option.map_eq_some_iff.mp same.symm
    use copy, hfound
    rfl
  · rintro ⟨copy, known, rfl⟩
    apply copy?_view stack known

/-- Taking a place for a copy is allocating an object. -/
theorem allocateStruct_view (c : DeclarationCloner) (old : Ref α)
    (stack stack' : List (Instance × Instance)) :
  (c.view stack).target.allocateStruct old.place.struct
    = .ok ((c.next α).place, ((c.allotted old).view stack').target)
  := by
  obtain ⟨s, hs, zero⟩ := Kind.zero_eq (α := α)
  have pushed := Pool.map_push Kind.toObject (Kind.pool (α := α) c.target) default
  have inside := (List.getElem?_eq_some_iff.mp (Kind.pools_toRegion (α := α) c.target)).1
  refine Region.allocateStruct_eq_ok.mpr ⟨s, hs, inside, place_next, ?_⟩
  show (Kind.withPool c.target _).toRegion = _
  rw [Kind.toRegion_withPool _ _ (fun pool => (pool.push (Kind.toObject (default : α))).2) pushed,
    ← zero]
  rfl

/-- What taking a place for a copy changes is the target and the table. -/
theorem view_allotted (stack stack' : List (Instance × Instance)) :
  (c.allotted old).view stack'
    = ⟨(c.view stack).source, ((c.allotted old).view stack').target,
      Cloner.note (c.view stack).copies old.place (c.next α).place.index, stack'⟩
  := by
  have source : (c.allotted old).source = c.source := Kind.source_withCopies _ _
  have tables : (c.allotted old).tables = Cloner.note c.tables old.place (c.next α).index := by
    show (Kind.withCopies c _).tables = _
    apply Kind.tables_withCopies c _ fun positions =>
      positions.setIfInBounds old.index (some (c.next α).index)
    rw [Array.map_setIfInBounds]
    rfl
  rw [view, source, tables]
  rfl

/-- Filling a copy is putting an object in its place. -/
theorem view_put (c : DeclarationCloner) (stack : List (Instance × Instance)) (copy : Ref α)
    (filled : α) :
  (c.put copy filled).view stack
    = { c.view stack with
        target := (c.view stack).target.setObject copy.place (Kind.toObject filled) }
  := by
  rw [view, put, Kind.toRegion_withPool _ _
    (fun pool => pool.modify ⟨copy.index⟩ fun _ => Kind.toObject filled) (Pool.map_replace ..)]
  rfl

end

end DeclarationCloner

end PoolGraph
