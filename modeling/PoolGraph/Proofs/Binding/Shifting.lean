import PoolGraph.Proofs.Binding.Files
import PoolGraph.Proofs.Declaration.Names
import PoolGraph.Proofs.Expr.Parse
import PoolGraph.Proofs.Region.Shifting

/-!
# Binding into a region that holds objects

A file is bound into a region that holds objects as it is bound into an empty region, with every
reference moved past the objects that are there.  The binder touches a region by allocating and
storing alone, and each of the two does behind other objects what it does without them; so a run of
the binder behind other objects is the run without them, moved (`Binding.Moves`,
`Binding.moves_bind`).  What the objects in front hold plays no role: it is not even asked that
their values are of the types of their fields (`parseFile_followedBy`).
-/

namespace PoolGraph

namespace Binding

/-- The binder at work behind the objects of a region. -/
def State.behind (front : Region) (s : State Region) : State Region :=
  ⟨front.followedBy s.store, s.reported⟩

/-- Whether a run that succeeds is followed by another one behind the objects of a region, with the
same errors and the image of its result. -/
def Moves (front : Region) (f : α → β) (m : BindM Region α) (m' : BindM Region β) : Prop :=
  ∀ s x s', front.Parallel s.store → m.run s = .ok (x, s') →
    front.Parallel s'.store ∧ m'.run (s.behind front) = .ok (f x, s'.behind front)

namespace Moves

variable {front : Region}

theorem pure {f : α → β} {x : α} {y : β} (h : f x = y) :
  Moves front f (Pure.pure x) (Pure.pure y)
  := by
  intro s _ s' parallel run
  obtain ⟨rfl, rfl⟩ := Prod.mk.inj (Except.ok.inj run)
  constructor
  · apply parallel
  · exact h ▸ rfl

/-- Steps that move with the objects behind a front, one after the other, do so together. -/
theorem bind {f : α → β} {g : γ → δ} {m : BindM Region α} {m' : BindM Region β}
    {k : α → BindM Region γ} {k' : β → BindM Region δ} (h : Moves front f m m')
    (hk : ∀ x, Moves front g (k x) (k' (f x))) :
  Moves front g (m >>= k) (m' >>= k')
  := by
  intro s y s' parallel run
  obtain ⟨x, mid, hm, run⟩ := run_bind_eq_ok.mp run
  obtain ⟨parallel, hm'⟩ := h s x mid parallel hm
  obtain ⟨parallel, hk'⟩ := hk x mid y s' parallel run
  constructor
  · apply parallel
  · apply run_bind_eq_ok.mpr ⟨_, _, hm', hk'⟩

/-- What looks at no region is done alike. -/
theorem lift_bind {g : γ → δ} {x : Except Fault α} {k : α → BindM Region γ}
    {k' : α → BindM Region δ} (hk : ∀ a, x = .ok a → Moves front g (k a) (k' a)) :
  Moves front g (liftM x >>= k) (liftM x >>= k')
  := by
  cases x with
  | error fault =>
    intro s y s' _ run
    cases run
  | ok a => apply hk a rfl

/-- Reporting is the same behind a front. -/
theorem report (f : α → β) (span : Span) (error : BindError) :
  Moves front (Option.map f) (report span error) (report span error)
  := by
  intro s _ s' parallel run
  obtain ⟨rfl, rfl⟩ := Prod.mk.inj (Except.ok.inj run)
  exact ⟨parallel, rfl⟩

/-- Allocating behind a front gives the place moved on. -/
theorem allocate (struct : String) :
  Moves front (Instance.shift front.size) (allocate struct) (allocate struct)
  := by
  intro s x s' parallel run
  obtain ⟨⟨target?, store⟩, hstore, run⟩ := Except.bind_eq_ok.mp run
  cases target? with
  | none => cases run
  | some target =>
    obtain ⟨rfl, rfl⟩ := Prod.mk.inj (Except.ok.inj run)
    obtain ⟨parallel, hstore'⟩ := parallel.allocate hstore
    constructor
    · apply parallel
    · exact Except.bind_eq_ok.mpr ⟨_, hstore', rfl⟩

/-- Assigning behind a front stores the value moved on. -/
theorem assign (target : Instance) (field : Nat) (value : Value) :
  Moves front id (assign target field value)
    (assign (target.shift front.size) field (value.shift front.size))
  := by
  intro s x s' parallel run
  obtain ⟨store, hstore, run⟩ := Except.bind_eq_ok.mp run
  obtain ⟨rfl, rfl⟩ := Prod.mk.inj (Except.ok.inj run)
  obtain ⟨parallel, hstore'⟩ := parallel.assign hstore
  constructor
  · apply parallel
  · exact Except.bind_eq_ok.mpr ⟨_, hstore', rfl⟩

end Moves

/-- What a run of digits is bound to is a numeral. -/
theorem exists_numeral?_of_numberOf {schema : RegionSchema} {type : FieldType} {digits : String}
    {value : Value} (h : numberOf schema type digits = .ok (.ok value)) :
  ∃ n, numeral? type n = some value
  := by
  have numeric : type.IsNumeric := by
    cases type with
    | integer width unsigned => trivial
    | float width => trivial
    | _ =>
      obtain ⟨name, -, h⟩ := Except.bind_eq_ok.mp h
      cases h
  cases hn : Text.digitsValue? digits with
  | none =>
    cases type with
    | integer width unsigned =>
      rw [numberOf, hn] at h
      cases h
    | float width =>
      rw [numberOf, hn] at h
      cases h
    | _ => cases numeric
  | some n =>
    use n
    apply (numberOf_eq_ok_ok hn numeric).mp h

/-- There are no references in numbers. -/
theorem shift_of_numberOf {base : Nat → Nat} {schema : RegionSchema} {type : FieldType}
    {digits : String} {value : Value} (h : numberOf schema type digits = .ok (.ok value)) :
  value.shift base = value
  := by
  obtain ⟨n, hn⟩ := exists_numeral?_of_numberOf h
  rcases eq_of_numeral? hn with ⟨_, -, -, rfl⟩ | ⟨_, -, -, rfl⟩ | ⟨_, -, rfl⟩ <;> rfl

variable {front : Region}

mutual

/-- An expression is bound behind other objects as it is without them. -/
theorem moves_bind (schema : RegionSchema) (expected : Option FieldType) (e : Expr) :
  Moves front (Option.map (Value.shift front.size)) (bind schema expected e)
    (bind schema expected e)
  := by
  rw [bind.eq_def]
  apply Moves.lift_bind
  rintro (error | type) _
  · apply Moves.report
  dsimp only
  cases e with
  | string raw value => apply Moves.pure rfl
  | bool span value => apply Moves.pure rfl
  | integer raw =>
    apply Moves.lift_bind
    rintro (error | value) hvalue
    · apply Moves.report
    · apply Moves.pure
      rw [Option.map_some, shift_of_numberOf hvalue]
  | struct type? brace arguments =>
    cases type with
    | struct id =>
      apply Moves.lift_bind
      intro s _
      apply Moves.bind (Moves.allocate _)
      intro target
      apply Moves.bind (moves_bindArguments schema s target [] true arguments)
      intro complete
      apply Moves.pure
      cases complete <;> rfl
    | _ =>
      apply Moves.lift_bind
      intro name _
      apply Moves.report
  | list bracket items =>
    cases type with
    | list id =>
      apply Moves.lift_bind
      intro item _
      apply Moves.bind (moves_bindItems schema item (some []) items)
      rintro (_ | values)
      · apply Moves.pure rfl
      · apply Moves.pure
        rw [Option.map_some, Option.map_some, Option.map_some, Option.map_some, Value.shift_list]
    | _ =>
      apply Moves.lift_bind
      intro name _
      apply Moves.report

theorem moves_bindArguments (schema : RegionSchema) (s : StructSchema) (target : Instance)
    (defined : List Nat) (complete : Bool) (arguments : List (Token × Expr)) :
  Moves front id (bindArguments schema s target defined complete arguments)
    (bindArguments schema s (target.shift front.size) defined complete arguments)
  := by
  cases arguments with
  | nil =>
    rw [bindArguments.eq_def, bindArguments.eq_def]
    apply Moves.pure rfl
  | cons argument rest =>
    obtain ⟨name, value⟩ := argument
    have go := fun (defined : List Nat) (complete : Bool) =>
      moves_bindArguments schema s target defined complete rest
    rw [bindArguments.eq_def, bindArguments.eq_def schema s (target.shift front.size)]
    dsimp only
    cases s.field? name.text with
    | none =>
      apply Moves.bind (Moves.report id _ _)
      intro _
      apply go
    | some slot =>
      obtain ⟨number, field⟩ := slot
      dsimp only
      split
      · apply Moves.bind (Moves.report id _ _)
        intro _
        apply go
      · apply Moves.bind (moves_bind schema (some field.type) value)
        rintro (_ | bound)
        · apply go
        · apply Moves.bind (Moves.assign _ _ _)
          intro _
          apply go

theorem moves_bindItems (schema : RegionSchema) (type : FieldType) (before : Option (List Value))
    (items : List Expr) :
  Moves front (Option.map (List.map (Value.shift front.size)))
    (bindItems schema type before items)
    (bindItems schema type (before.map (List.map (Value.shift front.size))) items)
  := by
  cases items with
  | nil =>
    rw [bindItems.eq_def, bindItems.eq_def]
    apply Moves.pure
    cases before with
    | none => rfl
    | some values =>
      rw [Option.map_some, Option.map_some, Option.map_some, Option.map_some, List.map_reverse]
  | cons item rest =>
    rw [bindItems.eq_def, bindItems.eq_def schema type (before.map _)]
    apply Moves.bind (moves_bind schema (some type) item)
    intro bound
    have gathered : (do return (← bound.map (Value.shift front.size))
          :: (← before.map (List.map (Value.shift front.size))))
        = (do return (← bound) :: (← before) : Option (List Value)).map
          (List.map (Value.shift front.size)) := by
      cases bound <;> cases before <;> rfl
    rw [gathered]
    apply moves_bindItems schema type _ rest

end

end Binding

open Binding

/-! ### Files -/

section

variable {front back back' : Region}

/-- A tree is bound behind a front as it is alone. -/
theorem bindRoot_followedBy (parallel : front.Parallel back) {e : Expr}
    {result : Except (List Diagnostic) Value} (h : bindRoot back e = .ok (result, back')) :
  front.Parallel back'
    ∧ bindRoot (front.followedBy back) e
      = .ok (result.map (Value.shift front.size), front.followedBy back')
  := by
  obtain ⟨⟨value?, s⟩, hrun, h⟩ := Except.bind_eq_ok.mp h
  obtain ⟨parallel', hrun'⟩ := moves_bind back.schema none e ⟨back, #[]⟩ value? s parallel hrun
  have schema : ObjectStore.schema (front.followedBy back) = back.schema := parallel.schema_eq.symm
  rw [bindRoot, schema]
  cases value? with
  | none =>
    obtain ⟨rfl, rfl⟩ := Prod.mk.inj (Except.ok.inj h)
    constructor
    · apply parallel'
    · exact Except.bind_eq_ok.mpr ⟨_, hrun', rfl⟩
  | some value =>
    dsimp only at h
    split at h
    · next clean =>
      obtain ⟨rfl, rfl⟩ := Prod.mk.inj (Except.ok.inj h)
      constructor
      · apply parallel'
      · apply Except.bind_eq_ok.mpr ⟨_, hrun', if_pos clean⟩
    · next found =>
      obtain ⟨rfl, rfl⟩ := Prod.mk.inj (Except.ok.inj h)
      constructor
      · apply parallel'
      · apply Except.bind_eq_ok.mpr ⟨_, hrun', if_neg found⟩

/-- A file is bound behind a front as it is alone. -/
theorem parseFile_moves (parallel : front.Parallel back) {source : Source}
    {result : Except CompileError Value} (h : parseFile source back = .ok (result, back')) :
  front.Parallel back'
    ∧ parseFile source (front.followedBy back)
      = .ok (result.map (Value.shift front.size), front.followedBy back')
  := by
  rw [parseFile] at h ⊢
  cases hparse : Expr.parse 0 source with
  | error diagnostic =>
    rw [hparse] at h
    obtain ⟨refused, hrefused, h⟩ := Except.bind_eq_ok.mp h
    obtain ⟨rfl, rfl⟩ := Prod.mk.inj (Except.ok.inj h)
    constructor
    · apply parallel
    · exact Except.bind_eq_ok.mpr ⟨refused, hrefused, rfl⟩
  | ok e =>
    rw [hparse] at h
    obtain ⟨⟨verdict, s⟩, hbind, h⟩ := Except.bind_eq_ok.mp h
    obtain ⟨parallel', hbind'⟩ := bindRoot_followedBy parallel hbind
    cases verdict with
    | ok value =>
      obtain ⟨rfl, rfl⟩ := Prod.mk.inj (Except.ok.inj h)
      constructor
      · apply parallel'
      · exact Except.bind_eq_ok.mpr ⟨_, hbind', rfl⟩
    | error reported =>
      obtain ⟨refused, hrefused, h⟩ := Except.bind_eq_ok.mp h
      obtain ⟨rfl, rfl⟩ := Prod.mk.inj (Except.ok.inj h)
      constructor
      · apply parallel'
      · exact Except.bind_eq_ok.mpr ⟨_, hbind', Except.bind_eq_ok.mpr ⟨refused, hrefused, rfl⟩⟩

end

/-- A file is bound into a region of a resolved schema, whatever the region holds, as it is bound
into an empty one: the objects come behind those that are there, which stay as they are, references
are moved past them, and the diagnostics are the same.  A file that is not parsed adds nothing. -/
theorem parseFile_followedBy {d : Declarations} {root : Ref SchemaDecl}
    {schemas : List RegionSchema} (hresolve : (d.resolve root).run = .ok (.ok schemas))
    {r : Region} (hschema : r.schema ∈ schemas) (regular : r.Regular) (source : Source) :
  ∃ result added,
    parseFile source (Region.empty r.schema) = .ok (result, added)
    ∧ parseFile source r = .ok (result.map (Value.shift r.size), r.followedBy added)
    ∧ (r.followedBy added).size = (fun id => r.size id + added.size id)
    ∧ (∀ target object, r.object target = .ok object →
        (r.followedBy added).object target = .ok object)
    ∧ (∀ target object, added.object target = .ok object →
        (r.followedBy added).object (target.shift r.size)
          = .ok (object.map (Value.shift r.size)))
    ∧ ∀ diagnostic, Expr.parse 0 source = .error diagnostic →
        result = .error (.reporting source [diagnostic]) ∧ r.followedBy added = r
  := by
  have wf := Declarations.wellFormed_of_resolve hresolve r.schema hschema
  have distinct := Declarations.distinct_of_resolve hresolve r.schema hschema
  obtain ⟨result, objects, added, hout, hrun, hview, -, -⟩ := parseFile_run
    (Region.models wf distinct) wf source (Region.sound_empty r.schema)
  obtain ⟨parallel, hrun'⟩ := parseFile_moves (Region.parallel_empty regular) hrun
  rw [Region.followedBy_empty regular] at hrun'
  use result, added, hrun, hrun'
  constructor
  · apply Region.size_followedBy parallel
  constructor
  · intro _ _
    apply Region.object_followedBy_of_front parallel
  constructor
  · intro _ _
    apply Region.object_followedBy parallel
  intro diagnostic hparse
  rw [fileOutcome, hparse] at hout
  obtain ⟨rfl, rfl⟩ := Prod.mk.inj (Except.ok.inj hout)
  obtain rfl : added = Region.empty r.schema := hview
  constructor
  · rfl
  · apply Region.followedBy_empty regular

/-- A region with a node of which no field holds what it should. -/
def crooked : Region :=
  ⟨Region.nodes, [.ofList [[.ref ⟨0, 7⟩, .bool true]]]⟩

theorem regular_crooked :
  crooked.Regular
  := by
  refine .cons ?_ .nil
  decide

/-- A file with a node and its successor. -/
def successorFile : Source :=
  ⟨"d", (String.ofList ['N', 'o', 'd', 'e', '{', 'n', 'e', 'x', 't', ':', 'N', 'o', 'd', 'e', '{',
    '}', '}']).toByteArray⟩

section

open Grammar

/-- The tree of that file. -/
def successorTree : Expr :=
  .struct (some (tokenOf 0 0 ['N', 'o', 'd', 'e'])) (spanOf 0 4 ['{'])
    [(tokenOf 0 5 ['n', 'e', 'x', 't'],
      .struct (some (tokenOf 0 10 ['N', 'o', 'd', 'e'])) (spanOf 0 14 ['{']) [])]

theorem parse_successorFile :
  Expr.parse 0 successorFile = .ok successorTree
  := by
  have type : Identifier ['N', 'o', 'd', 'e'] := ⟨'N', _, rfl, rfl, List.all_eq_true.mp rfl⟩
  have name : Identifier ['n', 'e', 'x', 't'] := ⟨'n', _, rfl, rfl, List.all_eq_true.mp rfl⟩
  have none : Blanks [] := List.forall_mem_nil _
  have closed : Block '{' '}' (Argument 0 (Expression 0)) _ 14 [] := .mk none .nil none
  have successor : Expression 0 _ 10 _ := .struct type (by decide) none closed
  have argument : Argument 0 (Expression 0) _ 5 _ := .mk name none none successor
  have block : Block '{' '}' (Argument 0 (Expression 0)) _ 4 _ :=
    .mk none (.cons argument .nil .none) none
  have tree : Expression 0 _ 0 successorTree := .struct type (by decide) none block
  apply Expr.parse_of_file _ (.mk none tree none)
  · decide
  · rw [successorFile, String.toByteArray_ofList]
    rfl

end

/-- Two nodes behind one that is not what it should be: the reference between them is moved. -/
theorem parseFile_followedBy_crooked :
  (Region.nodeDeclarations.resolve ⟨0⟩).run = .ok (.ok [Region.nodes]) ∧ crooked.Regular
    ∧ parseFile successorFile crooked
      = .ok (.ok (.ref ⟨0, 1⟩), ⟨Region.nodes, [.ofList
        [[.ref ⟨0, 7⟩, .bool true], [.ref ⟨0, 2⟩, .list []], [.null, .list []]]]⟩)
  := by
  have regular : crooked.Regular := by
    refine .cons ?_ .nil
    decide
  have alone : parseFile successorFile (Region.empty Region.nodes)
      = .ok (.ok (.ref ⟨0, 0⟩),
        ⟨Region.nodes, [.ofList [[.ref ⟨0, 1⟩, .list []], [.null, .list []]]]⟩) := by
    rw [parseFile, parse_successorFile]
    rfl
  obtain ⟨result, added, first, behind, -⟩ := parseFile_followedBy
    Region.resolve_nodeDeclarations (List.mem_singleton_self Region.nodes) regular successorFile
  obtain ⟨rfl, rfl⟩ := Prod.mk.inj (Except.ok.inj (alone.symm.trans first))
  exact ⟨Region.resolve_nodeDeclarations, regular, behind⟩

end PoolGraph
