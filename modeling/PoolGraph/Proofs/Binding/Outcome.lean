import PoolGraph.Proofs.Binding.Types
import PoolGraph.Proofs.Compile.TypeSafety
import PoolGraph.Proofs.Region.Extension
import PoolGraph.Proofs.Schema.Names

/-!
# The outcome of binding

`Binding.outcome` says what binding an expression comes to, as a function of the sizes of the pools
alone: the value, the objects that are added, with all their fields filled, and the errors that are
reported.  A store whose operations do what those of a region do (`Models`) is driven by `bind`
exactly as the outcome says, without a fault and keeping all values of their types
(`Binding.bind_run`).
-/

namespace PoolGraph

namespace Binding

/-- A result with the objects that were added on the way, in order, and the errors found. -/
structure Outcome (α : Type) where
  result : α
  objects : List Added
  reported : List Diagnostic

/-- Nothing but an error. -/
def Outcome.failed (span : Span) (error : BindError) : Outcome (Option α) :=
  ⟨none, [], [⟨span, error.message⟩]⟩

/-- An outcome behind objects and errors that came before. -/
def Outcome.after (o : Outcome α) (objects : List Added) (reported : List Diagnostic) :
    Outcome α :=
  ⟨o.result, objects ++ o.objects, reported ++ o.reported⟩

/-- An object with a value in a field, if there is a value. -/
def filled (object : Object) (number : Nat) : Option Value → Object
  | some value => object.set number value
  | none => object

mutual

/-- What binding an expression comes to, in a region whose pools have the given sizes.  The object
of a struct literal goes before those of its arguments. -/
def outcome (schema : RegionSchema) (size : Nat → Nat) (expected : Option FieldType) (e : Expr) :
    Except Fault (Outcome (Option Value)) := do
  match ← inferType schema expected e with
  | .error error => return .failed e.errorSpan error
  | .ok type =>
    match e with
    | .string _ value => return ⟨some (.string value), [], []⟩
    | .bool _ value => return ⟨some (.bool value), [], []⟩
    | .integer raw =>
      match ← numberOf schema type raw.text with
      | .ok value => return ⟨some value, [], []⟩
      | .error error => return .failed raw.span error
    | .struct _ brace arguments =>
      match type with
      | .struct id =>
        let s ← schema.struct id
        let ⟨(object, complete), objects, reported⟩ ←
          argumentsOutcome schema (Added.sizes size [⟨id, s.zero⟩]) s [] s.zero true arguments
        return ⟨if complete then some (.ref ⟨id, size id⟩) else none, ⟨id, object⟩ :: objects,
          reported⟩
      | _ => return .failed brace (.notStruct (← schema.typeName type))
    | .list bracket items =>
      match type with
      | .list id =>
        let item ← schema.listItem id
        let ⟨values, objects, reported⟩ ← itemsOutcome schema size item (some []) items
        return ⟨values.map .list, objects, reported⟩
      | _ => return .failed bracket (.notList (← schema.typeName type))

/-- What binding arguments comes to: the object with its fields filled, and whether all went
well. -/
def argumentsOutcome (schema : RegionSchema) (size : Nat → Nat) (s : StructSchema)
    (defined : List Nat) (object : Object) (complete : Bool) :
    List (Token × Expr) → Except Fault (Outcome (Object × Bool))
  | [] => return ⟨(object, complete), [], []⟩
  | (name, value) :: rest => do
    match s.field? name.text with
    | none =>
      let others ← argumentsOutcome schema size s defined object false rest
      return others.after [] [⟨name.span, (BindError.noField s.name name.text).message⟩]
    | some (number, field) =>
      if defined.contains number then
        let others ← argumentsOutcome schema size s defined object false rest
        return others.after [] [⟨name.span, (BindError.redefined name.text).message⟩]
      else
        let bound ← outcome schema size (some field.type) value
        let others ← argumentsOutcome schema (Added.sizes size bound.objects) s
          (number :: defined) (filled object number bound.result)
          (complete && bound.result.isSome) rest
        return others.after bound.objects bound.reported

/-- What binding items comes to, behind those that stand in `before` in reverse. -/
def itemsOutcome (schema : RegionSchema) (size : Nat → Nat) (type : FieldType)
    (before : Option (List Value)) : List Expr → Except Fault (Outcome (Option (List Value)))
  | [] => return ⟨before.map List.reverse, [], []⟩
  | item :: rest => do
    let bound ← outcome schema size (some type) item
    let others ← itemsOutcome schema (Added.sizes size bound.objects) type
      (do return (← bound.result) :: (← before)) rest
    return others.after bound.objects bound.reported

end

end Binding

/-! ### Stores -/

namespace Region

variable {schema : RegionSchema} {r : Region}

theorem holds_extend {target : Instance} (added : List Added) (h : r.Holds target) :
  (r.extend added).Holds target
  := by
  rw [Holds, size_extend_of_lt h.lt_length_pools, Added.sizes]
  apply Nat.lt_add_right _ h

theorem HasType.extend {value : Value} {type : FieldType} (h : r.HasType value type)
    (added : List Added) :
  (r.extend added).HasType value type
  := h.mono (schema_extend r added) fun _ => holds_extend added

theorem Sound.extend_zero (sound : r.Sound schema) (wf : schema.WellFormed) {id : Nat}
    {s : StructSchema} (hs : schema.structs[id]? = some s) :
  (r.extend [⟨id, s.zero⟩]).Sound schema
  := sound.allocateStruct wf (allocateStruct_eq_extend sound.regular (sound.schema_eq ▸ hs))

/-- Storing a value of its type keeps a region sound. -/
theorem Sound.setObject (sound : r.Sound schema) {target : Instance} {object : Object}
    (hobject : r.object target = .ok object) {s : StructSchema}
    (hs : schema.structs[target.struct]? = some s) {field : Nat} {slot : Field}
    (hslot : s.fields[field]? = some slot) {value : Value} (typed : r.HasType value slot.type) :
  (r.setObject target (object.set field value)).Sound schema
  := by
  obtain ⟨rfl, regular, wellTyped⟩ := sound
  obtain ⟨s', hs', values⟩ := wellTyped target object hobject
  obtain rfl := Option.some.inj (hs.symm.trans hs')
  refine ⟨rfl, regular.setObject ?_, wellTyped.setObject hs (forall₂_set values hslot typed)⟩
  rw [List.length_set]
  apply regular.object hobject

end Region

theorem Region.Sound.lt_length_pools {schema : RegionSchema} {r : Region} (sound : r.Sound schema)
    {id : Nat} (h : id < schema.structs.length) :
  id < r.pools.length
  := by
  rw [sound.regular.length_pools, sound.schema_eq]
  apply h

/-- Whether the operations of a store do to its view as a region what those of a region do.  Only
storing values of their types, without unset references, is compared. -/
structure Models {S : Type} [ObjectStore S] (view : S → Region) (schema : RegionSchema) : Prop where
  schema_eq : ∀ s, (view s).schema = schema → ObjectStore.schema s = schema
  allocate : ∀ {s : S} {id : Nat} {struct : StructSchema}, (view s).Sound schema →
    schema.structs[id]? = some struct →
    ∃ s', ObjectStore.allocate s struct.name = .ok (some ⟨id, (view s).size id⟩, s')
      ∧ view s' = (view s).extend [⟨id, struct.zero⟩]
  assign : ∀ {s : S} {target : Instance} {object : Object} {struct : StructSchema} {field : Nat}
    {slot : Field} {value : Value}, (view s).Sound schema → (view s).object target = .ok object →
    schema.structs[target.struct]? = some struct → struct.fields[field]? = some slot →
    (view s).HasType value slot.type → value.IsSet →
    ∃ s', ObjectStore.assign s target field value = .ok s'
      ∧ view s' = (view s).setObject target (object.set field value)

/-- A region does what it does. -/
theorem Region.models {schema : RegionSchema} (wf : schema.WellFormed) (distinct : schema.Distinct) :
  Models (fun r : Region => r) schema
  where
  schema_eq _ h := h
  allocate := by
    intro r id struct sound hs
    refine ⟨_, ?_, rfl⟩
    have index : r.schema.structIndex? struct.name = some id := by
      rw [sound.schema_eq]
      exact distinct.structIndex?_eq_some_iff.mpr ⟨struct, hs, rfl⟩
    have new := Region.allocateStruct_eq_extend sound.regular (sound.schema_eq.symm ▸ hs)
    exact Region.allocate_eq_ok.mpr (.inl ⟨id, _, index, rfl, new⟩)
  assign := by
    intro r target object struct field slot value sound hobject hs hslot typed _
    obtain ⟨rfl, regular, -⟩ := sound
    use r.setObject target (List.set object field value)
    constructor
    · apply (Region.assign_eq_ok_iff wf regular hobject hs hslot).mpr ⟨typed, rfl⟩
    · rfl

namespace Binding

variable {S : Type} {schema : RegionSchema} {view : S → Region}

/-- Whether a run of the binder did what an outcome says and led to a store that is seen as the
given region. -/
structure Ran (schema : RegionSchema) (view : S → Region) (before : State S) (o : Outcome α)
    (region : Region) (after : State S) : Prop where
  view_eq : view after.store = region
  sound : (view after.store).Sound schema
  known : ∀ a ∈ o.objects, a.struct < schema.structs.length
  reported_eq : after.reported = before.reported ++ o.reported.toArray

theorem run_report (span : Span) (error : BindError) (before : State S) :
  (report span error : BindM S (Option α)).run before
    = .ok (none, ⟨before.store, before.reported.push ⟨span, error.message⟩⟩)
  := rfl

theorem run_lift {x : Except Fault α} {y : α} (h : x = .ok y) (before : State S) :
  (liftM x : BindM S α).run before = .ok (y, before)
  := by
  rw [h]
  rfl

/-- An error alone is reported and changes nothing else. -/
theorem ran_failed {before : State S} {r : Region} (hview : view before.store = r)
    (sound : (view before.store).Sound schema) (span : Span) (error : BindError) :
  Ran schema view before (Outcome.failed span error : Outcome (Option α)) r
    ⟨before.store, before.reported.push ⟨span, error.message⟩⟩
  where
  view_eq := hview
  sound := sound
  known := List.forall_mem_nil _
  reported_eq := by
    rw [Outcome.failed]
    simp

/-- Nothing is done for a result that is there already. -/
theorem ran_pure {before : State S} {r : Region} (hview : view before.store = r)
    (sound : (view before.store).Sound schema) (x : α) :
  Ran schema view before ⟨x, [], []⟩ r before
  where
  view_eq := hview
  sound := sound
  known := List.forall_mem_nil _
  reported_eq := by simp

/-- Objects and errors that came before a run. -/
theorem Ran.after {before mid after : State S} {o : Outcome α} {region : Region}
    (ran : Ran schema view mid o region after) {objects : List Added} {reported : List Diagnostic}
    (known : ∀ a ∈ objects, a.struct < schema.structs.length)
    (hreported : mid.reported = before.reported ++ reported.toArray) :
  Ran schema view before (o.after objects reported) region after
  where
  view_eq := ran.view_eq
  sound := ran.sound
  known := List.forall_mem_append.mpr ⟨known, ran.known⟩
  reported_eq := by
    rw [ran.reported_eq, hreported, Outcome.after]
    simp

/-! ### Steps of the binder -/

/-- Whether a value without unset references is of a type in a region, and of the type that is
expected. -/
structure Fits (expected : Option FieldType) (r : Region) (value : Value) : Prop where
  set : value.IsSet
  typed : ∃ type, (∀ slot, expected = some slot → slot = type) ∧ r.HasType value type

/-- What is refused has no value. -/
theorem fits_failed (span : Span) (error : BindError) {expected : Option FieldType} {r : Region} :
  ∀ value, (Outcome.failed span error : Outcome (Option Value)).result = some value →
    Fits expected r value
  := by
  intro value h
  cases h

theorem Fits.hasType {type : FieldType} {r : Region} {value : Value}
    (fits : Fits (some type) r value) :
  r.HasType value type
  := by
  obtain ⟨found, same, typed⟩ := fits.typed
  obtain rfl := same type rfl
  apply typed

/-- A run adds to the sizes of the pools what its outcome adds. -/
theorem Ran.size_eq {before after : State S} {o : Outcome α}
    (ran : Ran schema view before o ((view before.store).extend o.objects) after)
    (sound : (view before.store).Sound schema) :
  (view after.store).size = Added.sizes (view before.store).size o.objects
  := by
  rw [ran.view_eq, Region.size_extend fun a ha => sound.lt_length_pools (ran.known a ha)]

section

variable [ObjectStore S] (models : Models view schema) {before : State S}
  (sound : (view before.store).Sound schema) {id : Nat} {s : StructSchema}
  (hs : schema.structs[id]? = some s)

include models sound hs

/-- Allocation adds a zero object. -/
theorem allocate_run (wf : schema.WellFormed) :
  ∃ store, (allocate s.name : BindM S Instance).run before
      = .ok (⟨id, (view before.store).size id⟩, ⟨store, before.reported⟩)
    ∧ view store = (view before.store).extend [⟨id, s.zero⟩]
    ∧ (view store).Sound schema
  := by
  obtain ⟨store, hallocate, hview⟩ := models.allocate sound hs
  use store
  constructor
  · exact Except.bind_eq_ok.mpr ⟨_, hallocate, rfl⟩
  constructor
  · apply hview
  rw [hview]
  apply sound.extend_zero wf hs

/-- A value that fits a field of the first object that was added replaces the one in it. -/
theorem assign_run {r : Region} (inside : id < r.pools.length) {object : Object}
    {objects : List Added} (hview : view before.store = r.extend (⟨id, object⟩ :: objects))
    {number : Nat} {field : Field} (hfield : s.fields[number]? = some field) {value : Value}
    (fits : Fits (some field.type) (view before.store) value) :
  ∃ store, (assign ⟨id, r.size id⟩ number value : BindM S Unit).run before
      = .ok ((), ⟨store, before.reported⟩)
    ∧ view store = r.extend (⟨id, object.set number value⟩ :: objects)
    ∧ (view store).Sound schema
    ∧ (view store).size = (view before.store).size
  := by
  have hobject : (view before.store).object ⟨id, r.size id⟩ = .ok object := by
    rw [hview]
    apply Region.object_extend_first inside
  obtain ⟨store, hassign, hstore⟩ := models.assign sound hobject hs hfield fits.hasType fits.set
  use store
  constructor
  · exact Except.bind_eq_ok.mpr ⟨_, hassign, rfl⟩
  constructor
  · rw [hstore, hview, Region.setObject_extend inside]
  constructor
  · rw [hstore]
    apply sound.setObject hobject hs hfield fits.hasType
  · rw [hstore]
    funext id
    apply Region.size_setObject

end

variable [ObjectStore S]

/-! ### Runs of the binder -/

/-- Whether an expression is bound from a state on as its outcome says, to a value that fits its
slot. -/
def Runs (view : S → Region) (schema : RegionSchema) (expected : Option FieldType) (e : Expr)
    (before : State S) : Prop :=
  ∃ o after, outcome schema (view before.store).size expected e = .ok o
    ∧ (bind schema expected e).run before = .ok (o.result, after)
    ∧ Ran schema view before o ((view before.store).extend o.objects) after
    ∧ ∀ value, o.result = some value → Fits expected (view after.store) value

/-- Whether arguments are bound as their outcome says, from a state on that is seen as `r` with the
object they fill and others behind it. -/
def ArgumentsRun (view : S → Region) (schema : RegionSchema) (s : StructSchema) (id : Nat)
    (r : Region) (defined : List Nat) (object : Object) (complete : Bool) (objects : List Added)
    (arguments : List (Token × Expr)) (before : State S) : Prop :=
  ∃ o after,
    argumentsOutcome schema (view before.store).size s defined object complete arguments = .ok o
    ∧ (bindArguments schema s ⟨id, r.size id⟩ defined complete arguments).run before
      = .ok (o.result.2, after)
    ∧ Ran schema view before o (r.extend (⟨id, o.result.1⟩ :: (objects ++ o.objects))) after

section

variable {expected : Option FieldType} {type : FieldType} {before : State S}
  (sound : (view before.store).Sound schema)

include sound

/-- An expression that is refused leaves an error behind and no value. -/
theorem runs_failed {e : Expr} {span : Span} {error : BindError}
    (hout : outcome schema (view before.store).size expected e = .ok (.failed span error))
    (hrun : (bind schema expected e).run before
      = .ok (none, ⟨before.store, before.reported.push ⟨span, error.message⟩⟩)) :
  Runs view schema expected e before
  := by
  rw [Runs]
  use .failed span error, ⟨before.store, before.reported.push ⟨span, error.message⟩⟩, hout, hrun
  constructor
  · apply ran_failed rfl sound
  · apply fits_failed

/-- An expression of no type is refused. -/
theorem runs_of_inferType_error {e : Expr} {error : BindError}
    (hinfer : inferType schema expected e = .ok (.error error)) :
  Runs view schema expected e before
  := by
  apply runs_failed sound
  · rw [outcome.eq_def]
    exact Except.bind_eq_ok.mpr ⟨_, hinfer, rfl⟩
  · rw [bind.eq_def]
    exact run_bind_eq_ok.mpr ⟨_, _, run_lift hinfer before, run_report ..⟩

/-- A string is bound to its text. -/
theorem runs_string {raw : Token} {text : String}
    (hinfer : inferType schema expected (.string raw text) = .ok (.ok type)) :
  Runs view schema expected (.string raw text) before
  := by
  obtain ⟨suits, slots⟩ := inferType_eq_ok_ok.mp hinfer
  obtain rfl : type = .string := suits
  rw [Runs, outcome.eq_def, bind.eq_def]
  use ⟨some (.string text), [], []⟩, before
  constructor
  · exact Except.bind_eq_ok.mpr ⟨_, hinfer, rfl⟩
  constructor
  · exact run_bind_eq_ok.mpr ⟨_, _, run_lift hinfer before, rfl⟩
  constructor
  · apply ran_pure rfl sound _
  · rintro _ ⟨⟩
    exact ⟨.string text, .string, slots, .string text⟩

/-- A keyword is bound to its truth value. -/
theorem runs_bool {span : Span} {b : Bool}
    (hinfer : inferType schema expected (.bool span b) = .ok (.ok type)) :
  Runs view schema expected (.bool span b) before
  := by
  obtain ⟨suits, slots⟩ := inferType_eq_ok_ok.mp hinfer
  obtain rfl : type = .bool := suits
  rw [Runs, outcome.eq_def, bind.eq_def]
  use ⟨some (.bool b), [], []⟩, before
  constructor
  · exact Except.bind_eq_ok.mpr ⟨_, hinfer, rfl⟩
  constructor
  · exact run_bind_eq_ok.mpr ⟨_, _, run_lift hinfer before, rfl⟩
  constructor
  · apply ran_pure rfl sound _
  · rintro _ ⟨⟩
    exact ⟨.bool b, .bool, slots, .bool b⟩

/-- A run of digits is bound to the number that it reads as, or refused as out of range. -/
theorem runs_integer (wf : schema.WellFormed) {raw : Token} {n : Nat}
    (hn : Text.digitsValue? raw.text = some n)
    (hinfer : inferType schema expected (.integer raw) = .ok (.ok type)) :
  Runs view schema expected (.integer raw) before
  := by
  obtain ⟨suits, slots⟩ := inferType_eq_ok_ok.mp hinfer
  obtain ⟨number, hnumber⟩ := exists_numberOf wf suits.1 hn
  have first := run_lift hinfer before
  have second := run_lift hnumber before
  cases number with
  | error error =>
    apply runs_failed sound
    · rw [outcome.eq_def]
      exact Except.bind_eq_ok.mpr ⟨_, hinfer, Except.bind_eq_ok.mpr ⟨_, hnumber, rfl⟩⟩
    · rw [bind.eq_def]
      exact run_bind_eq_ok.mpr ⟨_, _, first, run_bind_eq_ok.mpr ⟨_, _, second, run_report ..⟩⟩
  | ok value =>
    have numeral := (numberOf_eq_ok_ok hn suits.1).mp hnumber
    rw [Runs, outcome.eq_def, bind.eq_def]
    use ⟨some value, [], []⟩, before
    constructor
    · refine Except.bind_eq_ok.mpr ⟨_, hinfer, ?_⟩
      exact Except.bind_eq_ok.mpr ⟨_, hnumber, rfl⟩
    constructor
    · refine run_bind_eq_ok.mpr ⟨_, _, first, ?_⟩
      exact run_bind_eq_ok.mpr ⟨_, _, second, rfl⟩
    constructor
    · apply ran_pure rfl sound _
    · rintro _ ⟨⟩
      exact ⟨isSet_of_numeral? numeral, type, slots, hasType_of_numeral? numeral _⟩

/-- A struct literal of a struct is bound as its arguments are, to a reference to the zero object
that is made for them; one of any other type is refused. -/
theorem runs_struct (models : Models view schema) (wf : schema.WellFormed) {type? : Option Token}
    {brace : Span} {arguments : List (Token × Expr)}
    (hinfer : inferType schema expected (.struct type? brace arguments) = .ok (.ok type))
    (knows : schema.Knows type)
    (each : ∀ id s r mid, schema.structs[id]? = some s → id < r.pools.length →
      view mid.store = r.extend [⟨id, s.zero⟩] → (view mid.store).Sound schema →
      ArgumentsRun view schema s id r [] s.zero true [] arguments mid) :
  Runs view schema expected (.struct type? brace arguments) before
  := by
  obtain ⟨-, slots⟩ := inferType_eq_ok_ok.mp hinfer
  have first := run_lift hinfer before
  cases type with
  | struct id =>
    obtain ⟨s, hs, found⟩ := RegionSchema.Knows.struct knows
    have inside := sound.lt_length_pools knows
    obtain ⟨store, hallocate, hview, sound'⟩ := allocate_run models sound hs wf
    obtain ⟨o, after, hout, hrun, ran⟩ :=
      each id s _ ⟨store, before.reported⟩ hs inside hview sound'
    rw [hview, Region.size_extend (List.forall_mem_singleton.mpr inside)] at hout
    rw [List.nil_append] at ran
    rw [Runs, outcome.eq_def, bind.eq_def]
    use ⟨if o.result.2 then some (.ref ⟨id, (view before.store).size id⟩) else none,
      ⟨id, o.result.1⟩ :: o.objects, o.reported⟩, after
    constructor
    · refine Except.bind_eq_ok.mpr ⟨_, hinfer, ?_⟩
      exact Except.bind_eq_ok.mpr ⟨_, found, Except.bind_eq_ok.mpr ⟨_, hout, rfl⟩⟩
    constructor
    · refine run_bind_eq_ok.mpr ⟨_, _, first, ?_⟩
      exact run_bind_eq_ok.mpr ⟨_, _, run_lift found before,
        run_bind_eq_ok.mpr ⟨_, _, hallocate, run_bind_eq_ok.mpr ⟨_, _, hrun, rfl⟩⟩⟩
    constructor
    · exact ⟨ran.view_eq, ran.sound, List.forall_mem_cons.mpr ⟨knows, ran.known⟩, ran.reported_eq⟩
    · intro value hvalue
      obtain ⟨-, same⟩ := Option.ite_none_right_eq_some.mp hvalue
      obtain rfl := Option.some.inj same
      refine ⟨.ref _, .struct id, slots, ?_⟩
      rw [Region.hasType_ref_iff, ran.view_eq, Region.size_extend_of_lt inside, Added.sizes,
        Added.of_cons_self]
      constructor
      · rfl
      · apply Nat.lt_add_of_pos_right (Nat.succ_pos _)
  | _ =>
    obtain ⟨name, hname⟩ := wf.typeName knows
    apply runs_failed sound
    · rw [outcome.eq_def]
      exact Except.bind_eq_ok.mpr ⟨_, hinfer, Except.bind_eq_ok.mpr ⟨_, hname, rfl⟩⟩
    · rw [bind.eq_def]
      exact run_bind_eq_ok.mpr ⟨_, _, first,
        run_bind_eq_ok.mpr ⟨_, _, run_lift hname before, run_report ..⟩⟩

/-- A list literal of a list type is bound as its items are; one of any other type is refused. -/
theorem runs_list (wf : schema.WellFormed) {bracket : Span} {items : List Expr}
    (hinfer : inferType schema expected (.list bracket items) = .ok (.ok type))
    (knows : schema.Knows type)
    (each : ∀ {item}, schema.Knows item → ∃ o after,
      itemsOutcome schema (view before.store).size item (some []) items = .ok o
      ∧ (bindItems schema item (some []) items).run before = .ok (o.result, after)
      ∧ Ran schema view before o ((view before.store).extend o.objects) after
      ∧ ∀ values, o.result = some values →
        ∀ value ∈ values, Fits (some item) (view after.store) value) :
  Runs view schema expected (.list bracket items) before
  := by
  obtain ⟨-, slots⟩ := inferType_eq_ok_ok.mp hinfer
  have first := run_lift hinfer before
  cases type with
  | list id =>
    obtain ⟨item, hitem, found, knowsItem⟩ := wf.listItem knows
    obtain ⟨o, after, hout, hrun, ran, typed⟩ := each knowsItem
    rw [Runs, outcome.eq_def, bind.eq_def]
    use ⟨o.result.map .list, o.objects, o.reported⟩, after
    constructor
    · refine Except.bind_eq_ok.mpr ⟨_, hinfer, ?_⟩
      exact Except.bind_eq_ok.mpr ⟨_, found, Except.bind_eq_ok.mpr ⟨_, hout, rfl⟩⟩
    constructor
    · refine run_bind_eq_ok.mpr ⟨_, _, first, ?_⟩
      exact run_bind_eq_ok.mpr ⟨_, _, run_lift found before,
        run_bind_eq_ok.mpr ⟨_, _, hrun, rfl⟩⟩
    constructor
    · exact ⟨ran.view_eq, ran.sound, ran.known, ran.reported_eq⟩
    · intro value hvalue
      obtain ⟨values, hvalues, rfl⟩ := Option.map_eq_some_iff.mp hvalue
      have all := typed values hvalues
      refine ⟨.list fun v hv => (all v hv).set, .list id, slots, ?_⟩
      refine .list ?_ fun v hv => (all v hv).hasType
      rw [ran.view_eq, Region.schema_extend, sound.schema_eq]
      apply hitem
  | _ =>
    obtain ⟨name, hname⟩ := wf.typeName knows
    apply runs_failed sound
    · rw [outcome.eq_def]
      exact Except.bind_eq_ok.mpr ⟨_, hinfer, Except.bind_eq_ok.mpr ⟨_, hname, rfl⟩⟩
    · rw [bind.eq_def]
      exact run_bind_eq_ok.mpr ⟨_, _, first,
        run_bind_eq_ok.mpr ⟨_, _, run_lift hname before, run_report ..⟩⟩

end

section

variable {s : StructSchema} {id : Nat} {r : Region} {defined : List Nat} {object : Object}
  {complete : Bool} {objects : List Added} {name : Token} {value : Expr}
  {rest : List (Token × Expr)} {before : State S}

/-- An argument that is refused for its name is reported, and those behind it are bound. -/
theorem argumentsRun_of_refused (error : BindError)
    (hout : argumentsOutcome schema (view before.store).size s defined object complete
        ((name, value) :: rest)
      = (do
        let others ← argumentsOutcome schema (view before.store).size s defined object false rest
        return others.after [] [⟨name.span, error.message⟩]))
    (hrun : bindArguments schema s ⟨id, r.size id⟩ defined complete ((name, value) :: rest)
      = (do
        let _ : Option Unit ← (report name.span error : BindM S (Option Unit))
        bindArguments schema s ⟨id, r.size id⟩ defined false rest))
    (others : ArgumentsRun view schema s id r defined object false objects rest
      ⟨before.store, before.reported.push ⟨name.span, error.message⟩⟩) :
  ArgumentsRun view schema s id r defined object complete objects ((name, value) :: rest) before
  := by
  obtain ⟨o, after, ho, hafter, ran⟩ := others
  have reports := run_report name.span error before (α := Unit)
  rw [ArgumentsRun, hout, hrun]
  use o.after [] [⟨name.span, error.message⟩], after
  constructor
  · exact Except.bind_eq_ok.mpr ⟨o, ho, rfl⟩
  constructor
  · apply run_bind_eq_ok.mpr ⟨_, _, reports, hafter⟩
  · apply ran.after (List.forall_mem_nil _)
    simp

/-- A value that is bound is stored in the field of the object, and behind it the others are
bound. -/
theorem argumentsRun_of_bound (models : Models view schema) (hs : schema.structs[id]? = some s)
    (inside : id < r.pools.length)
    (hview : view before.store = r.extend (⟨id, object⟩ :: objects))
    (sound : (view before.store).Sound schema) {number : Nat} {field : Field}
    (hfield : s.field? name.text = some (number, field)) (fresh : defined.contains number = false)
    (bound : Runs view schema (some field.type) value before)
    (others : ∀ defined object complete objects mid,
      view mid.store = r.extend (⟨id, object⟩ :: objects) → (view mid.store).Sound schema →
      ArgumentsRun view schema s id r defined object complete objects rest mid) :
  ArgumentsRun view schema s id r defined object complete objects ((name, value) :: rest) before
  := by
  obtain ⟨bound, mid, hbound, hbind, ranBound, fits⟩ := bound
  obtain ⟨hslot, -⟩ := StructSchema.getElem?_of_field? hfield
  have hmid : view mid.store = r.extend (⟨id, object⟩ :: (objects ++ bound.objects)) := by
    rw [ranBound.view_eq, hview, ← Region.extend_append]
    rfl
  have sizes := ranBound.size_eq sound
  rw [ArgumentsRun, argumentsOutcome.eq_def, bindArguments.eq_def]
  simp only [hfield, fresh, Bool.false_eq_true, if_false]
  cases hresult : bound.result with
  | none =>
    obtain ⟨o, after, hout, hrun, ran⟩ := others (number :: defined) object false _ mid
      hmid ranBound.sound
    rw [sizes] at hout
    rw [hresult] at hbind
    use o.after bound.objects bound.reported, after
    constructor
    · refine Except.bind_eq_ok.mpr ⟨_, hbound, Except.bind_eq_ok.mpr ⟨o, ?_, rfl⟩⟩
      rw [hresult, Option.isSome_none, Bool.and_false]
      apply hout
    constructor
    · apply run_bind_eq_ok.mpr ⟨_, _, hbind, hrun⟩
    · rw [List.append_assoc] at ran
      apply ran.after ranBound.known ranBound.reported_eq
  | some stored =>
    obtain ⟨store, hassign, hstore, soundStore, sizesStore⟩ := assign_run models
      ranBound.sound hs inside hmid hslot (fits stored hresult)
    obtain ⟨o, after, hout, hrun, ran⟩ := others (number :: defined) _ complete _
      ⟨store, mid.reported⟩ hstore soundStore
    rw [sizesStore, sizes] at hout
    rw [hresult] at hbind
    use o.after bound.objects bound.reported, after
    constructor
    · refine Except.bind_eq_ok.mpr ⟨_, hbound, Except.bind_eq_ok.mpr ⟨o, ?_, rfl⟩⟩
      rw [hresult, Option.isSome_some, Bool.and_true]
      apply hout
    constructor
    · apply run_bind_eq_ok.mpr ⟨_, _, hbind, run_bind_eq_ok.mpr ⟨_, _, hassign, hrun⟩⟩
    · rw [List.append_assoc] at ran
      apply ran.after ranBound.known ranBound.reported_eq

end

mutual

/-- A store that does what its view as a region does is driven as the outcome says. -/
theorem bind_run (models : Models view schema) (wf : schema.WellFormed)
    (expected : Option FieldType) (known : ∀ t, expected = some t → schema.Knows t) (e : Expr)
    (he : e.WellFormed) (before : State S) (sound : (view before.store).Sound schema) :
  ∃ o after, outcome schema (view before.store).size expected e = .ok o
    ∧ (bind schema expected e).run before = .ok (o.result, after)
    ∧ Ran schema view before o ((view before.store).extend o.objects) after
    ∧ ∀ value, o.result = some value → Fits expected (view after.store) value
  := by
  obtain ⟨inferred, hinfer⟩ := exists_inferType wf known e
  cases inferred with
  | error error => apply runs_of_inferType_error sound hinfer
  | ok type =>
    have knows := knows_of_inferType known hinfer
    cases e with
    | string raw text => apply runs_string sound hinfer
    | bool span b => apply runs_bool sound hinfer
    | integer raw =>
      obtain ⟨n, hn⟩ : ∃ n, Text.digitsValue? raw.text = some n := by
        cases he with
        | integer nonempty digits => apply exists_digitsValue nonempty digits
      apply runs_integer sound wf hn hinfer
    | struct type? brace arguments =>
      have values : ∀ argument ∈ arguments, argument.2.WellFormed := by
        cases he with
        | struct _ _ values => apply values
      apply runs_struct sound models wf hinfer knows
      intro id s r mid hs inside hview sound'
      apply bindArguments_run models wf hs arguments values [] s.zero true [] inside mid hview
        sound'
    | list bracket items =>
      have all : ∀ item ∈ items, item.WellFormed := by
        cases he with
        | list all => apply all
      apply runs_list sound wf hinfer knows
      intro item knowsItem
      apply bindItems_run models wf knowsItem items all (some []) before _ sound
      intro values same
      obtain rfl := Option.some.inj same
      apply List.forall_mem_nil

/-- The arguments of a struct literal are bound as their outcome says. -/
theorem bindArguments_run (models : Models view schema) (wf : schema.WellFormed) {id : Nat}
    {s : StructSchema} (hs : schema.structs[id]? = some s) (arguments : List (Token × Expr))
    (harguments : ∀ argument ∈ arguments, argument.2.WellFormed) (defined : List Nat)
    (object : Object) (complete : Bool) {r : Region} (objects : List Added)
    (inside : id < r.pools.length) (before : State S)
    (hview : view before.store = r.extend (⟨id, object⟩ :: objects))
    (sound : (view before.store).Sound schema) :
  ArgumentsRun view schema s id r defined object complete objects arguments before
  := by
  cases arguments with
  | nil =>
    rw [ArgumentsRun, argumentsOutcome.eq_def, bindArguments.eq_def]
    use ⟨(object, complete), [], []⟩, before, rfl, rfl
    rw [List.append_nil]
    apply ran_pure hview sound
  | cons argument rest =>
    obtain ⟨name, value⟩ := argument
    obtain ⟨hvalue, hrest⟩ := List.forall_mem_cons.mp harguments
    have others := bindArguments_run models wf hs rest hrest (r := r)
    cases hfield : s.field? name.text with
    | none =>
      apply argumentsRun_of_refused (.noField s.name name.text)
      · rw [argumentsOutcome.eq_def]
        simp only [hfield]
      · rw [bindArguments.eq_def]
        simp only [hfield]
      · exact others defined object false objects inside ⟨before.store, before.reported.push _⟩
          hview sound
    | some slot =>
      obtain ⟨number, field⟩ := slot
      cases again : defined.contains number with
      | true =>
        apply argumentsRun_of_refused (.redefined name.text)
        · rw [argumentsOutcome.eq_def]
          simp only [hfield, again, if_true]
        · rw [bindArguments.eq_def]
          simp only [hfield, again, if_true]
        · exact others defined object false objects inside ⟨before.store, before.reported.push _⟩
            hview sound
      | false =>
        have bound := bind_run models wf _ (wf.knows_field hs hfield).slot value hvalue before sound
        apply argumentsRun_of_bound models hs inside hview sound hfield again bound
        intro defined object complete objects mid hmid soundMid
        apply others defined object complete objects inside mid hmid soundMid

/-- The items of a list literal are bound as their outcome says, each to a value of the type of the
items. -/
theorem bindItems_run (models : Models view schema) (wf : schema.WellFormed) {type : FieldType}
    (knows : schema.Knows type) (items : List Expr) (hitems : ∀ item ∈ items, item.WellFormed)
    (found : Option (List Value)) (before : State S)
    (hfound : ∀ values, found = some values →
      ∀ value ∈ values, Fits (some type) (view before.store) value)
    (sound : (view before.store).Sound schema) :
  ∃ o after, itemsOutcome schema (view before.store).size type found items = .ok o
    ∧ (bindItems schema type found items).run before = .ok (o.result, after)
    ∧ Ran schema view before o ((view before.store).extend o.objects) after
    ∧ ∀ values, o.result = some values →
      ∀ value ∈ values, Fits (some type) (view after.store) value
  := by
  cases items with
  | nil =>
    rw [itemsOutcome.eq_def, bindItems.eq_def]
    use ⟨found.map List.reverse, [], []⟩, before, rfl, rfl, ran_pure rfl sound _
    intro values hvalues value hvalue
    obtain ⟨reversed, hreversed, rfl⟩ := Option.map_eq_some_iff.mp hvalues
    apply hfound reversed hreversed value (List.mem_reverse.mp hvalue)
  | cons item rest =>
    obtain ⟨hitem, hrest⟩ := List.forall_mem_cons.mp hitems
    obtain ⟨bound, mid, hbound, hbind, ranBound, fits⟩ := bind_run models wf _
      knows.slot item hitem before sound
    have sizes := ranBound.size_eq sound
    have hgathered : ∀ values, (do return (← bound.result) :: (← found)) = some values →
        ∀ value ∈ values, Fits (some type) (view mid.store) value := by
      intro values hvalues
      obtain ⟨value, hvalue, hvalues⟩ := Option.bind_eq_some_iff.mp hvalues
      obtain ⟨others, hothers, same⟩ := Option.bind_eq_some_iff.mp hvalues
      obtain rfl := Option.some.inj same
      refine List.forall_mem_cons.mpr ⟨fits value hvalue, fun other hother => ?_⟩
      obtain ⟨set, t, same, typed⟩ := hfound others hothers other hother
      refine ⟨set, t, same, ?_⟩
      rw [ranBound.view_eq]
      apply typed.extend
    obtain ⟨o, after, hout, hrun, ran, all⟩ := bindItems_run models wf knows rest hrest _
      mid hgathered ranBound.sound
    rw [sizes] at hout
    rw [ranBound.view_eq, ← Region.extend_append] at ran
    rw [itemsOutcome.eq_def, bindItems.eq_def]
    use o.after bound.objects bound.reported, after,
      Except.bind_eq_ok.mpr ⟨_, hbound, Except.bind_eq_ok.mpr ⟨o, hout, rfl⟩⟩,
      run_bind_eq_ok.mpr ⟨_, _, hbind, hrun⟩, ran.after ranBound.known ranBound.reported_eq, all

end

end Binding

end PoolGraph
