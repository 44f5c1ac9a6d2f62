import PoolGraph.Proofs.Binding.Cases
import PoolGraph.Proofs.Binding.Literals

/-!
# Binding accepts the typed trees

A tree is bound without an error exactly when it is of its type (`Expr.OfType`).  Then its objects
are those of its literals, in order, and a field of one of them has a value from an argument or the
zero value that it was allocated with (`bound_of_ofType`); what is bound without an error is of its
type (`ofType_of_outcome`).
-/

namespace PoolGraph

/-- Whether strings and lists of a tree are short enough to be written. -/
inductive Expr.Countable : Expr → Prop where
  | integer (raw : Token) : Countable (.integer raw)
  | string {raw : Token} {value : String} (short : value.utf8ByteSize ≤ maxCount) :
      Countable (.string raw value)
  | bool (span : Span) (value : Bool) : Countable (.bool span value)
  | struct {type? : Option Token} {brace : Span} {arguments : List (Token × Expr)}
      (all : ∀ argument ∈ arguments, Countable argument.2) :
      Countable (.struct type? brace arguments)
  | list {bracket : Span} {items : List Expr} (short : items.length ≤ maxCount)
      (all : ∀ item ∈ items, Countable item) : Countable (.list bracket items)

namespace Binding

variable {schema : RegionSchema} {expected : Option FieldType} {e : Expr} {type : FieldType}

/-! ### The type of a tree -/

theorem suits_none_iff : Suits schema none type e ↔ e.ownType? schema = some type
  := by
  cases e with
  | string raw value => exact ⟨fun h => congrArg some h.symm, fun h => (Option.some.inj h).symm⟩
  | bool span value => exact ⟨fun h => congrArg some h.symm, fun h => (Option.some.inj h).symm⟩
  | integer raw =>
    constructor
    · intro suits
      apply congrArg some (suits.2 rfl).symm
    · intro h
      obtain rfl := Option.some.inj h
      exact ⟨trivial, fun _ => rfl⟩
  | struct type? brace arguments =>
    cases type? with
    | none => constructor <;> rintro ⟨⟩
    | some name =>
      rw [Suits, Expr.ownType?, Option.map_eq_some_iff]
      apply exists_congr
      intro id
      rw [eq_comm (a := type)]
  | list bracket items => constructor <;> rintro ⟨⟩

/-- In a slot of its type, or alone when it names its type itself, a tree has the type. -/
theorem checks_of_ofType (distinct : schema.Distinct) (typed : e.OfType schema type)
    (fits : expected = some type ∨ expected = none ∧ e.ownType? schema = some type) :
  Checks schema expected e type
  := by
  rcases fits with rfl | ⟨rfl, own⟩
  · refine ⟨?_, fun slot same => (Option.some.inj same).symm⟩
    cases typed with
    | string raw value => rfl
    | bool span value => rfl
    | integer decimal range =>
      obtain ⟨value, -, numeral⟩ := numeral?_of_decimal decimal range
      exact ⟨isNumeric_of_numeral? numeral, nofun⟩
    | @struct type? brace arguments id s found named =>
      cases type? with
      | none => rfl
      | some name =>
        exact ⟨id, distinct.structIndex?_eq_some_iff.mpr ⟨s, found, (named name rfl).symm⟩, rfl⟩
    | list found all => rfl
  · exact ⟨suits_none_iff.mpr own, nofun⟩

theorem writable_of_numeral? {n : Nat} {value : Value} (h : numeral? type n = some value) :
  value.Writable
  := by
  rcases eq_of_numeral? h with ⟨_, -, -, rfl⟩ | ⟨_, -, -, rfl⟩ | ⟨_, -, rfl⟩
  · apply Value.Writable.int
  · apply Value.Writable.uint
  · apply Value.Writable.float

/-! ### Typed trees -/

/-- Whether an object is that of a literal: what has an argument can be written, and the rest is as
it was allocated. -/
structure Built (schema : RegionSchema) (a : Added) (l : Literal) : Prop where
  struct_eq : a.struct = l.struct
  values : ∃ s, schema.structs[l.struct]? = some s ∧
    List.Forall₂ (fun (field : Field) value =>
      (l.Gives field → value.Writable) ∧ (¬ l.Gives field → value = .zero field.type))
      s.fields a.object

/-- Whether a tree in a slot of a type is bound without an error, wherever it is: its value can be
written, and its objects are those of its literals. -/
def Bound (schema : RegionSchema) (expected : Option FieldType) (type : FieldType) (e : Expr) :
    Prop :=
  ∀ size, ∃ value objects, outcome schema size expected e = .ok ⟨some value, objects, []⟩
    ∧ value.Writable ∧ List.Forall₂ (Built schema) objects (literals schema type e)

/-- Whether an argument is for the field at a position. -/
def Names (s : StructSchema) (arguments : List (Token × Expr)) (i : Nat) : Prop :=
  ∃ argument ∈ arguments, ∃ field, s.field? argument.1.text = some (i, field)

/-- Whether an object came from another one by storing values of arguments. -/
structure Supplied (s : StructSchema) (arguments : List (Token × Expr)) (before after : Object) :
    Prop where
  length_eq : after.length = before.length
  named : ∀ {i value}, after[i]? = some value → Names s arguments i → value.Writable
  others : ∀ {i value}, after[i]? = some value → ¬ Names s arguments i → before[i]? = some value

section

variable {s : StructSchema} {item : FieldType}

theorem argumentsOutcome_of_bound (arguments : List (Token × Expr)) (defined : List Nat)
    (object : Object) (distinct : (arguments.map fun argument => argument.1.text).Nodup)
    (each : ∀ argument ∈ arguments, ∃ number field,
      s.field? argument.1.text = some (number, field) ∧ number ∉ defined
        ∧ Bound schema (some field.type) field.type argument.2)
    (size : Nat → Nat) :
  ∃ object' objects,
    argumentsOutcome schema size s defined object true arguments
      = .ok ⟨(object', true), objects, []⟩
    ∧ List.Forall₂ (Built schema) objects (argumentLiterals schema s arguments)
    ∧ Supplied s arguments object object'
  := by
  induction arguments generalizing defined object size with
  | nil =>
    refine ⟨object, [], by rw [argumentsOutcome]; rfl, .nil, rfl, ?_, fun h _ => h⟩
    rintro i value - ⟨_, ⟨⟩, -⟩
  | cons argument rest ih =>
    obtain ⟨⟨number, field, hfield, new, bound⟩, others⟩ := List.forall_mem_cons.mp each
    obtain ⟨fresh, distinct⟩ := List.nodup_cons.mp distinct
    obtain ⟨value, objects, hvalue, writable, built⟩ := bound size
    have apart : ∀ other ∈ rest, ∃ number' field',
        s.field? other.1.text = some (number', field') ∧ number' ∉ number :: defined
          ∧ Bound schema (some field'.type) field'.type other.2 := by
      intro other hother
      obtain ⟨number', field', hfield', new', bound'⟩ := others other hother
      use number', field', hfield'
      constructor
      · refine List.mem_cons.not.mpr (not_or.mpr ⟨?_, new'⟩)
        rintro rfl
        exact fresh (List.mem_map.mpr ⟨other, hother, StructSchema.eq_of_field? hfield' hfield⟩)
      · apply bound'
    obtain ⟨object', more, hrest, builtRest, supplied⟩ := ih (number :: defined)
      (object.set number value) distinct apart (Added.sizes size objects)
    refine ⟨object', objects ++ more, ?_, ?_, ?_, ?_, ?_⟩
    · have absent : ¬ defined.contains number = true := by simpa using new
      rw [argumentsOutcome.eq_def]
      dsimp only
      rw [hfield]
      dsimp only
      rw [if_neg absent]
      exact Except.bind_eq_ok.mpr ⟨_, hvalue, Except.bind_eq_ok.mpr ⟨_, hrest, rfl⟩⟩
    · rw [argumentLiterals, hfield]
      apply List.rel_append built builtRest
    · rw [supplied.length_eq, List.length_set]
    · rintro i v hv ⟨named, hnamed, slot, hslot⟩
      by_cases later : Names s rest i
      · apply supplied.named hv later
      rcases List.mem_cons.mp hnamed with rfl | hrest
      · obtain ⟨rfl, -⟩ := Prod.mk.inj (Option.some.inj (hfield.symm.trans hslot))
        have stored := supplied.others hv later
        rw [List.getElem?_set, if_pos rfl] at stored
        obtain ⟨-, same⟩ := Option.ite_none_right_eq_some.mp stored
        obtain rfl := Option.some.inj same
        apply writable
      · exact absurd ⟨named, hrest, slot, hslot⟩ later
    · intro i v hv unnamed
      have elsewhere : number ≠ i := by
        rintro rfl
        exact unnamed ⟨argument, .head _, field, hfield⟩
      have later : ¬ Names s rest i := by
        rintro ⟨named, hnamed, slot, hslot⟩
        exact unnamed ⟨named, .tail _ hnamed, slot, hslot⟩
      have before := supplied.others hv later
      rw [List.getElem?_set_ne elsewhere] at before
      apply before

theorem itemsOutcome_of_bound (items : List Expr) (before : List Value)
    (each : ∀ e ∈ items, Bound schema (some item) item e) (size : Nat → Nat) :
  ∃ values objects,
    itemsOutcome schema size item (some before) items
      = .ok ⟨some (before.reverse ++ values), objects, []⟩
    ∧ (∀ value ∈ values, value.Writable) ∧ values.length = items.length
    ∧ List.Forall₂ (Built schema) objects (itemLiterals schema item items)
  := by
  induction items generalizing before size with
  | nil =>
    use [], []
    constructor
    · rw [itemsOutcome, List.append_nil]
      rfl
    use List.forall_mem_nil _, rfl, .nil
  | cons e rest ih =>
    obtain ⟨bound, others⟩ := List.forall_mem_cons.mp each
    obtain ⟨value, objects, hvalue, writable, built⟩ := bound size
    obtain ⟨values, more, hrest, all, same, builtRest⟩ := ih (value :: before) others
      (Added.sizes size objects)
    use value :: values, objects ++ more
    constructor
    · rw [List.reverse_cons, List.append_assoc, List.singleton_append] at hrest
      rw [itemsOutcome.eq_def]
      exact Except.bind_eq_ok.mpr ⟨_, hvalue, Except.bind_eq_ok.mpr ⟨_, hrest, rfl⟩⟩
    constructor
    · apply List.forall_mem_cons.mpr ⟨writable, all⟩
    constructor
    · apply congrArg Nat.succ same
    · apply List.rel_append built builtRest

end

/-- The object of a literal whose arguments were stored in a zero object. -/
theorem built_of_supplied (distinct : schema.Distinct) {id : Nat} {s : StructSchema}
    (hs : schema.structs[id]? = some s) {arguments : List (Token × Expr)} {object : Object}
    (supplied : Supplied s arguments s.zero object) :
  Built schema ⟨id, object⟩ ⟨id, arguments⟩
  := by
  refine ⟨rfl, s, hs, List.forall₂_iff_get.mpr ⟨?_, ?_⟩⟩
  · rw [supplied.length_eq, StructSchema.zero, List.length_map]
  intro i inside inside'
  have hfield : s.fields[i]? = some (s.fields.get ⟨i, inside⟩) := List.getElem?_eq_getElem inside
  have hvalue : object[i]? = some (object.get ⟨i, inside'⟩) := List.getElem?_eq_getElem inside'
  have gives : Literal.Gives ⟨id, arguments⟩ (s.fields.get ⟨i, inside⟩) ↔ Names s arguments i := by
    constructor
    · rintro ⟨argument, hargument, named⟩
      exact ⟨argument, hargument, _,
        (distinct.field?_eq_some_iff hs).mpr ⟨hfield, named.symm⟩⟩
    · rintro ⟨argument, hargument, field, hslot⟩
      obtain ⟨found, named⟩ := StructSchema.getElem?_of_field? hslot
      obtain rfl := Option.some.inj (hfield.symm.trans found)
      exact ⟨argument, hargument, named.symm⟩
  rw [gives]
  constructor
  · apply supplied.named hvalue
  intro unnamed
  have before := supplied.others hvalue unnamed
  rw [StructSchema.zero, List.getElem?_map, hfield] at before
  apply (Option.some.inj before).symm

/-- A typed tree is bound without an error. -/
theorem bound_of_ofType (distinct : schema.Distinct) (typed : e.OfType schema type)
    (countable : e.Countable)
    (fits : expected = some type ∨ expected = none ∧ e.ownType? schema = some type) :
  Bound schema expected type e
  := by
  induction typed generalizing expected with
  | string raw value =>
    intro size
    have inferred := (checks_of_ofType distinct (.string raw value) fits).inferType
    cases countable with
    | string short =>
      use .string value, []
      constructor
      · rw [outcome.eq_def]
        exact Except.bind_eq_ok.mpr ⟨_, inferred, rfl⟩
      use .string short, .nil
  | bool span value =>
    intro size
    have inferred := (checks_of_ofType distinct (.bool span value) fits).inferType
    use .bool value, []
    constructor
    · rw [outcome.eq_def]
      exact Except.bind_eq_ok.mpr ⟨_, inferred, rfl⟩
    use .bool value, .nil
  | @integer raw n type decimal range =>
    intro size
    obtain ⟨value, digits, numeral⟩ := numeral?_of_decimal decimal range
    have inferred := (checks_of_ofType distinct (.integer decimal range) fits).inferType
    have number : numberOf schema type raw.text = .ok (.ok value) :=
      (numberOf_eq_ok_ok digits (isNumeric_of_numeral? numeral)).mpr numeral
    use value, []
    constructor
    · rw [outcome.eq_def]
      exact Except.bind_eq_ok.mpr ⟨_, inferred, Except.bind_eq_ok.mpr ⟨_, number, rfl⟩⟩
    constructor
    · apply writable_of_numeral? numeral
    · rw [literals_integer]
      exact .nil
  | @struct type? brace arguments id s found named names known values ih =>
    intro size
    have inferred :=
      (checks_of_ofType distinct (.struct found named names known values) fits).inferType
    have each : ∀ argument ∈ arguments, ∃ number field,
        s.field? argument.1.text = some (number, field) ∧ number ∉ []
          ∧ Bound schema (some field.type) field.type argument.2 := by
      intro argument hargument
      obtain ⟨field, hfield, same⟩ := List.mem_map.mp (known argument hargument)
      obtain ⟨number, hnumber⟩ := List.mem_iff_getElem?.mp hfield
      use number, field, (distinct.field?_eq_some_iff found).mpr ⟨hnumber, same⟩, List.not_mem_nil
      cases countable with
      | struct all => exact ih argument hargument field hfield same (all argument hargument) (.inl rfl)
    obtain ⟨object, objects, hrun, built, supplied⟩ := argumentsOutcome_of_bound arguments []
      s.zero names each (Added.sizes size [⟨id, s.zero⟩])
    use .ref ⟨id, size id⟩, ⟨id, object⟩ :: objects
    constructor
    · rw [outcome.eq_def]
      exact Except.bind_eq_ok.mpr ⟨_, inferred, Except.bind_eq_ok.mpr
        ⟨s, RegionSchema.struct_eq_ok.mpr found, Except.bind_eq_ok.mpr ⟨_, hrun, rfl⟩⟩⟩
    constructor
    · exact .ref _
    · rw [literals_struct found]
      exact .cons (built_of_supplied distinct found supplied) built
  | @list bracket items id item found all ih =>
    intro size
    have inferred := (checks_of_ofType distinct (.list found all) fits).inferType
    cases countable with
    | list short each =>
      obtain ⟨values, objects, hrun, writable, same, built⟩ := itemsOutcome_of_bound items []
        (fun e he => ih e he (each e he) (.inl rfl)) size
      use .list values, objects
      constructor
      · rw [outcome.eq_def]
        exact Except.bind_eq_ok.mpr ⟨_, inferred, Except.bind_eq_ok.mpr
          ⟨item, RegionSchema.listItem_eq_ok.mpr found, Except.bind_eq_ok.mpr ⟨_, hrun, rfl⟩⟩⟩
      constructor
      · exact .list (same ▸ short) writable
      · rw [literals_list found]
        apply built

/-! ### What is bound -/

/-- Whether binding a tree in a slot of a type comes to a value somewhere. -/
def Binds (schema : RegionSchema) (type : FieldType) (e : Expr) : Prop :=
  ∃ size o, outcome schema size (some type) e = .ok o ∧ o.result.isSome = true

theorem binds_of_argumentsOutcome {s : StructSchema} {arguments : List (Token × Expr)}
    {size : Nat → Nat} {defined : List Nat} {object : Object} {complete : Bool}
    {o : Outcome (Object × Bool)}
    (h : argumentsOutcome schema size s defined object complete arguments = .ok o)
    (whole : o.result.2 = true) :
  complete = true ∧ (arguments.map fun argument => argument.1.text).Nodup
    ∧ ∀ argument ∈ arguments, ∃ number field, s.field? argument.1.text = some (number, field)
      ∧ number ∉ defined ∧ Binds schema field.type argument.2
  := by
  induction arguments generalizing size defined object complete o with
  | nil =>
    cases argumentsCome h
    constructor
    · apply whole
    use List.nodup_nil, List.forall_mem_nil _
  | cons argument rest ih =>
    cases argumentsCome h with
    | unknown _ hothers => cases (ih hothers whole).1
    | repeated _ _ hothers => cases (ih hothers whole).1
    | @bound name value _ number field bound others hfield new hbound hothers =>
      obtain ⟨both, distinct, each⟩ := ih hothers whole
      obtain ⟨whole, some⟩ := (Bool.and_eq_true _ _).mp both
      constructor
      · apply whole
      constructor
      · refine List.nodup_cons.mpr ⟨?_, distinct⟩
        intro again
        obtain ⟨other, hother, same⟩ := List.mem_map.mp again
        obtain ⟨number', field', hfield', apart, -⟩ := each other hother
        rw [same, hfield] at hfield'
        obtain ⟨rfl, -⟩ := Prod.mk.inj (Option.some.inj hfield')
        apply apart (.head _)
      rw [List.forall_mem_cons]
      constructor
      · use number, field, hfield, new, size, bound, hbound, some
      · intro other hother
        obtain ⟨number', field', hfield', apart, binds⟩ := each other hother
        use number', field', hfield'
        constructor
        · intro before
          apply apart (.tail _ before)
        · apply binds

theorem binds_of_itemsOutcome {item : FieldType} {items : List Expr} {size : Nat → Nat}
    {before : Option (List Value)} {o : Outcome (Option (List Value))}
    (h : itemsOutcome schema size item before items = .ok o) (whole : o.result.isSome = true) :
  before.isSome = true ∧ ∀ e ∈ items, Binds schema item e
  := by
  induction items generalizing size before o with
  | nil =>
    rw [itemsOutcome] at h
    obtain rfl := Except.ok.inj h
    rw [Option.isSome_map] at whole
    constructor
    · apply whole
    · exact List.forall_mem_nil _
  | cons e rest ih =>
    obtain ⟨bound, others, hbound, hothers, rfl⟩ := exists_of_itemsOutcome_cons h
    obtain ⟨gathered, each⟩ := ih hothers whole
    obtain ⟨values, hvalues⟩ := Option.isSome_iff_exists.mp gathered
    obtain ⟨value, hvalue, hvalues⟩ := Option.bind_eq_some_iff.mp hvalues
    obtain ⟨others, hothers, -⟩ := Option.bind_eq_some_iff.mp hvalues
    constructor
    · apply Option.isSome_iff_exists.mpr ⟨others, hothers⟩
    refine List.forall_mem_cons.mpr ⟨?_, each⟩
    exact ⟨size, bound, hbound, Option.isSome_iff_exists.mpr ⟨value, hvalue⟩⟩

/-- What is bound without an error is of its type. -/
theorem ofType_of_outcome (distinct : schema.Distinct) (he : e.WellFormed) {size : Nat → Nat}
    {o : Outcome (Option Value)} (h : outcome schema size expected e = .ok o)
    (some : o.result.isSome = true) :
  ∃ type, inferType schema expected e = .ok (.ok type) ∧ e.OfType schema type
  := by
  have nested : ∀ {e type}, (∀ {expected size o}, outcome schema size expected e = .ok o →
      o.result.isSome = true →
      ∃ type, inferType schema expected e = .ok (.ok type) ∧ e.OfType schema type) →
      Binds schema type e → e.OfType schema type := by
    rintro e type ih ⟨size, o, h, some⟩
    obtain ⟨found, hinfer, typed⟩ := ih h some
    obtain rfl := (inferType_eq_ok_ok.mp hinfer).2 type rfl
    apply typed
  induction he generalizing expected size o with
  | @integer raw nonempty digits =>
    cases comes h with
    | untyped | outside => cases some
    | @number raw type value checks inside =>
      obtain ⟨n, hn⟩ := exists_digitsValue nonempty digits
      have numeral := (numberOf_eq_ok_ok hn checks.1.1).mp inside
      use type, checks.inferType
      apply Expr.OfType.integer (Text.digitsValue?_eq_some_iff.mp hn)
      apply exists_numeral?_iff_covers.mp ⟨_, numeral⟩
  | string raw value =>
    cases comes h with
    | untyped => cases some
    | string checks =>
      use .string, checks.inferType, .string raw value
  | bool span value =>
    cases comes h with
    | untyped => cases some
    | bool checks =>
      use .bool, checks.inferType, .bool span value
  | @struct type? brace arguments _ _ _ ih =>
    cases comes h with
    | untyped | notStruct => cases some
    | @struct _ _ _ id s object complete objects reported checks found all =>
      have whole : complete = true := by
        by_contra no
        dsimp only at some
        rw [if_neg no] at some
        cases some
      obtain ⟨-, names, each⟩ := binds_of_argumentsOutcome all whole
      use .struct id, checks.inferType
      refine .struct found ?_ names ?_ ?_
      · rintro name rfl
        obtain ⟨id', hid, same⟩ := checks.1
        obtain rfl := FieldType.struct.inj same
        obtain ⟨s', hs', named⟩ := distinct.structIndex?_eq_some_iff.mp hid
        obtain rfl := Option.some.inj (found.symm.trans hs')
        apply named.symm
      · intro argument hargument
        obtain ⟨number, field, hslot, -⟩ := each argument hargument
        obtain ⟨hfield, named⟩ := StructSchema.getElem?_of_field? hslot
        exact List.mem_map.mpr ⟨field, List.mem_of_getElem? hfield, named⟩
      · intro argument hargument field hfield named
        obtain ⟨number, found', hslot, -, binds⟩ := each argument hargument
        obtain ⟨number', hnumber'⟩ := List.mem_iff_getElem?.mp hfield
        have same := (distinct.field?_eq_some_iff found).mpr ⟨hnumber', named⟩
        obtain ⟨-, rfl⟩ := Prod.mk.inj (Option.some.inj (hslot.symm.trans same))
        apply nested (ih argument hargument) binds
  | @list bracket items _ ih =>
    cases comes h with
    | untyped | notList => cases some
    | @list _ _ id item values objects reported checks found all =>
      rw [Option.isSome_map] at some
      obtain ⟨-, each⟩ := binds_of_itemsOutcome all some
      use .list id, checks.inferType
      exact .list found fun e he => nested (ih e he) (each e he)

end Binding

end PoolGraph
