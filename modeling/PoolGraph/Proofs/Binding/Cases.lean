import PoolGraph.Proofs.Binding.Outcome
import PoolGraph.Proofs.Expr.Places

/-!
# How outcomes come about

What binding an expression can come to, one case for each way through the binder (`Binding.comes`),
and the same for the arguments of a struct literal (`Binding.argumentsCome`) and the items of a list
(`Binding.exists_of_itemsOutcome_cons`).  What holds of all outcomes is proved along these cases,
such as that every error points at a token of its own (`Binding.sublist_spans`).
-/

namespace PoolGraph

namespace Binding

variable {schema : RegionSchema} {size : Nat → Nat} {expected : Option FieldType} {e : Expr}
  {type : FieldType}

/-- Whether an expression passes the check of its own type in a slot, before anything inside it is
looked at: its kind and its name are of the type, and so is the slot. -/
def Checks (schema : RegionSchema) (expected : Option FieldType) (e : Expr) (type : FieldType) :
    Prop :=
  Suits schema expected type e ∧ ∀ slot, expected = some slot → slot = type

/-- An expression that checks has its type inferred. -/
theorem Checks.inferType (h : Checks schema expected e type) :
  inferType schema expected e = .ok (.ok type)
  := inferType_eq_ok_ok.mpr h

/-- An expression is of one type in a slot. -/
theorem Checks.unique {type' : FieldType} (h : Checks schema expected e type)
    (h' : Checks schema expected e type') :
  type = type'
  := Except.ok.inj (Except.ok.inj (h.inferType.symm.trans h'.inferType))

/-- An expression that is refused has no type. -/
theorem not_checks_of_inferType {error : BindError}
    (h : inferType schema expected e = .ok (.error error)) (type : FieldType) :
  ¬ Checks schema expected e type
  := by
  intro checks
  cases Except.ok.inj (checks.inferType.symm.trans h)

/-- The ways in which the outcome of an expression comes about. -/
inductive Comes (schema : RegionSchema) (size : Nat → Nat) (expected : Option FieldType) :
    Expr → Outcome (Option Value) → Prop where
  | untyped {e : Expr} (wrong : ∀ type, ¬ Checks schema expected e type) (error : BindError) :
      Comes schema size expected e (.failed e.errorSpan error)
  | string {raw : Token} {value : String}
      (checks : Checks schema expected (.string raw value) .string) :
      Comes schema size expected (.string raw value) ⟨some (.string value), [], []⟩
  | bool {span : Span} {value : Bool} (checks : Checks schema expected (.bool span value) .bool) :
      Comes schema size expected (.bool span value) ⟨some (.bool value), [], []⟩
  | number {raw : Token} {type : FieldType} {value : Value}
      (checks : Checks schema expected (.integer raw) type)
      (inside : numberOf schema type raw.text = .ok (.ok value)) :
      Comes schema size expected (.integer raw) ⟨some value, [], []⟩
  | outside {raw : Token} {type : FieldType} {error : BindError}
      (checks : Checks schema expected (.integer raw) type)
      (outside : numberOf schema type raw.text = .ok (.error error)) :
      Comes schema size expected (.integer raw) (.failed raw.span error)
  | struct {type? : Option Token} {brace : Span} {arguments : List (Token × Expr)} {id : Nat}
      {s : StructSchema} {object : Object} {complete : Bool} {objects : List Added}
      {reported : List Diagnostic}
      (checks : Checks schema expected (.struct type? brace arguments) (.struct id))
      (found : schema.structs[id]? = some s)
      (all : argumentsOutcome schema (Added.sizes size [⟨id, s.zero⟩]) s [] s.zero true arguments
        = .ok ⟨(object, complete), objects, reported⟩) :
      Comes schema size expected (.struct type? brace arguments)
        ⟨if complete then some (.ref ⟨id, size id⟩) else none, ⟨id, object⟩ :: objects, reported⟩
  | notStruct {type? : Option Token} {brace : Span} {arguments : List (Token × Expr)}
      (wrong : ∀ id, ¬ Checks schema expected (.struct type? brace arguments) (.struct id))
      (error : BindError) :
      Comes schema size expected (.struct type? brace arguments) (.failed brace error)
  | list {bracket : Span} {items : List Expr} {id : Nat} {item : FieldType}
      {values : Option (List Value)} {objects : List Added} {reported : List Diagnostic}
      (checks : Checks schema expected (.list bracket items) (.list id))
      (found : schema.lists[id]? = some item)
      (all : itemsOutcome schema size item (some []) items = .ok ⟨values, objects, reported⟩) :
      Comes schema size expected (.list bracket items) ⟨values.map .list, objects, reported⟩
  | notList {bracket : Span} {items : List Expr}
      (wrong : ∀ id, ¬ Checks schema expected (.list bracket items) (.list id))
      (error : BindError) :
      Comes schema size expected (.list bracket items) (.failed bracket error)

/-- An outcome comes about in one of these ways. -/
theorem comes {o : Outcome (Option Value)} (h : outcome schema size expected e = .ok o) :
  Comes schema size expected e o
  := by
  rw [outcome.eq_def] at h
  obtain ⟨inferred, hinfer, h⟩ := Except.bind_eq_ok.mp h
  cases inferred with
  | error error =>
    obtain rfl := Except.ok.inj h
    exact .untyped (not_checks_of_inferType hinfer) error
  | ok type =>
    have checks : Checks schema expected e type := inferType_eq_ok_ok.mp hinfer
    cases e with
    | string raw value =>
      obtain rfl : type = .string := checks.1
      obtain rfl := Except.ok.inj h
      exact .string checks
    | bool span value =>
      obtain rfl : type = .bool := checks.1
      obtain rfl := Except.ok.inj h
      exact .bool checks
    | integer raw =>
      obtain ⟨number, hnumber, h⟩ := Except.bind_eq_ok.mp h
      cases number with
      | error error =>
        obtain rfl := Except.ok.inj h
        exact .outside checks hnumber
      | ok value =>
        obtain rfl := Except.ok.inj h
        exact .number checks hnumber
    | struct type? brace arguments =>
      cases type with
      | struct id =>
        obtain ⟨s, hs, h⟩ := Except.bind_eq_ok.mp h
        obtain ⟨⟨⟨object, complete⟩, objects, reported⟩, hall, h⟩ := Except.bind_eq_ok.mp h
        obtain rfl := Except.ok.inj h
        exact .struct checks (RegionSchema.struct_eq_ok.mp hs) hall
      | _ =>
        obtain ⟨name, -, h⟩ := Except.bind_eq_ok.mp h
        obtain rfl := Except.ok.inj h
        apply Comes.notStruct
        intro id wrong
        cases checks.unique wrong
    | list bracket items =>
      cases type with
      | list id =>
        obtain ⟨item, hitem, h⟩ := Except.bind_eq_ok.mp h
        obtain ⟨⟨values, objects, reported⟩, hall, h⟩ := Except.bind_eq_ok.mp h
        obtain rfl := Except.ok.inj h
        exact .list checks (RegionSchema.listItem_eq_ok.mp hitem) hall
      | _ =>
        obtain ⟨name, -, h⟩ := Except.bind_eq_ok.mp h
        obtain rfl := Except.ok.inj h
        apply Comes.notList
        intro id wrong
        cases checks.unique wrong

/-- The ways in which the outcome of arguments comes about. -/
inductive ArgumentsCome (schema : RegionSchema) (size : Nat → Nat) (s : StructSchema)
    (defined : List Nat) (object : Object) (complete : Bool) :
    List (Token × Expr) → Outcome (Object × Bool) → Prop where
  | nil : ArgumentsCome schema size s defined object complete [] ⟨(object, complete), [], []⟩
  | unknown {name : Token} {value : Expr} {rest : List (Token × Expr)}
      {others : Outcome (Object × Bool)} (unknown : s.field? name.text = none)
      (hothers : argumentsOutcome schema size s defined object false rest = .ok others) :
      ArgumentsCome schema size s defined object complete ((name, value) :: rest)
        (others.after [] [⟨name.span, (BindError.noField s.name name.text).message⟩])
  | repeated {name : Token} {value : Expr} {rest : List (Token × Expr)} {number : Nat}
      {field : Field} {others : Outcome (Object × Bool)}
      (known : s.field? name.text = some (number, field))
      (again : number ∈ defined)
      (hothers : argumentsOutcome schema size s defined object false rest = .ok others) :
      ArgumentsCome schema size s defined object complete ((name, value) :: rest)
        (others.after [] [⟨name.span, (BindError.redefined name.text).message⟩])
  | bound {name : Token} {value : Expr} {rest : List (Token × Expr)} {number : Nat} {field : Field}
      {bound : Outcome (Option Value)} {others : Outcome (Object × Bool)}
      (known : s.field? name.text = some (number, field)) (new : number ∉ defined)
      (hbound : outcome schema size (some field.type) value = .ok bound)
      (hothers : argumentsOutcome schema (Added.sizes size bound.objects) s (number :: defined)
        (filled object number bound.result) (complete && bound.result.isSome) rest = .ok others) :
      ArgumentsCome schema size s defined object complete ((name, value) :: rest)
        (others.after bound.objects bound.reported)

/-- The outcome of arguments comes from the first of them and those behind it. -/
theorem argumentsCome {s : StructSchema} {defined : List Nat} {object : Object} {complete : Bool}
    {arguments : List (Token × Expr)} {o : Outcome (Object × Bool)}
    (h : argumentsOutcome schema size s defined object complete arguments = .ok o) :
  ArgumentsCome schema size s defined object complete arguments o
  := by
  rw [argumentsOutcome.eq_def] at h
  cases arguments with
  | nil =>
    obtain rfl := Except.ok.inj h
    exact .nil
  | cons argument rest =>
    obtain ⟨name, value⟩ := argument
    dsimp only at h
    cases hfield : s.field? name.text with
    | none =>
      rw [hfield] at h
      obtain ⟨others, hothers, h⟩ := Except.bind_eq_ok.mp h
      obtain rfl := Except.ok.inj h
      exact .unknown hfield hothers
    | some slot =>
      obtain ⟨number, field⟩ := slot
      rw [hfield] at h
      dsimp only at h
      split at h
      · next again =>
        obtain ⟨others, hothers, h⟩ := Except.bind_eq_ok.mp h
        obtain rfl := Except.ok.inj h
        exact .repeated hfield (List.contains_iff_mem.mp again) hothers
      · next new =>
        obtain ⟨bound, hbound, h⟩ := Except.bind_eq_ok.mp h
        obtain ⟨others, hothers, h⟩ := Except.bind_eq_ok.mp h
        obtain rfl := Except.ok.inj h
        exact .bound hfield (fun again => new (List.contains_iff_mem.mpr again)) hbound hothers

/-- Whether the numbers of fields are those that arguments name. -/
def Defines (s : StructSchema) (arguments : List (Token × Expr)) (defined : List Nat) : Prop :=
  ∀ name number field, s.field? name = some (number, field) →
    (number ∈ defined ↔ name ∈ arguments.map fun argument => argument.1.text)

namespace Defines

variable {s : StructSchema} {arguments : List (Token × Expr)} {defined : List Nat} {name : Token}

theorem nil (s : StructSchema) :
  Defines s [] []
  := fun _ _ _ _ => iff_of_false List.not_mem_nil List.not_mem_nil

/-- An argument without a field defines nothing. -/
theorem unknown (h : Defines s arguments defined) (unknown : s.field? name.text = none)
    (value : Expr) :
  Defines s (arguments ++ [(name, value)]) defined
  := by
  intro other number field known
  rw [h other number field known, List.map_append, List.mem_append, List.map_singleton,
    List.mem_singleton]
  refine (or_iff_left ?_).symm
  rintro rfl
  cases unknown.symm.trans known

variable {number : Nat} {field : Field} (known : s.field? name.text = some (number, field))

include known

/-- A field given again is not defined again. -/
theorem repeated (h : Defines s arguments defined) (again : number ∈ defined) (value : Expr) :
  Defines s (arguments ++ [(name, value)]) defined
  := by
  intro other number' field' known'
  rw [h other number' field' known', List.map_append, List.mem_append, List.map_singleton,
    List.mem_singleton]
  refine (or_iff_left_of_imp ?_).symm
  rintro rfl
  apply (h _ _ _ known).mp again

/-- An argument for a new field defines it. -/
theorem bound (h : Defines s arguments defined) (value : Expr) :
  Defines s (arguments ++ [(name, value)]) (number :: defined)
  := by
  intro other number' field' known'
  rw [List.mem_cons, h other number' field' known', List.map_append, List.mem_append,
    List.map_singleton, List.mem_singleton, or_comm]
  apply or_congr_right
  constructor
  · rintro rfl
    apply StructSchema.eq_of_field? known' known
  · rintro rfl
    apply (Prod.mk.inj (Option.some.inj (known'.symm.trans known))).1

end Defines

/-- The outcome of items comes from the first of them and those behind it. -/
theorem exists_of_itemsOutcome_cons {before : Option (List Value)} {items : List Expr}
    {o : Outcome (Option (List Value))}
    (h : itemsOutcome schema size type before (e :: items) = .ok o) :
  ∃ bound others, outcome schema size (some type) e = .ok bound
    ∧ itemsOutcome schema (Added.sizes size bound.objects) type
      (do return (← bound.result) :: (← before)) items = .ok others
    ∧ o = others.after bound.objects bound.reported
  := by
  rw [itemsOutcome.eq_def] at h
  obtain ⟨bound, hbound, h⟩ := Except.bind_eq_ok.mp h
  obtain ⟨others, hothers, h⟩ := Except.bind_eq_ok.mp h
  use bound, others, hbound, hothers, (Except.ok.inj h).symm

/-! ### The places of errors -/

/-- Errors among arguments are reported in their order. -/
theorem sublist_argumentSpans {s : StructSchema} {arguments : List (Token × Expr)}
    (each : ∀ argument ∈ arguments, ∀ {size expected o},
      outcome schema size expected argument.2 = .ok o →
      (o.reported.map Diagnostic.span).Sublist argument.2.spans)
    {defined : List Nat} {object : Object} {complete : Bool} {o : Outcome (Object × Bool)}
    (h : argumentsOutcome schema size s defined object complete arguments = .ok o) :
  (o.reported.map Diagnostic.span).Sublist (arguments.flatMap Expr.argumentSpans)
  := by
  induction arguments generalizing size defined object complete o with
  | nil =>
    cases argumentsCome h
    apply List.nil_sublist _
  | cons argument rest ih =>
    obtain ⟨first, others⟩ := List.forall_mem_cons.mp each
    rw [List.flatMap_cons]
    cases argumentsCome h with
    | unknown _ hothers | repeated _ _ hothers =>
      rw [Outcome.after, List.map_append]
      exact (List.singleton_sublist.mpr (.head _)).append (ih others hothers)
    | bound _ _ hbound hothers =>
      rw [Outcome.after, List.map_append]
      apply ((first hbound).cons _).append (ih others hothers)

/-- Errors among items are reported in their order. -/
theorem sublist_itemSpans {items : List Expr}
    (each : ∀ item ∈ items, ∀ {size expected o}, outcome schema size expected item = .ok o →
      (o.reported.map Diagnostic.span).Sublist item.spans)
    {before : Option (List Value)} {o : Outcome (Option (List Value))}
    (h : itemsOutcome schema size type before items = .ok o) :
  (o.reported.map Diagnostic.span).Sublist (items.flatMap Expr.spans)
  := by
  induction items generalizing size before o with
  | nil =>
    rw [itemsOutcome] at h
    obtain rfl := Except.ok.inj h
    apply List.nil_sublist _
  | cons item rest ih =>
    obtain ⟨first, others⟩ := List.forall_mem_cons.mp each
    obtain ⟨bound, more, hbound, hmore, rfl⟩ := exists_of_itemsOutcome_cons h
    rw [List.flatMap_cons, Outcome.after, List.map_append]
    apply (first hbound).append (ih others hmore)

/-- Every error points at a token of its own, in the order of the file. -/
theorem sublist_spans {o : Outcome (Option Value)} (h : outcome schema size expected e = .ok o) :
  (o.reported.map Diagnostic.span).Sublist e.spans
  := by
  induction e using Expr.induction generalizing size expected o with
  | integer raw =>
    cases comes h with
    | untyped | outside => apply List.Sublist.refl _
    | number => apply List.nil_sublist _
  | string raw value =>
    cases comes h with
    | untyped => apply List.Sublist.refl _
    | string => apply List.nil_sublist _
  | bool span value =>
    cases comes h with
    | untyped => apply List.Sublist.refl _
    | bool => apply List.nil_sublist _
  | struct type? brace arguments ih =>
    cases comes h with
    | untyped => apply List.singleton_sublist.mpr (Expr.errorSpan_mem_spans _)
    | notStruct =>
      rw [Expr.spans_struct]
      exact List.singleton_sublist.mpr (List.mem_append_right _ (.head _))
    | struct _ _ all =>
      rw [Expr.spans_struct]
      apply ((sublist_argumentSpans ih all).cons _).trans (List.sublist_append_right _ _)
  | list bracket items ih =>
    rw [Expr.spans_list]
    cases comes h with
    | untyped => exact List.singleton_sublist.mpr (.head _)
    | notList => exact List.singleton_sublist.mpr (.head _)
    | list _ _ all => apply (sublist_itemSpans ih all).cons _

end Binding

end PoolGraph
