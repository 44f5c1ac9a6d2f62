import PoolGraph.Proofs.Binding.Reports

/-!
# The struct literals that binding reaches

`Binding.Reaches` says, apart from the binder, which struct literals of a tree are reached, and
where: the literal and those around it pass the check of their own types, and it stands under
arguments that are the first for fields that exist.  `Binding.Builds` says what objects are to be
made of them: one for each, in the order of their paths, in which a field has what the first
argument for it stands for (`Binding.Stands`) if that was bound without an error, and else is zero.
-/

namespace PoolGraph

namespace Binding

/-- Whether an argument is the first of its name. -/
structure IsFirst (arguments : List (Token × Expr)) (i : Nat) (name : String) (value : Expr) :
    Prop where
  found : ∃ token, arguments[i]? = some (token, value) ∧ token.text = name
  new : name ∉ (arguments.take i).map fun other => other.1.text

/-- Whether binding a tree in a slot reaches a struct literal.  The path to the literal says which
argument or item to take at each level. -/
inductive Reaches (schema : RegionSchema) :
    Option FieldType → Expr → List Nat → Literal → Prop where
  | self {expected : Option FieldType} {type? : Option Token} {brace : Span}
      {arguments : List (Token × Expr)} {id : Nat}
      (checks : Checks schema expected (.struct type? brace arguments) (.struct id)) :
      Reaches schema expected (.struct type? brace arguments) [] ⟨id, arguments⟩
  | argument {expected : Option FieldType} {type? : Option Token} {brace : Span}
      {arguments : List (Token × Expr)} {id : Nat} {s : StructSchema} {i : Nat} {name : String}
      {value : Expr} {number : Nat} {field : Field} {path : List Nat} {l : Literal}
      (checks : Checks schema expected (.struct type? brace arguments) (.struct id))
      (found : schema.structs[id]? = some s) (first : IsFirst arguments i name value)
      (known : s.field? name = some (number, field))
      (inside : Reaches schema (some field.type) value path l) :
      Reaches schema expected (.struct type? brace arguments) (i :: path) l
  | item {expected : Option FieldType} {bracket : Span} {items : List Expr} {id : Nat}
      {item : FieldType} {i : Nat} {e : Expr} {path : List Nat} {l : Literal}
      (checks : Checks schema expected (.list bracket items) (.list id))
      (found : schema.lists[id]? = some item) (here : items[i]? = some e)
      (inside : Reaches schema (some item) e path l) :
      Reaches schema expected (.list bracket items) (i :: path) l

/-- An object that is made of a struct literal at a path, with the reference to it. -/
structure Made where
  path : List Nat
  literal : Literal
  target : Instance
  object : Object

/-- What is added to the region for the literal. -/
def Made.added (m : Made) : Added :=
  ⟨m.literal.struct, m.object⟩

/-- Whether a value is what a tree at a path stands for: the same string, truth value or number, a
reference to the object of the same literal, or the values of the items in order. -/
inductive Stands (schema : RegionSchema) (made : List Made) :
    List Nat → FieldType → Expr → Value → Prop where
  | string {path : List Nat} (raw : Token) (value : String) :
      Stands schema made path .string (.string raw value) (.string value)
  | bool {path : List Nat} (span : Span) (value : Bool) :
      Stands schema made path .bool (.bool span value) (.bool value)
  | int {path : List Nat} {width : IntWidth} {raw : Token} {n : Nat} {i : Int64}
      (decimal : Text.Decimal raw.text n) (same : i.toInt = n) :
      Stands schema made path (.integer width false) (.integer raw) (.int i)
  | uint {path : List Nat} {width : IntWidth} {raw : Token} {n : Nat} {u : UInt64}
      (decimal : Text.Decimal raw.text n) (same : u.toNat = n) :
      Stands schema made path (.integer width true) (.integer raw) (.uint u)
  | float {path : List Nat} {width : FloatWidth} {raw : Token} {n : Nat}
      (decimal : Text.Decimal raw.text n) :
      Stands schema made path (.float width) (.integer raw) (.float (Binary64.ofNat n))
  | struct {path : List Nat} {type? : Option Token} {brace : Span}
      {arguments : List (Token × Expr)} {id : Nat} {m : Made} (hm : m ∈ made)
      (here : m.path = path) (same : m.literal = ⟨id, arguments⟩) :
      Stands schema made path (.struct id) (.struct type? brace arguments) (.ref m.target)
  | list {path : List Nat} {bracket : Span} {items : List Expr} {id : Nat} {item : FieldType}
      {values : List Value} (found : schema.lists[id]? = some item)
      (length : values.length = items.length)
      (each : ∀ i e v, items[i]? = some e → values[i]? = some v →
        Stands schema made (path ++ [i]) item e v) :
      Stands schema made path (.list id) (.list bracket items) (.list values)

/-- Whether a field of the object of a literal holds what it should: what the first argument for it
stands for if that is bound without an error, and else the zero value. -/
def Supplies (schema : RegionSchema) (made : List Made) (path : List Nat)
    (arguments : List (Token × Expr)) (field : Field) (v : Value) : Prop :=
  (∃ i value, IsFirst arguments i field.name value
      ∧ diagnostics schema (some field.type) value = []
      ∧ Stands schema made (path ++ [i]) field.type value v)
    ∨ (∀ i value, IsFirst arguments i field.name value →
        diagnostics schema (some field.type) value ≠ [])
      ∧ v = .zero field.type

/-- Whether every field of an object holds what it should. -/
def Made.Filled (schema : RegionSchema) (made : List Made) (m : Made) : Prop :=
  ∃ s, schema.structs[m.literal.struct]? = some s
    ∧ List.Forall₂ (Supplies schema made m.path m.literal.arguments) s.fields m.object

/-- Whether the objects made for a tree are those that should be: one for each literal that is
reached, in the order of the tree, with all fields filled. -/
structure Builds (schema : RegionSchema) (expected : Option FieldType) (e : Expr)
    (made : List Made) : Prop where
  sorted : made.Pairwise fun a b => List.Lex (· < ·) a.path b.path
  reached : ∀ path l, Reaches schema expected e path l ↔ ∃ m ∈ made, m.path = path ∧ m.literal = l
  filled : ∀ m ∈ made, m.Filled schema made

/-- Whether every argument of a literal is stored in its object, as what it stands for. -/
def Made.Unfolds (schema : RegionSchema) (made : List Made) (m : Made) : Prop :=
  ∃ s, schema.structs[m.literal.struct]? = some s
    ∧ ∀ (i : Nat) name value, m.literal.arguments[i]? = some (name, value) →
      ∃ number field v, s.field? name.text = some (number, field) ∧ m.object[number]? = some v
        ∧ Stands schema made (m.path ++ [i]) field.type value v

variable {schema : RegionSchema} {expected : Option FieldType} {e : Expr} {path : List Nat}
  {l : Literal}

/-! ### First arguments -/

/-- One argument has one name and one value. -/
theorem IsFirst.argument_unique {arguments : List (Token × Expr)} {i : Nat} {name name' : String}
    {value value' : Expr} (h : IsFirst arguments i name value)
    (h' : IsFirst arguments i name' value') :
  name = name' ∧ value = value'
  := by
  obtain ⟨⟨token, here, rfl⟩, -⟩ := h
  obtain ⟨⟨token', here', rfl⟩, -⟩ := h'
  obtain ⟨rfl, rfl⟩ := Prod.mk.inj (Option.some.inj (here.symm.trans here'))
  exact ⟨rfl, rfl⟩

/-- A name has one first argument. -/
theorem IsFirst.unique {arguments : List (Token × Expr)} {i j : Nat} {name : String}
    {value value' : Expr} (h : IsFirst arguments i name value)
    (h' : IsFirst arguments j name value') :
  i = j ∧ value = value'
  := by
  have apart : ∀ {i j value value'}, IsFirst arguments i name value →
      IsFirst arguments j name value' → ¬ i < j := by
    rintro i j value value' ⟨⟨token, here, named⟩, -⟩ ⟨-, new⟩ before
    have inside : (token, value) ∈ arguments.take j := by
      apply List.mem_of_getElem? (i := i)
      rw [List.getElem?_take_of_lt before, here]
    exact new (List.mem_map.mpr ⟨_, inside, named⟩)
  obtain rfl : i = j := Nat.le_antisymm (Nat.not_lt.mp (apart h' h)) (Nat.not_lt.mp (apart h h'))
  constructor
  · rfl
  · apply (h.argument_unique h').2

/-- An argument is the first of its name if none before it has the name. -/
theorem isFirst_append_cons_iff {before rest : List (Token × Expr)} {argument : Token × Expr}
    {name : String} {value : Expr} :
  IsFirst (before ++ argument :: rest) before.length name value
    ↔ argument.1.text = name ∧ argument.2 = value ∧ name ∉ before.map fun other => other.1.text
  := by
  have here : (before ++ argument :: rest)[before.length]? = some argument := by simp
  constructor
  · rintro ⟨⟨token, found, named⟩, new⟩
    obtain rfl := Option.some.inj (here.symm.trans found)
    rw [List.take_left] at new
    exact ⟨named, rfl, new⟩
  · rintro ⟨named, rfl, new⟩
    refine ⟨⟨argument.1, here, named⟩, ?_⟩
    rw [List.take_left]
    apply new

/-! ### Reaching one level down -/

/-- Whether a literal is reached under an argument, from a position on. -/
def ReachesArgument (schema : RegionSchema) (s : StructSchema) (arguments : List (Token × Expr))
    (n : Nat) (path : List Nat) (l : Literal) : Prop :=
  ∃ i name value number field deeper, n ≤ i ∧ path = i :: deeper ∧ IsFirst arguments i name value
    ∧ s.field? name = some (number, field) ∧ Reaches schema (some field.type) value deeper l

/-- Whether a literal is reached under an item, from a position on. -/
def ReachesItem (schema : RegionSchema) (item : FieldType) (items : List Expr) (n : Nat)
    (path : List Nat) (l : Literal) : Prop :=
  ∃ i e deeper, n ≤ i ∧ path = i :: deeper ∧ items[i]? = some e
    ∧ Reaches schema (some item) e deeper l

/-- A literal is reached from a struct if it is that struct or reached from a first argument. -/
theorem reaches_struct_iff {type? : Option Token} {brace : Span} {arguments : List (Token × Expr)}
    {id : Nat} {s : StructSchema}
    (checks : Checks schema expected (.struct type? brace arguments) (.struct id))
    (found : schema.structs[id]? = some s) :
  Reaches schema expected (.struct type? brace arguments) path l
    ↔ path = [] ∧ l = ⟨id, arguments⟩ ∨ ReachesArgument schema s arguments 0 path l
  := by
  constructor
  · rintro (checks' | ⟨checks', found', first, known, inside⟩)
    · obtain rfl := FieldType.struct.inj (checks.unique checks')
      exact .inl ⟨rfl, rfl⟩
    · obtain rfl := FieldType.struct.inj (checks.unique checks')
      obtain rfl := Option.some.inj (found.symm.trans found')
      exact .inr ⟨_, _, _, _, _, _, Nat.zero_le _, rfl, first, known, inside⟩
  · rintro (⟨rfl, rfl⟩ | ⟨i, name, value, number, field, deeper, -, rfl, first, known, inside⟩)
    · exact .self checks
    · exact .argument checks found first known inside

/-- A literal is reached from a list if it is reached from an item. -/
theorem reaches_list_iff {bracket : Span} {items : List Expr} {id : Nat} {item : FieldType}
    (checks : Checks schema expected (.list bracket items) (.list id))
    (found : schema.lists[id]? = some item) :
  Reaches schema expected (.list bracket items) path l ↔ ReachesItem schema item items 0 path l
  := by
  constructor
  · rintro (_ | _ | ⟨checks', found', here, inside⟩)
    obtain rfl := FieldType.list.inj (checks.unique checks')
    obtain rfl := Option.some.inj (found.symm.trans found')
    exact ⟨_, _, _, Nat.zero_le _, rfl, here, inside⟩
  · rintro ⟨i, e, deeper, -, rfl, here, inside⟩
    exact .item checks found here inside

/-- Nothing is reached from a struct that does not check. -/
theorem not_reaches_struct {type? : Option Token} {brace : Span}
    {arguments : List (Token × Expr)}
    (wrong : ∀ id, ¬ Checks schema expected (.struct type? brace arguments) (.struct id)) :
  ¬ Reaches schema expected (.struct type? brace arguments) path l
  := by
  rintro (checks | ⟨checks, -⟩) <;> exact wrong _ checks

/-- Nothing is reached from a list that does not check. -/
theorem not_reaches_list {bracket : Span} {items : List Expr}
    (wrong : ∀ id, ¬ Checks schema expected (.list bracket items) (.list id)) :
  ¬ Reaches schema expected (.list bracket items) path l
  := by
  rintro (_ | _ | ⟨checks, -⟩)
  apply wrong _ checks

/-- In a tree without errors there is none about the arguments of a literal that is reached. -/
theorem argumentsDiagnostics_of_reaches (wf : schema.WellFormed) (distinct : schema.Distinct)
    (h : Reaches schema expected e path l) (known : ∀ t, expected = some t → schema.Knows t)
    (he : e.WellFormed) (clean : diagnostics schema expected e = []) {s : StructSchema}
    (hs : schema.structs[l.struct]? = some s) :
  argumentsDiagnostics schema s [] l.arguments = []
  := by
  induction h with
  | self checks =>
    rw [diagnostics_struct wf distinct known he checks hs] at clean
    apply clean
  | @argument _ _ _ arguments _ s' i _ value number field _ _ checks found first hfield inside ih =>
    rw [diagnostics_struct wf distinct known he checks found] at clean
    obtain ⟨⟨token, here, rfl⟩, -⟩ := first
    have none := argumentsDiagnostics_eq_nil_iff.mp clean i _ here
    obtain ⟨number', field', same, -, clean⟩ := argumentDiagnostics_eq_nil_iff.mp none
    obtain ⟨rfl, rfl⟩ := Prod.mk.inj (Option.some.inj (hfield.symm.trans same))
    cases he with
    | struct _ _ values =>
      apply ih (wf.knows_field found hfield).slot (values _ (List.mem_of_getElem? here)) clean hs
  | @item _ _ items id item i e _ _ checks found here inside ih =>
    rw [diagnostics_list wf distinct known he checks found, List.flatMap_eq_nil_iff] at clean
    have hmem := List.mem_of_getElem? here
    cases he with
    | list all => apply ih (wf.knows_item found).slot (all e hmem) (clean e hmem) hs

/-- Without errors about the arguments of a literal all of them are stored. -/
theorem Made.Filled.unfolds {made : List Made} {m : Made} (h : m.Filled schema made)
    (clean : ∀ s, schema.structs[m.literal.struct]? = some s →
      argumentsDiagnostics schema s [] m.literal.arguments = []) :
  m.Unfolds schema made
  := by
  obtain ⟨s, hs, fields⟩ := h
  refine ⟨s, hs, fun i name value here => ?_⟩
  have none := argumentsDiagnostics_eq_nil_iff.mp (clean s hs) i _ here
  obtain ⟨number, field, known, new, clean⟩ := argumentDiagnostics_eq_nil_iff.mp none
  have first : IsFirst m.literal.arguments i name.text value := ⟨⟨name, here, rfl⟩, new⟩
  obtain ⟨hfield, named⟩ := StructSchema.getElem?_of_field? known
  obtain ⟨inside, rfl⟩ := List.getElem?_eq_some_iff.mp hfield
  have inside' : number < m.object.length := fields.length_eq ▸ inside
  use number, s.fields[number], m.object[number], known, List.getElem?_eq_getElem inside'
  rcases fields.get inside inside' with ⟨j, value', first', -, stands⟩ | ⟨fails, -⟩
  · rw [List.get_eq_getElem, named] at first'
    obtain ⟨rfl, rfl⟩ := first.unique first'
    apply stands
  · rw [← named] at first
    exact absurd clean (fails i value first)

/-! ### More objects -/

/-- What stands for an expression still does when more objects are made. -/
theorem Stands.mono {made made' : List Made} (more : made ⊆ made') {type : FieldType} {v : Value}
    (h : Stands schema made path type e v) :
  Stands schema made' path type e v
  := by
  induction h with
  | string raw value => exact .string raw value
  | bool span value => exact .bool span value
  | int decimal same => exact .int decimal same
  | uint decimal same => exact .uint decimal same
  | float decimal => exact .float decimal
  | struct hm here same => exact .struct (more hm) here same
  | list found length _ ih => exact .list found length ih

/-- An object stays filled when more objects are made. -/
theorem Made.Filled.mono {made made' : List Made} (more : made ⊆ made') {m : Made}
    (h : m.Filled schema made) :
  m.Filled schema made'
  := by
  obtain ⟨s, hs, fields⟩ := h
  refine ⟨s, hs, fields.imp ?_⟩
  rintro field v (⟨i, value, first, clean, stands⟩ | zero)
  · exact .inl ⟨i, value, first, clean, stands.mono more⟩
  · exact .inr zero

end Binding

end PoolGraph
