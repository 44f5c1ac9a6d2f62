import PoolGraph.Proofs.Binding.Anywhere
import PoolGraph.Proofs.Binding.Cases
import PoolGraph.Proofs.Binding.Literals
import PoolGraph.Proofs.Expr.Places

/-!
# The errors of a tree

The errors that binding a tree finds are its own (`Binding.diagnostics`): they depend neither on the
region nor on what was found before (`Binding.reported_eq_diagnostics`).  Those of a literal that is
of its type are those of its arguments or items, each bound alone, one behind the other
(`Binding.reported_of_argumentsOutcome`, `Binding.reported_of_itemsOutcome`).  Every error points at
a token of its own, so that they stand in the order of the file (`Binding.sublist_spans`).
-/

namespace PoolGraph

namespace Binding

variable {schema : RegionSchema} {expected : Option FieldType} {e : Expr} {type : FieldType}
  {size : Nat → Nat}

/-- The errors that binding an expression alone finds, in a region without objects. -/
def diagnostics (schema : RegionSchema) (expected : Option FieldType) (e : Expr) :
    List Diagnostic :=
  match (bind schema expected e).run ⟨Region.empty schema, #[]⟩ with
  | .ok (_, s) => s.reported.toList
  | .error _ => []

/-- The errors about an argument that stands behind others: it names no field, or one that an
argument before it names, or else they are those of its value alone. -/
def argumentDiagnostics (schema : RegionSchema) (s : StructSchema) (before : List (Token × Expr))
    (argument : Token × Expr) : List Diagnostic :=
  match s.field? argument.1.text with
  | none => [⟨argument.1.span, (BindError.noField s.name argument.1.text).message⟩]
  | some (_, field) =>
    if argument.1.text ∈ before.map fun other => other.1.text then
      [⟨argument.1.span, (BindError.redefined argument.1.text).message⟩]
    else diagnostics schema (some field.type) argument.2

/-- The errors about arguments that stand behind others, one argument after the other. -/
def argumentsDiagnostics (schema : RegionSchema) (s : StructSchema)
    (before arguments : List (Token × Expr)) : List Diagnostic :=
  (arguments.zipIdx before.length).flatMap fun argument =>
    argumentDiagnostics schema s ((before ++ arguments).take argument.2) argument.1

theorem argumentsDiagnostics_cons (s : StructSchema) (before : List (Token × Expr))
    (argument : Token × Expr) (rest : List (Token × Expr)) :
  argumentsDiagnostics schema s before (argument :: rest)
    = argumentDiagnostics schema s before argument
      ++ argumentsDiagnostics schema s (before ++ [argument]) rest
  := by
  rw [argumentsDiagnostics, List.zipIdx_cons, List.flatMap_cons, List.take_left,
    argumentsDiagnostics, List.length_append, List.length_singleton, List.append_assoc]
  rfl

theorem argumentDiagnostics_eq_nil_iff {s : StructSchema} {before : List (Token × Expr)}
    {argument : Token × Expr} :
  argumentDiagnostics schema s before argument = []
    ↔ ∃ number field, s.field? argument.1.text = some (number, field)
      ∧ argument.1.text ∉ (before.map fun other => other.1.text)
      ∧ diagnostics schema (some field.type) argument.2 = []
  := by
  rw [argumentDiagnostics]
  cases s.field? argument.1.text with
  | none => simp
  | some slot =>
    obtain ⟨number, field⟩ := slot
    dsimp only
    split <;> simp [*]

/-- There is no error in arguments exactly when there is none about one of them. -/
theorem argumentsDiagnostics_eq_nil_iff {s : StructSchema} {arguments : List (Token × Expr)} :
  argumentsDiagnostics schema s [] arguments = []
    ↔ ∀ (i : Nat) argument, arguments[i]? = some argument →
      argumentDiagnostics schema s (arguments.take i) argument = []
  := by
  rw [argumentsDiagnostics, List.flatMap_eq_nil_iff, List.length_nil, List.nil_append]
  constructor
  · intro none i argument here
    apply none (argument, i) (List.mem_zipIdx_iff_getElem?.mpr here)
  · rintro none ⟨argument, i⟩ here
    apply none i argument (List.mem_zipIdx_iff_getElem?.mp here)

/-! ### Errors of parts -/

section

variable (wf : schema.WellFormed) (distinct : schema.Distinct)

include wf distinct

/-- The errors of an outcome are those of the expression alone. -/
theorem reported_eq_diagnostics (known : ∀ t, expected = some t → schema.Knows t)
    (he : e.WellFormed) {o : Outcome (Option Value)}
    (h : outcome schema size expected e = .ok o) :
  o.reported = diagnostics schema expected e
  := by
  obtain ⟨alone, hout, hrun, -⟩ := bind_run_of_regular wf distinct
    (Region.regular_empty schema) known he #[]
  replace hout : outcome schema (Region.empty schema).size expected e = .ok alone := hout
  replace hrun : (bind schema expected e).run ⟨Region.empty schema, #[]⟩ = _ := hrun
  have same : (fun id => size id + (Region.empty schema).size id) = size := by
    funext id
    rw [Region.size_empty, Nat.add_zero]
  have moved : outcome schema (fun id => size id + (Region.empty schema).size id) expected e = _ :=
    outcome_moved schema (Region.empty schema).size expected e
  rw [same, h, hout] at moved
  obtain rfl := Except.ok.inj moved
  rw [diagnostics, hrun]
  simp [Outcome.moved]

/-- Arguments are checked one by one: those in front of one matter by their names alone. -/
theorem reported_of_argumentsOutcome {id : Nat} {s : StructSchema}
    (hs : schema.structs[id]? = some s) {before arguments : List (Token × Expr)}
    (values : ∀ argument ∈ arguments, argument.2.WellFormed) {defined : List Nat}
    (hdefined : Defines s before defined)
    {object : Object} {complete : Bool} {o : Outcome (Object × Bool)}
    (h : argumentsOutcome schema size s defined object complete arguments = .ok o) :
  o.reported = argumentsDiagnostics schema s before arguments
  := by
  induction arguments generalizing size before defined object complete o with
  | nil =>
    cases argumentsCome h
    rfl
  | cons argument rest ih =>
    obtain ⟨hvalue, hrest⟩ := List.forall_mem_cons.mp values
    rw [argumentsDiagnostics_cons]
    cases argumentsCome h with
    | @unknown name value _ others unknown hothers =>
      rw [Outcome.after, argumentDiagnostics, unknown, ih hrest (hdefined.unknown unknown value)
        hothers]
    | @repeated name value _ number field others known again hothers =>
      rw [Outcome.after, argumentDiagnostics, known]
      dsimp only
      rw [if_pos ((hdefined _ _ _ known).mp again),
        ih hrest (hdefined.repeated known again value) hothers]
    | @bound name value _ number field bound others known new hbound hothers =>
      have alone := reported_eq_diagnostics wf distinct (wf.knows_field hs known).slot hvalue hbound
      rw [Outcome.after, argumentDiagnostics, known]
      dsimp only
      rw [if_neg ((hdefined _ _ _ known).not.mp new), ← alone,
        ih hrest (hdefined.bound known value) hothers]

theorem reported_of_itemsOutcome (knows : schema.Knows type) {items : List Expr}
    (hitems : ∀ item ∈ items, item.WellFormed) {before : Option (List Value)}
    {o : Outcome (Option (List Value))}
    (h : itemsOutcome schema size type before items = .ok o) :
  o.reported = items.flatMap (diagnostics schema (some type))
  := by
  induction items generalizing size before o with
  | nil =>
    rw [itemsOutcome] at h
    obtain rfl := Except.ok.inj h
    rfl
  | cons item rest ih =>
    obtain ⟨hitem, hrest⟩ := List.forall_mem_cons.mp hitems
    obtain ⟨bound, others, hbound, hothers, rfl⟩ := exists_of_itemsOutcome_cons h
    have alone := reported_eq_diagnostics wf distinct knows.slot hitem hbound
    rw [Outcome.after, List.flatMap_cons, alone, ih hrest hothers]

variable (known : ∀ t, expected = some t → schema.Knows t)

include known

theorem exists_outcome (he : e.WellFormed) :
  ∃ size o, outcome schema size expected e = .ok o
  := by
  obtain ⟨o, hout, -⟩ := bind_run_of_regular wf distinct (Region.regular_empty schema) known he #[]
  use (Region.empty schema).size, o, hout

/-- The errors of a struct literal that is of its type are those of its arguments. -/
theorem diagnostics_struct {type? : Option Token} {brace : Span} {arguments : List (Token × Expr)}
    (he : (Expr.struct type? brace arguments).WellFormed) {id : Nat} {s : StructSchema}
    (checks : Checks schema expected (.struct type? brace arguments) (.struct id))
    (found : schema.structs[id]? = some s) :
  diagnostics schema expected (.struct type? brace arguments)
    = argumentsDiagnostics schema s [] arguments
  := by
  obtain ⟨size, o, hout⟩ := exists_outcome wf distinct known he
  rw [← reported_eq_diagnostics wf distinct known he hout]
  cases comes hout with
  | untyped wrong => exact absurd checks (wrong _)
  | notStruct wrong => exact absurd checks (wrong _)
  | struct same found' all =>
    obtain rfl := FieldType.struct.inj (checks.unique same)
    obtain rfl := Option.some.inj (found.symm.trans found')
    cases he with
    | struct _ _ values =>
      apply reported_of_argumentsOutcome wf distinct found values (Defines.nil s) all

/-- The errors of a list literal that is of its type are those of its items. -/
theorem diagnostics_list {bracket : Span} {items : List Expr}
    (he : (Expr.list bracket items).WellFormed) {id : Nat} {item : FieldType}
    (checks : Checks schema expected (.list bracket items) (.list id))
    (found : schema.lists[id]? = some item) :
  diagnostics schema expected (.list bracket items)
    = items.flatMap (diagnostics schema (some item))
  := by
  obtain ⟨size, o, hout⟩ := exists_outcome wf distinct known he
  rw [← reported_eq_diagnostics wf distinct known he hout]
  cases comes hout with
  | untyped wrong => exact absurd checks (wrong _)
  | notList wrong => exact absurd checks (wrong _)
  | list same found' all =>
    obtain rfl := FieldType.list.inj (checks.unique same)
    obtain rfl := Option.some.inj (found.symm.trans found')
    cases he with
    | list hitems => apply reported_of_itemsOutcome wf distinct (wf.knows_item found) hitems all

end

/-! ### The places of errors -/

theorem sublist_spans_of_inside {tree : Expr} (inside : e.Inside tree) :
  e.spans.Sublist tree.spans
  := by
  induction inside with
  | self => apply List.Sublist.refl _
  | @argument type? brace arguments argument hargument _ ih =>
    rw [Expr.spans_struct]
    have all : (Expr.argumentSpans argument).Sublist (arguments.flatMap Expr.argumentSpans) :=
      List.sublist_flatten_of_mem (List.mem_map_of_mem hargument)
    apply (((ih.cons _).trans all).cons _).trans (List.sublist_append_right _ _)
  | @item bracket items item hitem _ ih =>
    rw [Expr.spans_list]
    have all : item.spans.Sublist (items.flatMap Expr.spans) :=
      List.sublist_flatten_of_mem (List.mem_map_of_mem hitem)
    apply (ih.trans all).cons _

theorem wellFormed_of_inside {tree : Expr} (inside : e.Inside tree) (h : tree.WellFormed) :
  e.WellFormed
  := by
  induction inside with
  | self => apply h
  | argument hargument _ ih =>
    cases h with
    | struct _ _ values => apply ih (values _ hargument)
  | item hitem _ ih =>
    cases h with
    | list all => apply ih (all _ hitem)

/-- Binding any part of a parsed tree into any region of a resolved schema adds the errors of the
part, in the order of the file.  Those of a struct literal that is of its type are those of its
arguments: one for each that names no field or a field again, and else those of its value alone.
Those of a list literal are those of its items alone. -/
theorem bind_reports {d : Declarations} {root : Ref SchemaDecl} {schemas : List RegionSchema}
    (hresolve : (d.resolve root).run = .ok (.ok schemas)) {r : Region}
    (hschema : r.schema ∈ schemas) (regular : r.Regular) {file : Nat} {source : Source}
    {tree : Expr} (hparse : Expr.parse file source = .ok tree) (inside : e.Inside tree)
    (known : ∀ type, expected = some type → r.schema.Knows type) (reported : Array Diagnostic) :
  (∃ value? r', (bind r.schema expected e).run ⟨r, reported⟩
      = .ok (value?, ⟨r', reported ++ (diagnostics r.schema expected e).toArray⟩))
    ∧ (diagnostics r.schema expected e).Pairwise (fun a b => a.span.start < b.span.start)
    ∧ (∀ type? brace arguments id s, e = .struct type? brace arguments →
        Checks r.schema expected e (.struct id) → r.schema.structs[id]? = some s →
        diagnostics r.schema expected e = argumentsDiagnostics r.schema s [] arguments)
    ∧ (∀ bracket items id item, e = .list bracket items →
        Checks r.schema expected e (.list id) → r.schema.lists[id]? = some item →
        diagnostics r.schema expected e = items.flatMap (diagnostics r.schema (some item)))
  := by
  have wf := Declarations.wellFormed_of_resolve hresolve r.schema hschema
  have distinct := Declarations.distinct_of_resolve hresolve r.schema hschema
  have he := wellFormed_of_inside inside (Expr.wellFormed_of_parse hparse).1
  obtain ⟨o, hout, hrun, -⟩ := bind_run_of_regular wf distinct regular known he reported
  have errors := reported_eq_diagnostics wf distinct known he hout
  constructor
  · use o.result, r.extend o.objects
    exact errors ▸ hrun
  constructor
  · have spans := (Expr.pairwise_spans_of_parse hparse).sublist
      ((sublist_spans hout).trans (sublist_spans_of_inside inside))
    rw [errors, List.pairwise_map] at spans
    apply spans
  constructor
  · rintro type? brace arguments id s rfl checks found
    apply diagnostics_struct wf distinct known he checks found
  · rintro bracket items id item rfl checks found
    apply diagnostics_list wf distinct known he checks found

section

open Grammar

/-- A file with a node that names its successor twice, and each time as a number. -/
def twiceFile : Source :=
  ⟨"d", (String.ofList ['N', 'o', 'd', 'e', '{', 'n', 'e', 'x', 't', ':', '1', ',', 'n', 'e', 'x',
    't', ':', '1', '}']).toByteArray⟩

/-- The arguments of that node. -/
def twiceArguments : List (Token × Expr) :=
  [(tokenOf 0 5 ['n', 'e', 'x', 't'], .integer (tokenOf 0 10 ['1'])),
    (tokenOf 0 12 ['n', 'e', 'x', 't'], .integer (tokenOf 0 17 ['1']))]

/-- The tree of that file. -/
def twiceTree : Expr :=
  .struct (some (tokenOf 0 0 ['N', 'o', 'd', 'e'])) (spanOf 0 4 ['{']) twiceArguments

theorem parse_twiceFile :
  Expr.parse 0 twiceFile = .ok twiceTree
  := by
  have type : Identifier ['N', 'o', 'd', 'e'] := ⟨'N', _, rfl, rfl, List.all_eq_true.mp rfl⟩
  have name : Identifier ['n', 'e', 'x', 't'] := ⟨'n', _, rfl, rfl, List.all_eq_true.mp rfl⟩
  have none : Blanks [] := List.forall_mem_nil _
  have one : ∀ offset, Expression 0 ['1'] offset (.integer (tokenOf 0 offset ['1'])) := fun _ =>
    .integer (List.cons_ne_nil _ _) (List.all_eq_true.mp rfl)
  have first : Argument 0 (Expression 0) _ 5 _ := .mk name none none (one 10)
  have second : Argument 0 (Expression 0) _ 12 _ := .mk name none none (one 17)
  have block : Block '{' '}' (Argument 0 (Expression 0)) _ 4 twiceArguments :=
    .mk none (.cons first (.cons (.mk none none second) .nil) .none) none
  have tree : Expression 0 _ 0 twiceTree := .struct type (by decide) none block
  apply Expr.parse_of_file _ (.mk none tree none)
  · decide
  · rw [twiceFile, String.toByteArray_ofList]
    rfl

/-- The first of the two values is of the wrong type, and the second name is one too many. -/
theorem bind_reports_twice :
  (Region.nodeDeclarations.resolve ⟨0⟩).run = .ok (.ok [Region.nodes]) ∧ crooked.Regular
    ∧ Expr.parse 0 twiceFile = .ok twiceTree
    ∧ diagnostics Region.nodes none twiceTree
      = diagnostics Region.nodes (some (.struct 0)) (.integer (tokenOf 0 10 ['1']))
        ++ [⟨spanOf 0 12 ['n', 'e', 'x', 't'], (BindError.redefined "next").message⟩]
  := by
  have checks : Checks crooked.schema none twiceTree (.struct 0) :=
    ⟨⟨0, rfl, rfl⟩, nofun⟩
  obtain ⟨-, -, arguments, -⟩ := bind_reports Region.resolve_nodeDeclarations
    (List.mem_singleton_self crooked.schema) regular_crooked parse_twiceFile .self
    (nofun : ∀ type, none = some type → _) #[]
  constructor
  · apply Region.resolve_nodeDeclarations
  use regular_crooked, parse_twiceFile
  apply (arguments _ _ _ 0 _ rfl checks rfl).trans rfl

end

end Binding

end PoolGraph
