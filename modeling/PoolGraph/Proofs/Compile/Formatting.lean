import PoolGraph.Proofs.Binding.Bare
import PoolGraph.Proofs.Compile.Encodable
import PoolGraph.Proofs.Expr.Printing

/-!
# Formatting keeps the meaning of a file

Files whose trees differ in places alone are bound alike: they are accepted with the same value and
the same objects, or refused with the same messages in the same order (`Compile.Alike`).  As a file
and its formatted text have such trees, what is compiled from the one is compiled from the other,
whether they are read as data or as a schema (`Compile.alike_formatted`).
-/

namespace PoolGraph

open Binding Grammar

/-! ### Results that differ in places alone -/

/-- Whether two results are the same, but for the places that diagnostics are about. -/
inductive Alike : Except CompileError α → Except CompileError α → Prop where
  | refl (result : Except CompileError α) : Alike result result
  | reported {reports reports' : List Report}
    (same : reports.map (·.message) = reports'.map (·.message)) :
    Alike (.error (.diagnostics reports)) (.error (.diagnostics reports'))

/-- Whether two compilations meet no fault and have the same result, places aside. -/
def Compile.Alike (x y : Compile α) : Prop :=
  ∃ result result', x.run = .ok result ∧ y.run = .ok result' ∧ PoolGraph.Alike result result'

namespace Compile.Alike

theorem of_faultless {x : Compile α} (h : x.Faultless) :
  Alike x x
  := by
  obtain ⟨result, hresult⟩ := h
  exact ⟨result, result, hresult, hresult, .refl result⟩

/-- Compilations go on alike behind steps that are alike. -/
theorem bind {x y : Compile α} {f g : α → Compile β} (h : Alike x y)
    (hf : ∀ a, x.run = .ok (.ok a) → Alike (f a) (g a)) :
  Alike (x >>= f) (y >>= g)
  := by
  obtain ⟨result, result', hx, hy, same⟩ := h
  cases same with
  | refl =>
    cases result with
    | error e =>
      exact ⟨_, _, run_bind_of_eq_error hx, run_bind_of_eq_error hy, .refl _⟩
    | ok a =>
      rw [Compile.Alike, run_bind_of_eq_ok hx, run_bind_of_eq_ok hy]
      apply hf a hx
  | reported same =>
    exact ⟨_, _, run_bind_of_eq_error hx, run_bind_of_eq_error hy, .reported same⟩

/-- Where the one compilation goes through, the other gives the same. -/
theorem run_eq_ok {x y : Compile α} (h : Alike x y) {a : α} (hx : x.run = .ok (.ok a)) :
  y.run = .ok (.ok a)
  := by
  obtain ⟨result, result', hx', hy, same⟩ := h
  obtain rfl := Except.ok.inj (hx.symm.trans hx')
  cases same with
  | refl => apply hy

end Compile.Alike

/-- Files are refused alike for what differs in places alone. -/
theorem alike_reporting {reported reported' : List Diagnostic}
    (same : reported.map Diagnostic.message = reported'.map Diagnostic.message)
    (source source' : Source) :
  Alike (.error (.reporting source reported) : Except CompileError α)
    (.error (.reporting source' reported'))
  := by
  apply Alike.reported
  rw [List.map_map, List.map_map]
  apply same

/-- Outcomes that differ in places alone lead to verdicts that do. -/
theorem Binding.Outcome.alike_verdict {o o' : Outcome (Option Value)} (h : o.bare = o'.bare)
    (source source' : Source) :
  Alike (o.verdict.mapError (.reporting source)) (o'.verdict.mapError (.reporting source'))
  := by
  obtain ⟨result, objects, reported⟩ := o
  obtain ⟨result', objects', reported'⟩ := o'
  obtain ⟨rfl, -, bare⟩ := Binding.Outcome.mk.inj h
  have messages : reported.map Diagnostic.message = reported'.map Diagnostic.message := by
    have same := congrArg (List.map Diagnostic.message) bare
    simp only [List.map_map] at same
    apply same
  cases result with
  | none => apply alike_reporting messages source source'
  | some value =>
    have none : reported.isEmpty = reported'.isEmpty := by
      rw [← List.isEmpty_map (f := Diagnostic.message), messages, List.isEmpty_map]
    rw [verdict, verdict]
    dsimp only
    rw [none]
    split
    · exact .refl _
    · apply alike_reporting messages source source'

/-! ### Declarations and their region -/

theorem Pool.map_injective {f : α → β} (h : Function.Injective f) :
  Function.Injective (Pool.map f)
  := by
  intro p q same
  have lists := congrArg Pool.toList same
  rw [Pool.toList_map, Pool.toList_map] at lists
  apply Pool.toList_inj.mp (List.map_injective_iff.mpr h lists)

theorem Value.refs_injective [Declared α] :
  Function.Injective (Value.refs (α := α))
  := by
  intro refs refs' same
  apply List.map_injective_iff.mpr ?_ (Value.list.inj same)
  rintro ⟨i⟩ ⟨j⟩ same
  obtain ⟨-, rfl⟩ := Instance.mk.inj (Value.ref.inj same)
  rfl

namespace Declarations

theorem toRegion_injective :
  Function.Injective toRegion
  := by
  have field : Function.Injective FieldDecl.toObject := by
    rintro ⟨name, type⟩ ⟨name', type'⟩ same
    simpa [FieldDecl.toObject] using same
  have struct : Function.Injective StructDecl.toObject := by
    rintro ⟨name, fields⟩ ⟨name', fields'⟩ same
    simpa [StructDecl.toObject, Value.refs_injective.eq_iff] using same
  have region : Function.Injective RegionDecl.toObject := by
    rintro ⟨name, structs⟩ ⟨name', structs'⟩ same
    simpa [RegionDecl.toObject, Value.refs_injective.eq_iff] using same
  have root : Function.Injective SchemaDecl.toObject := by
    rintro ⟨regions⟩ ⟨regions'⟩ same
    simpa [SchemaDecl.toObject, Value.refs_injective.eq_iff] using same
  rintro ⟨fields, structs, regions, schemas⟩ ⟨fields', structs', regions', schemas'⟩ same
  simpa [toRegion, (Pool.map_injective field).eq_iff, (Pool.map_injective struct).eq_iff,
    (Pool.map_injective region).eq_iff, (Pool.map_injective root).eq_iff] using same

end Declarations

/-! ### Files whose trees differ in places alone -/

section

variable {source source' : Source} {e e' : Expr} (hparse : Expr.parse 0 source = .ok e)
  (hparse' : Expr.parse 0 source' = .ok e') (h : e.bare = e'.bare)

include hparse hparse' h

/-- Such files fill a store with the same objects. -/
theorem parseFile_alike {S : Type} [ObjectStore S] {view : S → Region} {schema : RegionSchema}
    (models : Models view schema) (injective : Function.Injective view) (wf : schema.WellFormed)
    {s : S} (sound : (view s).Sound schema) :
  ∃ result result' s', parseFile source s = .ok (result, s')
    ∧ parseFile source' s = .ok (result', s') ∧ Alike result result'
  := by
  obtain ⟨result, added, s₁, hout, hrun, hview, -, -⟩ := parseFile_run models wf source sound
  obtain ⟨result', added', s₂, hout', hrun', hview', -, -⟩ := parseFile_run models wf source' sound
  rw [fileOutcome, hparse] at hout
  rw [fileOutcome, hparse'] at hout'
  obtain ⟨o, ho, hout⟩ := Except.bind_eq_ok.mp hout
  obtain ⟨o', ho', hout'⟩ := Except.bind_eq_ok.mp hout'
  obtain ⟨rfl, rfl⟩ := Prod.mk.inj (Except.ok.inj hout)
  obtain ⟨rfl, rfl⟩ := Prod.mk.inj (Except.ok.inj hout')
  have same := bare_outcome_eq h ho ho'
  have objects : o.objects = o'.objects := (Binding.Outcome.mk.inj same).2.1
  rw [objects, ← hview'] at hview
  obtain rfl := injective hview
  exact ⟨_, _, s₁, hrun, hrun', Outcome.alike_verdict same source source'⟩

/-- What goes on with the value of a file and the store behind it goes on alike. -/
theorem bound_alike {S : Type} [ObjectStore S] {view : S → Region} {schema : RegionSchema}
    (models : Models view schema) (injective : Function.Injective view) (wf : schema.WellFormed)
    {s : S} (sound : (view s).Sound schema) (rest : S → Value → Compile α)
    (faultless : Compile.Faultless do
      let (result, s') ← (parseFile source s : Except Fault (Except CompileError Value × S))
      rest s' (← Compile.ofExcept result)) :
  Compile.Alike
    (do
      let (result, s') ← (parseFile source s : Except Fault (Except CompileError Value × S))
      rest s' (← Compile.ofExcept result))
    (do
      let (result, s') ← (parseFile source' s : Except Fault (Except CompileError Value × S))
      rest s' (← Compile.ofExcept result))
  := by
  obtain ⟨result, result', s', hrun, hrun', same⟩ := parseFile_alike hparse hparse' h models
    injective wf sound
  have first := Compile.lift_eq_ok.mpr hrun
  have first' := Compile.lift_eq_ok.mpr hrun'
  have go : Compile.Alike (Compile.ofExcept result >>= rest s')
      (Compile.ofExcept result' >>= rest s') := by
    apply Compile.Alike.bind ⟨result, result', rfl, rfl, same⟩
    intro value hvalue
    apply Compile.Alike.of_faultless
    apply (faultless.behind first).behind hvalue
  rw [Compile.Alike, Compile.run_bind_of_eq_ok first, Compile.run_bind_of_eq_ok first']
  apply go

/-- They have the same binary form. -/
theorem encodeData_alike {schema : RegionSchema} (wf : schema.WellFormed)
    (distinct : schema.Distinct) :
  (encodeData schema source).Alike (encodeData schema source')
  := bound_alike hparse hparse' h (Region.models wf distinct) Function.injective_id wf
    (Region.sound_empty schema)
    (fun r _ => do
      let bytes ← (r.serialize : Except Fault (Except CodecError (List UInt8)))
      Compile.ofCodec bytes)
    (faultless_encodeData wf distinct source)

/-- They declare the same schemas. -/
theorem compileSchemas_alike :
  (compileSchemas source).Alike (compileSchemas source')
  := by
  have fresh : Declarations.empty.toRegion.Sound declarationSchema := by
    rw [Declarations.toRegion_empty]
    apply Region.sound_empty
  have declarations : (parseSchema source).Alike (parseSchema source') :=
    bound_alike hparse hparse' h Declarations.models Declarations.toRegion_injective
      wellFormed_declarationSchema fresh
      (fun d value => do return (d, ← Ref.ofRoot SchemaDecl declarationSchema value))
      (faultless_parseSchema source)
  apply declarations.bind
  intro ⟨d, root⟩ hparsed
  apply Compile.Alike.of_faultless
  apply (faultless_compileSchemas source).behind hparsed

end

/-! ### Formatting -/

/-- A data file that is parsed is formatted to a text that is bound and encoded as the file is, by
every schema of a compiled schema file, and that declares the schemas the file declares.  Where the
one is refused the other is, and the messages are the same. -/
theorem Compile.alike_formatted {source : Source} {e : Expr} (h : Expr.parse 0 source = .ok e)
    (name : String) :
  ∃ text, (formatData source).run = .ok (.ok text)
    ∧ (∀ schemaFile schemas schema, (compileSchemas schemaFile).run = .ok (.ok schemas) →
        schema ∈ schemas →
        (encodeData schema source).Alike (encodeData schema ⟨name, text.toByteArray⟩))
    ∧ (compileSchemas source).Alike (compileSchemas ⟨name, text.toByteArray⟩)
  := by
  obtain ⟨wf, depth⟩ := Expr.wellFormed_of_parse h
  obtain ⟨e', hparse, same⟩ := Expr.parse_toSource 0 name wf depth
  use e.text
  constructor
  · apply Expr.formatData_eq_ok.mpr ⟨e, Expr.parseExpr_eq_ok.mpr h, rfl⟩
  constructor
  · intro schemaFile schemas schema compiled member
    obtain ⟨wellFormed, distinct⟩ := usable_of_compileSchemas compiled schema member
    apply encodeData_alike h hparse same.symm wellFormed distinct
  · apply compileSchemas_alike h hparse same.symm

/-- A file in a layout of its own, with a number where a link is wanted. -/
def looseFile : Source :=
  ⟨"d", (String.ofList ['L', 'i', 'n', 'k', ' ', '{', 'n', 'e', 'x', 't', ' ', ':', '\n', '1', ' ',
    '}']).toByteArray⟩

/-- The tree of that file. -/
def looseTree : Expr :=
  .struct (some (tokenOf 0 0 ['L', 'i', 'n', 'k'])) (spanOf 0 5 ['{'])
    [(tokenOf 0 6 ['n', 'e', 'x', 't'], .integer (tokenOf 0 13 ['1']))]

example : looseTree.text = "Link\x7bnext: 1\x7d" := by decide

theorem parse_looseFile :
  Expr.parse 0 looseFile = .ok looseTree
  := by
  have type : Identifier ['L', 'i', 'n', 'k'] := ⟨'L', _, rfl, rfl, List.all_eq_true.mp rfl⟩
  have name : Identifier ['n', 'e', 'x', 't'] := ⟨'n', _, rfl, rfl, List.all_eq_true.mp rfl⟩
  have none : Blanks [] := List.forall_mem_nil _
  have blank : Blanks [' '] := List.forall_mem_singleton.mpr (by decide)
  have line : Blanks ['\n'] := List.forall_mem_singleton.mpr (by decide)
  have one : Expression 0 ['1'] 13 _ :=
    .integer (List.cons_ne_nil _ _) (List.all_eq_true.mp rfl)
  have argument : Argument 0 (Expression 0) _ 6 _ := .mk name blank line one
  have block : Block '{' '}' (Argument 0 (Expression 0)) _ 5 _ :=
    .mk none (.cons argument .nil .none) blank
  have tree : Expression 0 _ 0 looseTree := .struct type (by decide) blank block
  apply Expr.parse_of_file _ (.mk none tree none)
  · decide
  · rw [looseFile, String.toByteArray_ofList]
    rfl

/-- The pair with its bytes in the common layout. -/
def pairText : String :=
  "Pair\x7brest: [\x7bbyte: 007\x7d], first: Cell\x7bbyte: 255\x7d\x7d"

theorem formatData_pairFile :
  (formatData (pairFile ['2', '5', '5'])).run = .ok (.ok pairText)
  := by
  apply Expr.formatData_eq_ok.mpr
  use pairTree ['2', '5', '5']
  constructor
  · apply Expr.parseExpr_eq_ok.mpr
    apply parse_pairFile (List.cons_ne_nil _ _) (List.all_eq_true.mp rfl)
  · decide

/-- A file that is refused is refused in the same words once it is formatted.  A pair is written to
the same bytes without spaces in it and with those of the common layout. -/
theorem Compile.alike_formatted_loose :
  Expr.parse 0 looseFile = .ok looseTree
    ∧ (∃ text, (formatData looseFile).run = .ok (.ok text)
      ∧ (encodeData links looseFile).Alike (encodeData links ⟨"f", text.toByteArray⟩)
      ∧ (compileSchemas looseFile).Alike (compileSchemas ⟨"f", text.toByteArray⟩))
    ∧ (formatData (pairFile ['2', '5', '5'])).run = .ok (.ok pairText)
    ∧ (encodeData pairs (pairFile ['2', '5', '5'])).run
        = .ok (.ok [1, 0, 0, 0, 2, 0, 0, 0, 1, 0, 0, 0, 0, 1, 7, 255])
    ∧ (encodeData pairs ⟨"f", pairText.toByteArray⟩).run
        = .ok (.ok [1, 0, 0, 0, 2, 0, 0, 0, 1, 0, 0, 0, 0, 1, 7, 255])
  := by
  constructor
  · apply parse_looseFile
  constructor
  · obtain ⟨text, formatted, encoded, compiled⟩ := alike_formatted parse_looseFile "f"
    use text, formatted
    constructor
    · apply encoded linksFile [links] links compileSchemas_linksFile (List.mem_singleton_self _)
    · apply compiled
  use formatData_pairFile, encodeData_pairFile
  have parsed : Expr.parse 0 (pairFile ['2', '5', '5']) = .ok (pairTree ['2', '5', '5']) :=
    parse_pairFile (List.cons_ne_nil _ _) (List.all_eq_true.mp rfl)
  obtain ⟨text, formatted, encoded, -⟩ := alike_formatted parsed "f"
  obtain rfl := Except.ok.inj (Except.ok.inj (formatData_pairFile.symm.trans formatted))
  apply Compile.Alike.run_eq_ok _ encodeData_pairFile
  apply encoded pairsFile [pairs] pairs compileSchemas_pairsFile (List.mem_singleton_self _)

end PoolGraph
