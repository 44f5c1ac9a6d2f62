import PoolGraph.Proofs.Compile.Encodable
import PoolGraph.Proofs.Declaration.Faithful

/-!
# Struct names as they are declared and as they are written

A schema file may name a struct by any identifier.  In a data file the words `true` and `false` are
tried as truth values before anything else, so of the identifiers exactly the others begin a struct
literal (`Expr.parse_bracesFile_iff`).  Braces behind the name of a declared struct stand for a new
object of it, unless the name is one of the two words (`parseFile_bracesFile`).
-/

namespace PoolGraph

open Binding Grammar

/-- The words for the truth values. -/
def keywords : List String :=
  ["true", "false"]

theorem mem_keywords_iff {name : String} :
  name ∈ keywords ↔ ∃ b, name.toList = truthWord b
  := by
  rw [keywords, List.mem_cons, List.mem_singleton]
  constructor
  · rintro (rfl | rfl)
    · use true
      rfl
    · use false
      rfl
  · rintro ⟨b, h⟩
    cases b with
    | true => exact .inl (String.toList_inj.mp h)
    | false => exact .inr (String.toList_inj.mp h)

/-- A data file that holds a name with braces right behind it. -/
def bracesFile (file name : String) : Source :=
  ⟨file, (name ++ "\x7b\x7d").toByteArray⟩

/-- The struct literal of that file. -/
def bracesTree (name : String) : Expr :=
  .struct (some (tokenOf 0 0 name.toList)) (spanOf 0 (textSize name.toList) ['{']) []

/-- The complaint about the first brace of that file. -/
def strayBrace (name : String) : Diagnostic :=
  ⟨spanOf 0 (textSize name.toList) ['{'], "unexpected character"⟩

theorem data_bracesFile (file name : String) :
  (bracesFile file name).data = (name.toList ++ ['{', '}']).utf8Encode
  := by
  have text : name ++ "\x7b\x7d" = String.ofList (name.toList ++ ['{', '}']) := by
    rw [String.ofList_append, String.ofList_toList]
  rw [bracesFile, text, String.toByteArray_ofList]

namespace Expr

/-- An identifier that is no keyword begins a struct literal. -/
theorem parse_bracesFile {name : String} (hname : Identifier name.toList)
    (free : name ∉ keywords) (file : String) :
  parse 0 (bracesFile file name) = .ok (bracesTree name)
  := by
  have reserved : ∀ b, name.toList ≠ truthWord b :=
    fun b same => free (mem_keywords_iff.mpr ⟨b, same⟩)
  have braces : Block '{' '}' (Argument 0 (Expression 0)) ['{', '}']
      (0 + textSize (name.toList ++ [])) [] :=
    .mk (List.forall_mem_nil _) .nil (List.forall_mem_nil _)
  have literal := Expression.struct hname reserved (List.forall_mem_nil _) braces
  rw [List.append_nil, Nat.zero_add] at literal
  have whole := File.mk (List.forall_mem_nil _) literal (List.forall_mem_nil _)
  rw [List.nil_append, List.append_nil] at whole
  apply parse_of_file (data_bracesFile file name) whole
  show 1 ≤ maxDepth
  decide

/-- Behind a keyword the first brace is refused. -/
theorem parse_keyword {name : String} (h : name ∈ keywords) (file : String) :
  parse 0 (bracesFile file name) = .error (strayBrace name)
  := by
  rw [parse_of_text (data_bracesFile file name)]
  rw [keywords, List.mem_cons, List.mem_singleton] at h
  rcases h with rfl | rfl <;> rfl

/-- A name with braces behind it is read as a literal of a struct of that name exactly when it may
be declared and is no keyword. -/
theorem parse_bracesFile_iff (file name : String) :
  (∃ token brace, parse 0 (bracesFile file name) = .ok (.struct (some token) brace [])
      ∧ token.text = name)
    ↔ (Declarations.checkName name).run = .ok (.ok ()) ∧ name ∉ keywords
  := by
  rw [Declarations.checkName_eq_ok]
  constructor
  · rintro ⟨token, brace, hparse, rfl⟩
    cases (wellFormed_of_parse hparse).1 with
    | struct type _ _ =>
      obtain ⟨identifier, reserved⟩ := type token rfl
      constructor
      · apply identifier
      intro taken
      obtain ⟨b, same⟩ := mem_keywords_iff.mp taken
      apply reserved b same
  · rintro ⟨identifier, free⟩
    use tokenOf 0 0 name.toList, spanOf 0 (textSize name.toList) ['{']
    constructor
    · apply parse_bracesFile identifier free file
    · apply tokenOf_text_eq_iff.mpr rfl

end Expr

/-- Braces behind the name of a struct come to an object of it. -/
theorem outcome_bracesTree {schema : RegionSchema} (distinct : schema.Distinct) {id : Nat}
    {s : StructSchema} (hs : schema.structs[id]? = some s) (size : Nat → Nat) :
  outcome schema size none (bracesTree s.name)
    = .ok ⟨some (.ref ⟨id, size id⟩), [⟨id, s.zero⟩], []⟩
  := by
  have named : schema.structIndex? (tokenOf 0 0 s.name.toList).text = some id :=
    distinct.structIndex?_eq_some_iff.mpr ⟨s, hs, (tokenOf_text_eq_iff.mpr rfl).symm⟩
  have found : schema.struct id = .ok s := by
    rw [RegionSchema.struct, hs]
  rw [bracesTree, outcome, inferType_typed named]
  show (do
    let s ← schema.struct id
    _) = _
  rw [found]
  rfl

/-- Schema files name structs by identifiers. -/
theorem identifier_of_compileSchemas {source : Source} {schemas : List RegionSchema}
    (h : (compileSchemas source).run = .ok (.ok schemas)) {schema : RegionSchema}
    (member : schema ∈ schemas) {s : StructSchema} (hs : s ∈ schema.structs) :
  Identifier s.name.toList
  := by
  obtain ⟨⟨d, root⟩, hparse, h⟩ := Compile.bind_eq_ok.mp h
  obtain ⟨inRange, inside⟩ := inRange_of_parseSchema hparse
  apply Declarations.identifier_of_resolve inRange inside h member hs

/-- In an empty region of a declared schema, braces behind the name of a struct are bound to a new
object of it, unless the name is a keyword: behind that the first brace is refused and the region
stays empty.  So the names that may be written are those that may be declared, less the keywords. -/
theorem parseFile_bracesFile {source : Source} {schemas : List RegionSchema}
    {schema : RegionSchema} {id : Nat} {s : StructSchema}
    (h : (compileSchemas source).run = .ok (.ok schemas)) (member : schema ∈ schemas)
    (hs : schema.structs[id]? = some s) (file : String) :
  (s.name ∉ keywords →
    ∃ r, (Region.empty schema).allocate s.name = .ok (some ⟨id, 0⟩, r)
      ∧ parseFile (bracesFile file s.name) (Region.empty schema) = .ok (.ok (.ref ⟨id, 0⟩), r))
    ∧ (s.name ∈ keywords →
      parseFile (bracesFile file s.name) (Region.empty schema)
        = .ok (.error (.reporting (bracesFile file s.name) [strayBrace s.name]),
          Region.empty schema))
    ∧ ∀ name, (∃ token brace, Expr.parse 0 (bracesFile file name)
          = .ok (.struct (some token) brace []) ∧ token.text = name)
        ↔ (Declarations.checkName name).run = .ok (.ok ()) ∧ name ∉ keywords
  := by
  obtain ⟨wf, distinct⟩ := usable_of_compileSchemas h schema member
  have identifier := identifier_of_compileSchemas h member (List.mem_of_getElem? hs)
  constructor
  · intro free
    obtain ⟨result, added, r, hfile, hrun, rfl, -⟩ := parseFile_run (Region.models wf distinct) wf
      (bracesFile file s.name) (Region.sound_empty schema)
    rw [fileOutcome, Expr.parse_bracesFile identifier free] at hfile
    obtain ⟨o, ho, hfile⟩ := Except.bind_eq_ok.mp hfile
    obtain rfl := Except.ok.inj ((outcome_bracesTree distinct hs _).symm.trans ho)
    obtain ⟨rfl, rfl⟩ := Prod.mk.inj (Except.ok.inj hfile)
    have new := Region.allocateStruct_eq_extend (Region.regular_empty schema) hs
    rw [Region.size_empty] at hrun new
    refine ⟨_, Region.allocate_eq_ok.mpr (.inl ⟨id, _, ?_, rfl, new⟩), hrun⟩
    exact distinct.structIndex?_eq_some_iff.mpr ⟨s, hs, rfl⟩
  constructor
  · intro taken
    have refused := refuse_of_parse_eq_error (Expr.parse_keyword taken file)
    rw [parseFile, Expr.parse_keyword taken]
    apply Except.bind_eq_ok.mpr
    use CompileError.reporting (bracesFile file s.name) [strayBrace s.name], refused
    rfl
  · apply Expr.parse_bracesFile_iff file

theorem parseFile_bracesFile_link :
  (∃ r, (Region.empty links).allocate "Link" = .ok (some ⟨0, 0⟩, r)
      ∧ parseFile (bracesFile "d" "Link") (Region.empty links) = .ok (.ok (.ref ⟨0, 0⟩), r))
    ∧ ∃ token brace, Expr.parse 0 (bracesFile "d" "Link") = .ok (.struct (some token) brace [])
      ∧ token.text = "Link"
  := by
  have free : "Link" ∉ keywords := by decide
  have declared : links.structs[0]? = some ⟨"Link", [⟨"next", .struct 0⟩]⟩ := rfl
  obtain ⟨bound, -, names⟩ := parseFile_bracesFile compileSchemas_linksFile
    (List.mem_singleton_self _) declared "d"
  constructor
  · apply bound free
  · apply (names "Link").mpr ⟨rfl, free⟩

/-- The schema of a struct that is named by a keyword. -/
def truths : RegionSchema :=
  ⟨"R", [⟨"true", []⟩], []⟩

/-- A schema file that declares it. -/
def truthsFile : Source :=
  ⟨"s", (String.ofList
    ("Schemas\x7bregion:[Region\x7bname:\"R\",struct:[".toList
      ++ "Struct\x7bname:\"true\",fields:[]\x7d]\x7d]\x7d".toList)).toByteArray⟩

theorem compileSchemas_truthsFile :
  (compileSchemas truthsFile).run = .ok (.ok [truths])
  := by
  have compiled : compiled? (compileSchemas truthsFile).run = some [truths] := by
    unfold compileSchemas parseSchema parseFile
    rw [Expr.parse_of_text String.toByteArray_ofList]
    decide +kernel
  apply eq_of_compiled? compiled

/-- Not every struct that is declared can be written: one that is named `true` cannot. -/
theorem not_all_structs_written :
  ¬ ∀ (source : Source) (schemas : List RegionSchema) (schema : RegionSchema) (id : Nat)
      (s : StructSchema) (file : String), (compileSchemas source).run = .ok (.ok schemas) →
      schema ∈ schemas → schema.structs[id]? = some s →
      ∃ r, parseFile (bracesFile file s.name) (Region.empty schema) = .ok (.ok (.ref ⟨id, 0⟩), r)
  := by
  intro all
  obtain ⟨r, bound⟩ := all truthsFile [truths] truths 0 ⟨"true", []⟩ "d" compileSchemas_truthsFile
    (List.mem_singleton_self _) rfl
  have keyword : "true" ∈ keywords := .head _
  obtain ⟨e, parsed, -⟩ := parseFile_eq_ok_ok.mp bound
  rw [Expr.parse_keyword keyword] at parsed
  cases parsed

end PoolGraph
