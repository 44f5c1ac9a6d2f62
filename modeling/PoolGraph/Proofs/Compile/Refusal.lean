import PoolGraph.Compile.Basic
import PoolGraph.Proofs.Except
import PoolGraph.Proofs.Expr.Tiling
import PoolGraph.Proofs.Source.Lines

/-!
# Refusing a file

What is reported about a file is shown with the line it is about.  A diagnostic about the one file
of a run is shown without a fault (`SourceSet.report_eq`): the file is there, its table of lines
leads to a line, and columns count from one.  So a file is refused whenever what is wrong with it
points into it (`refuse_eq`), as the parser's diagnostic does (`Expr.file_of_parse_eq_error`) and as
the spans of a tree do (`Expr.file_of_mem_spans`).
-/

namespace PoolGraph

/-! ### Showing diagnostics -/

/-- What a reader sees of a diagnostic about a file. -/
def Source.rendering (source : Source) (diagnostic : Diagnostic) : String :=
  let place := source.lineAt diagnostic.span.start
  let caret := String.ofList (List.replicate (place.column - 1) ' ') ++ "^"
  s!"{source.name}:{place.line}:{place.column} - ERROR {diagnostic.message}\n" ++
    place.text ++ "\n" ++ caret

/-- A diagnostic about a file with what a reader sees of it. -/
def Source.reported (source : Source) (diagnostic : Diagnostic) : Report :=
  ⟨diagnostic, source.rendering diagnostic⟩

/-- A file shows every diagnostic, wherever it points. -/
theorem Source.render_eq (source : Source) (diagnostic : Diagnostic) :
  source.render diagnostic = .ok (source.rendering diagnostic)
  := by
  rw [render, lineInfo_eq]
  rfl

/-- A run of one file reports every diagnostic about that file. -/
theorem SourceSet.report_eq (source : Source) {diagnostic : Diagnostic}
    (own : diagnostic.span.file = 0) :
  SourceSet.report ⟨[source]⟩ diagnostic = .ok (source.reported diagnostic)
  := by
  have found : SourceSet.file ⟨[source]⟩ diagnostic.span.file = .ok source := by
    rw [own]
    rfl
  apply Except.bind_eq_ok.mpr
  use source, found
  apply Except.bind_eq_ok.mpr
  use source.rendering diagnostic, source.render_eq diagnostic
  rfl

/-! ### Refusals -/

/-- Why a file is refused about which the given is reported, as a reader sees it. -/
def CompileError.reporting (source : Source) (reported : List Diagnostic) : CompileError :=
  .diagnostics (reported.map source.reported)

/-- A file is refused without a fault for whatever points into it. -/
theorem refuse_eq (source : Source) {reported : List Diagnostic}
    (own : ∀ diagnostic ∈ reported, diagnostic.span.file = 0) :
  refuse source reported = .ok (.reporting source reported)
  := by
  have all : reported.mapM (SourceSet.mk [source]).report = .ok (reported.map source.reported) := by
    apply Except.mapM_eq_ok.mpr
    apply List.forall₂_map_right_iff.mpr
    apply List.forall₂_same.mpr
    intro diagnostic hdiagnostic
    apply SourceSet.report_eq source (own diagnostic hdiagnostic)
  apply Except.bind_eq_ok.mpr
  use reported.map source.reported, all
  rfl

namespace Expr

/-- What is wrong with a file that is no expression points into that file. -/
theorem file_of_parse_eq_error {file : Nat} {source : Source} {diagnostic : Diagnostic}
    (h : parse file source = .error diagnostic) :
  diagnostic.span.file = file
  := by
  have complaint : ∀ s, (parse.complaint file s).span.file = file := by
    intro s
    rw [parse.complaint]
    split <;> rfl
  rw [parse_eq_document] at h
  split at h
  · split at h
    · cases h
    · obtain rfl := Except.error.inj h
      apply complaint
  · obtain rfl := Except.error.inj h
    apply complaint

/-- The tokens of a tree that was parsed are in its file. -/
theorem file_of_mem_spans {file : Nat} {source : Source} {e : Expr}
    (h : parse file source = .ok e) {span : Span} (hspan : span ∈ e.spans) :
  span.file = file
  := by
  obtain ⟨text, -, hfile, -⟩ := file_of_parse h
  rw [← map_span_tokens] at hspan
  obtain ⟨token, htoken, rfl⟩ := List.mem_map.mp hspan
  apply ((tiles_of_file hfile).bounds token htoken).1

end Expr

/-- A file that is no expression is refused for what the parser reports. -/
theorem refuse_of_parse_eq_error {source : Source} {diagnostic : Diagnostic}
    (h : Expr.parse 0 source = .error diagnostic) :
  refuse source [diagnostic] = .ok (.reporting source [diagnostic])
  := by
  apply refuse_eq
  intro diagnostic' h'
  obtain rfl := List.mem_singleton.mp h'
  apply Expr.file_of_parse_eq_error h

/-- The expression of a file is read, or the file is refused for what the parser reports. -/
theorem parseExpr_run (source : Source) :
  (parseExpr source).run
    = .ok ((Expr.parse 0 source).mapError fun diagnostic => .reporting source [diagnostic])
  := by
  rw [parseExpr]
  cases hparse : Expr.parse 0 source with
  | ok e => rfl
  | error diagnostic =>
    dsimp only
    rw [refuse_of_parse_eq_error hparse]
    rfl

end PoolGraph
