import PoolGraph.Source.Lines

/-!
# Diagnostics

A `Diagnostic` is a message about a span.  `Source.render` shows it with the line it is about
and a caret under the first character, as a `Report` does that is handed to a reader.
-/

namespace PoolGraph

/-- A message about a span. -/
structure Diagnostic where
  span : Span
  message : String
  deriving DecidableEq

/-- A diagnostic with what a reader sees of it. -/
structure Report extends Diagnostic where
  rendered : String

/-- A diagnostic about this file as a reader sees it. -/
def Source.render (source : Source) (diagnostic : Diagnostic) : Except Fault String := do
  let place ← source.lineInfo diagnostic.span.start
  match place.column with
  | 0 => throw .noColumn
  | before + 1 =>
    let caret := String.ofList (List.replicate before ' ') ++ "^"
    return s!"{source.name}:{place.line}:{place.column} - ERROR {diagnostic.message}\n" ++
      place.text ++ "\n" ++ caret

/-- The files of one run. -/
structure SourceSet where
  files : List Source

namespace SourceSet

/-- The file at a position. -/
def file (sources : SourceSet) (id : Nat) : Except Fault Source :=
  match sources.files[id]? with
  | some source => .ok source
  | none => .error (.noFile id)

/-- Where a span of one of the files begins. -/
def lineInfo (sources : SourceSet) (span : Span) : Except Fault LineInfo := do
  (← sources.file span.file).lineInfo span.start

/-- Reports a diagnostic about one of the files. -/
def report (sources : SourceSet) (diagnostic : Diagnostic) : Except Fault Report := do
  let source ← sources.file diagnostic.span.file
  let rendered ← source.render diagnostic
  return ⟨diagnostic, rendered⟩

end SourceSet

end PoolGraph
