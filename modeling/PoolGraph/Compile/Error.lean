import PoolGraph.Schema.Error
import PoolGraph.Source.Diagnostic
import PoolGraph.Text.Quoted
import PoolGraph.Wire.Error

/-!
# Failures of compilation

`CompileError` lists why a schema file or a data file is refused, and `CompileError.message`
words each cause.
-/

namespace PoolGraph

/-- Why a file is refused. -/
inductive CompileError where
  /-- Errors at places of the file. -/
  | diagnostics (reports : List Report)
  /-- The root of the file is of another struct or kind. -/
  | unexpectedRoot (expected found : String)
  /-- The name is no identifier. -/
  | invalidIdentifier (name : String)
  /-- The type of a field is no type reference. -/
  | invalidTypeRef (reference field : String)
  /-- The type reference of a field names no type. -/
  | unknownType (reference field struct : String)
  /-- Two regions have one name. -/
  | duplicateRegion (name : String)
  /-- No region has the name. -/
  | unknownRegion (name : String)
  | schema (error : SchemaError)
  | codec (error : CodecError)

/-- The wording of a failure. -/
def CompileError.message : CompileError → String
  | .diagnostics reports => "\n".intercalate (reports.map Report.rendered)
  | .unexpectedRoot expected found =>
    s!"Expected the root value to be a {expected}, found {found}"
  | .invalidIdentifier name => "Invalid identifier " ++ Text.json name
  | .invalidTypeRef reference field =>
    "Malformed type reference " ++ Text.json reference ++ " for field " ++ Text.json field
  | .unknownType reference field struct =>
    "The type " ++ Text.json reference ++ " is not defined for field " ++ Text.json field ++
      " of " ++ Text.json struct
  | .duplicateRegion name => "The region " ++ Text.json name ++ " is defined twice"
  | .unknownRegion name => "No region named " ++ Text.json name
  | .schema error => error.message
  | .codec error => error.message

/-- Computations that may refuse a file, or meet a fault. -/
abbrev Compile := ExceptT CompileError (Except Fault)

/-- Passes on a failure of compilation. -/
def Compile.ofExcept (result : Except CompileError α) : Compile α :=
  ExceptT.mk (pure result)

/-- Passes on a failure of the binary form. -/
def Compile.ofCodec (result : Except CodecError α) : Compile α :=
  Compile.ofExcept (result.mapError .codec)

/-- Passes on a failure of schemas. -/
def Compile.ofSchema (result : Except SchemaError α) : Compile α :=
  Compile.ofExcept (result.mapError .schema)

end PoolGraph
