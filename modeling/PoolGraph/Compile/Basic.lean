import PoolGraph.Declaration.Resolve
import PoolGraph.Expr.Json
import PoolGraph.Expr.Parser
import PoolGraph.Expr.Printer
import PoolGraph.Region.Text
import PoolGraph.Region.Wire
import PoolGraph.Schema.Text

/-!
# Compiling files

The way from the bytes of files to schemas, regions and their binary form: `compileSchemas`
reads a schema file, `loadRegion` picks one region of it, `encodeData` turns a data file into
bytes and `decodeData` turns bytes into a region.
-/

namespace PoolGraph

/-- Why a file is refused about which the given is reported. -/
def refuse (source : Source) (reported : List Diagnostic) : Except Fault CompileError := do
  let sources : SourceSet := ⟨[source]⟩
  return .diagnostics (← reported.mapM sources.report)

/-- The expression of a data file. -/
def parseExpr (source : Source) : Compile Expr := do
  match Expr.parse 0 source with
  | .ok e => return e
  | .error diagnostic =>
    let refusal ← (refuse source [diagnostic] : Except Fault CompileError)
    throw refusal

/-- Binds a data file into a region.  What was stored before an error stays. -/
def parseFile {S : Type} [ObjectStore S] (source : Source) (store : S) :
    Except Fault (Except CompileError Value × S) := do
  match Expr.parse 0 source with
  | .error diagnostic => return (.error (← refuse source [diagnostic]), store)
  | .ok e =>
    let (result, store) ← bindRoot store e
    match result with
    | .ok value => return (.ok value, store)
    | .error reported => return (.error (← refuse source reported), store)

/-- The declarations of a schema file and their root. -/
def parseSchema (source : Source) : Compile (Declarations × Ref SchemaDecl) := do
  let (result, declarations) ←
    (parseFile source Declarations.empty : Except Fault (Except CompileError Value × Declarations))
  let root ← Ref.ofRoot SchemaDecl declarationSchema (← Compile.ofExcept result)
  return (declarations, root)

/-- The schemas of the regions that a schema file declares. -/
def compileSchemas (source : Source) : Compile (List RegionSchema) := do
  let (declarations, root) ← parseSchema source
  declarations.resolve root

/-- The first schema of a region with the given name. -/
def selectRegion (schemas : List RegionSchema) (name : String) :
    Except CompileError RegionSchema :=
  match schemas.find? fun schema => schema.name = name with
  | some schema => .ok schema
  | none => .error (.unknownRegion name)

/-- The schema of one region of a schema file. -/
def loadRegion (source : Source) (name : String) : Compile RegionSchema := do
  Compile.ofExcept (selectRegion (← compileSchemas source) name)

/-- The binary form of a data file. -/
def encodeData (schema : RegionSchema) (source : Source) : Compile (List UInt8) := do
  let (result, region) ←
    (parseFile source (Region.empty schema) : Except Fault (Except CompileError Value × Region))
  let _ ← Compile.ofExcept result
  let bytes ← (region.serialize : Except Fault (Except CodecError (List UInt8)))
  Compile.ofCodec bytes

/-- The region that a binary form spells. -/
def decodeData (schema : RegionSchema) (bytes : List UInt8) : Compile Region := do
  let region ←
    ((Region.empty schema).deserialize bytes : Except Fault (Except CodecError Region))
  Compile.ofCodec region

/-- The description of schemas as a JSON text. -/
def schemasJson (schemas : List RegionSchema) : Except Fault String := do
  return (Json.array (← schemas.mapM RegionSchema.toJson)).pretty

/-- The pools of a region as a JSON text. -/
def Region.json (region : Region) : Except Fault String := do
  return (← region.toJson).pretty

/-- The expression of a data file as a JSON text. -/
def exprJson (source : Source) : Compile String := do
  return (← parseExpr source).toJson.pretty

/-- A data file in the common layout. -/
def formatData (source : Source) : Compile String := do
  return (← parseExpr source).text

end PoolGraph
