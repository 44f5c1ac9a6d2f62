import PoolGraph.CommandLine.Arguments
import PoolGraph.CommandLine.FileSystem
import PoolGraph.Compile.Basic

/-!
# Running commands

`Command.run` computes what a command prints and writes from the files it reads, and
`FileSystem.execute` runs a whole command line on a file system.
-/

namespace PoolGraph

/-- Why a command fails. -/
inductive CommandError where
  | unreadable (path : String)
  | compile (error : CompileError)

/-- What a command does: the text that it prints, and the file that it writes before. -/
structure Effect where
  printed : String
  written? : Option (String × List UInt8)

namespace Command

/-- The path with its extension replaced by `bin`, or with that extension when it has none.
What follows the last dot of the file name is its extension, unless nothing stands before the
dot. -/
def binaryPath (path : String) : String :=
  let characters := path.toList.reverse
  let name := (characters.takeWhile (· != '/')).reverse
  let folder := (characters.dropWhile (· != '/')).reverse
  let stem := ((name.reverse.dropWhile (· != '.')).drop 1).reverse
  String.ofList (folder ++ (if stem.isEmpty then name else stem)) ++ ".bin"

/-- Computations of a command. -/
abbrev CommandM := ExceptT CommandError (Except Fault)

/-- The contents of a file. -/
def contents (read? : String → Option ByteArray) (path : String) : CommandM ByteArray :=
  match read? path with
  | some data => pure data
  | none => throw (.unreadable path)

/-- Passes on a failure of compilation. -/
def compiled (result : Compile α) : CommandM α :=
  ExceptT.mk do return (← result.run).mapError .compile

/-- The schema of one region of a schema file. -/
def load (read? : String → Option ByteArray) (path region : String) :
    CommandM RegionSchema := do
  compiled (loadRegion ⟨path, ← contents read? path⟩ region)

/-- What a command prints and writes. -/
def run (read? : String → Option ByteArray) : Command → CommandM Effect
  | .schema input json => do
    let schemas ← compiled (compileSchemas ⟨input, ← contents read? input⟩)
    if json then return ⟨(← (schemasJson schemas : Except Fault String)) ++ "\n", none⟩
    else
      let texts ← (schemas.mapM RegionSchema.text : Except Fault (List String))
      return ⟨String.join (texts.map (· ++ "\n")), none⟩
  | .encode schemaFile regionName input output? => do
    let layout ← load read? schemaFile regionName
    let bytes ← compiled (encodeData layout ⟨input, ← contents read? input⟩)
    let output := output?.getD (binaryPath input)
    return ⟨s!"Encoded {input} → {output}\n", some (output, bytes)⟩
  | .decode schemaFile regionName input json => do
    let layout ← load read? schemaFile regionName
    let region ← compiled (decodeData layout (← contents read? input).data.toList)
    if json then return ⟨(← (region.json : Except Fault String)) ++ "\n", none⟩
    else return ⟨← (region.text : Except Fault String), none⟩
  | .parse input text => do
    let source : Source := ⟨input, ← contents read? input⟩
    if text then return ⟨(← compiled (formatData source)) ++ "\n", none⟩
    else return ⟨(← compiled (exprJson source)) ++ "\n", none⟩

end Command

/-- How a run of the program ends. -/
structure Outcome where
  exitCode : Nat
  printed : String

/-- Runs a command line.  Wrong usage ends with code 2 and a failing command with code 1;
neither prints or writes anything. -/
def FileSystem.execute (fs : FileSystem) (arguments : List String) :
    Except Fault (Outcome × FileSystem) :=
  match Command.parse? arguments with
  | none => .ok (⟨2, ""⟩, fs)
  | some command => do
    match ← (command.run fs.read?).run with
    | .error _ => return (⟨1, ""⟩, fs)
    | .ok effect =>
      match effect.written? with
      | none => return (⟨0, effect.printed⟩, fs)
      | some (path, bytes) =>
        match fs.write? path ⟨bytes.toArray⟩ with
        | some fs => return (⟨0, effect.printed⟩, fs)
        | none => return (⟨1, ""⟩, fs)

end PoolGraph
