import PoolGraph.CommandLine.Run

/-!
# The program

`main` gives `Command.run` the files that the command reads, then writes and prints what it
computes.
-/

namespace PoolGraph

/-- The paths that a command reads. -/
def Command.inputs : Command → List String
  | .schema input _ => [input]
  | .encode schemaFile _ input _ => [schemaFile, input]
  | .decode schemaFile _ input _ => [schemaFile, input]
  | .parse input _ => [input]

/-- The contents of those files that can be read. -/
def readFiles : List String → IO (List (String × ByteArray))
  | [] => return []
  | path :: rest => do
    let found ← try pure [(path, ← IO.FS.readBinFile path)] catch _ => pure []
    return found ++ (← readFiles rest)

/-- Runs a command and tells its exit code. -/
def Command.perform (command : Command) : IO UInt32 := do
  let files ← readFiles command.inputs
  match (command.run fun path => files.lookup path).run with
  | .error fault =>
    IO.eprintln (fault.message?.getD "internal error")
    return 101
  | .ok (.error (.unreadable path)) =>
    IO.eprintln s!"cannot read {path}"
    return 1
  | .ok (.error (.compile error)) =>
    IO.eprintln error.message
    return 1
  | .ok (.ok effect) =>
    try
      match effect.written? with
      | some (path, bytes) => IO.FS.writeBinFile path ⟨bytes.toArray⟩
      | none => pure ()
      IO.print effect.printed
      return 0
    catch error =>
      IO.eprintln (toString error)
      return 1

end PoolGraph

def main (arguments : List String) : IO UInt32 :=
  match PoolGraph.Command.parse? arguments with
  | some command => command.perform
  | none => do
    IO.eprintln "usage: schema | encode | decode | parse, each with its options"
    return 2
