/-!
# Command-line arguments

`Command.parse?` reads the arguments of the program as one of its four commands.  Every option
is given at most once, and a value may stand behind its option or be attached to it.
-/

namespace PoolGraph

/-- What the program is asked to do. -/
inductive Command where
  /-- Print the regions of a schema file. -/
  | schema (input : String) (json : Bool)
  /-- Write the binary form of a data file. -/
  | encode (schemaFile region input : String) (output? : Option String)
  /-- Print the region that a binary file spells. -/
  | decode (schemaFile region input : String) (json : Bool)
  /-- Print the expression of a data file. -/
  | parse (input : String) (text : Bool)
  deriving DecidableEq

/-- An option that takes a value.  The value of a path must not be empty. -/
structure ValueOption where
  short : Char
  long : String
  isPath : Bool

/-- The options of a command: those that take a value and the names of those that do not. -/
structure Options where
  values : List ValueOption
  flags : List String

/-- The options given on a command line, by their long names. -/
structure Given where
  values : List (String × String)
  flags : List String

namespace Given

/-- The value of an option. -/
def value? (given : Given) (name : String) : Option String :=
  given.values.lookup name

/-- Whether a flag is given. -/
def has (given : Given) (name : String) : Bool :=
  given.flags.contains name

/-- One more option with its value, unless it was given before. -/
def addValue? (given : Given) (option : ValueOption) (value : List Char) : Option Given :=
  if (given.value? option.long).isSome || (option.isPath && value.isEmpty) then none
  else some { given with values := (option.long, String.ofList value) :: given.values }

/-- One more flag, unless it was given before. -/
def addFlag? (given : Given) (name : String) : Option Given :=
  if given.has name then none else some { given with flags := name :: given.flags }

end Given

namespace Options

/-- An argument taken apart: a flag, an option with its value attached, or an option whose
value is the next argument. -/
inductive Piece where
  | flag (name : String)
  | attached (option : ValueOption) (value : List Char)
  | awaiting (option : ValueOption)

/-- Takes an argument apart, if it is an option of the command. -/
def piece? (options : Options) : List Char → Option Piece
  | '-' :: '-' :: body =>
    let name := String.ofList (body.takeWhile (· != '='))
    match options.values.find? (·.long = name), body.dropWhile (· != '=') with
    | some option, [] => some (.awaiting option)
    | some option, _ :: value => some (.attached option value)
    | none, [] => if options.flags.contains name then some (.flag name) else none
    | none, _ => none
  | '-' :: short :: body =>
    match options.values.find? (·.short = short), body with
    | some option, [] => some (.awaiting option)
    | some option, '=' :: value => some (.attached option value)
    | some option, value => some (.attached option value)
    | none, _ => none
  | _ => none

/-- Whether an argument reads as an option and so is no value.  A single hyphen is a value. -/
def isOption (argument : String) : Bool :=
  match argument.toList with
  | '-' :: _ :: _ => true
  | _ => false

/-- The options that the arguments give, beside those given before; nothing when an argument
is no option of the command or an option is given wrongly. -/
def scan? (options : Options) (given : Given) : List String → Option Given
  | [] => some given
  | argument :: rest =>
    if argument = "--" then (if rest.isEmpty then some given else none)
    else
      match options.piece? argument.toList with
      | none => none
      | some (.flag name) => do options.scan? (← given.addFlag? name) rest
      | some (.attached option value) => do options.scan? (← given.addValue? option value) rest
      | some (.awaiting option) =>
        match rest with
        | [] => none
        | value :: rest =>
          if isOption value then none
          else do options.scan? (← given.addValue? option value.toList) rest

end Options

namespace Command

def inputOption : ValueOption := ⟨'i', "input", true⟩

def schemaOption : ValueOption := ⟨'s', "schema", true⟩

def regionOption : ValueOption := ⟨'r', "region", false⟩

def outputOption : ValueOption := ⟨'o', "output", true⟩

/-- The command that the arguments ask for; nothing when they are not used as they should. -/
def parse? : List String → Option Command
  | "schema" :: rest => do
    let given ← Options.scan? ⟨[inputOption], ["json"]⟩ ⟨[], []⟩ rest
    return .schema (← given.value? "input") (given.has "json")
  | "encode" :: rest => do
    let options := [schemaOption, regionOption, inputOption, outputOption]
    let given ← Options.scan? ⟨options, []⟩ ⟨[], []⟩ rest
    return .encode (← given.value? "schema") (← given.value? "region") (← given.value? "input")
      (given.value? "output")
  | "decode" :: rest => do
    let options := [schemaOption, regionOption, inputOption]
    let given ← Options.scan? ⟨options, ["json"]⟩ ⟨[], []⟩ rest
    return .decode (← given.value? "schema") (← given.value? "region") (← given.value? "input")
      (given.has "json")
  | "parse" :: rest => do
    let given ← Options.scan? ⟨[inputOption], ["text"]⟩ ⟨[], []⟩ rest
    return .parse (← given.value? "input") (given.has "text")
  | _ => none

end Command

end PoolGraph
