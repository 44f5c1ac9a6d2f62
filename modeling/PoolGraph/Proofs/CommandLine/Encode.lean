import PoolGraph.Proofs.CommandLine.Files
import PoolGraph.Proofs.Compile.Faultless
import PoolGraph.Proofs.Compile.Keywords

/-!
# Encoding files

What the command `encode` does to the files (`FileSystem.execute_encode`).  As long as it has not
come to writing it changes nothing.  When it goes through it writes the binary form of the data
file, to one file alone.  Without an output this is a file in the folder of the data file, named
after it; when the data file has the extension `bin` itself, it is overwritten
(`FileSystem.not_all_inputs_kept`).
-/

namespace PoolGraph

namespace Command

/-- A compilation that succeeds goes on with its result. -/
theorem run_compiled_of_eq_ok {x : Compile α} {f : α → CommandM β} {a : α}
    (h : x.run = .ok (.ok a)) :
  (compiled x >>= f).run = (f a).run
  := by
  rw [compiled, h]
  rfl

/-- A compilation that fails ends the command with its message. -/
theorem run_compiled_of_eq_error {x : Compile α} {f : α → CommandM β} {e : CompileError}
    (h : x.run = .ok (.error e)) :
  (compiled x >>= f).run = .ok (.error (.compile e))
  := by
  rw [compiled, h]
  rfl

/-- A file that can be read goes on with what it holds. -/
theorem run_contents_of_eq_some {read? : String → Option ByteArray} {path : String}
    {data : ByteArray} {f : ByteArray → CommandM β} (h : read? path = some data) :
  (contents read? path >>= f).run = (f data).run
  := by
  rw [contents, h]
  rfl

/-- A file that cannot be read ends the command with its path. -/
theorem run_contents_of_eq_none {read? : String → Option ByteArray} {path : String}
    {f : ByteArray → CommandM β} (h : read? path = none) :
  (contents read? path >>= f).run = .ok (.error (.unreadable path))
  := by
  rw [contents, h]
  rfl

/-- Whether the data file has the bytes as its binary form under a region of the schema file. -/
def Encodes (read? : String → Option ByteArray) (schemaFile region input : String)
    (bytes : List UInt8) : Prop :=
  ∃ definition data layout, read? schemaFile = some definition ∧ read? input = some data
    ∧ (loadRegion ⟨schemaFile, definition⟩ region).run = .ok (.ok layout)
    ∧ (encodeData layout ⟨input, data⟩).run = .ok (.ok bytes)

/-- The files and the region fix the bytes. -/
theorem Encodes.unique {read? : String → Option ByteArray} {schemaFile region input : String}
    {bytes bytes' : List UInt8} (h : Encodes read? schemaFile region input bytes)
    (h' : Encodes read? schemaFile region input bytes') :
  bytes' = bytes
  := by
  obtain ⟨definition, data, layout, readSchema, readInput, loaded, encoded⟩ := h
  obtain ⟨definition', data', layout', readSchema', readInput', loaded', encoded'⟩ := h'
  obtain rfl := Option.some.inj (readSchema.symm.trans readSchema')
  obtain rfl := Option.some.inj (readInput.symm.trans readInput')
  obtain rfl := Except.ok.inj (Except.ok.inj (loaded.symm.trans loaded'))
  apply Except.ok.inj (Except.ok.inj (encoded'.symm.trans encoded))

/-- The region of a schema file that can be loaded has a schema that binds and lays out
everything. -/
theorem usable_of_loadRegion {source : Source} {name : String} {schema : RegionSchema}
    (h : (loadRegion source name).run = .ok (.ok schema)) :
  schema.WellFormed ∧ schema.Distinct
  := by
  obtain ⟨schemas, compiled, member⟩ := mem_of_loadRegion h
  apply usable_of_compileSchemas compiled schema member

/-- The command stops at the first step that fails, or comes to writing the binary form. -/
theorem run_encode (read? : String → Option ByteArray) (schemaFile region input : String)
    (output? : Option String) :
  (∃ e, (run read? (.encode schemaFile region input output?)).run = .ok (.error e)
      ∧ ∀ bytes, ¬ Encodes read? schemaFile region input bytes)
    ∨ ∃ bytes printed, Encodes read? schemaFile region input bytes
      ∧ (run read? (.encode schemaFile region input output?)).run
        = .ok (.ok ⟨printed, some (output?.getD (binaryPath input), bytes)⟩)
  := by
  rw [run, load, bind_assoc]
  cases readSchema : read? schemaFile with
  | none =>
    refine .inl ⟨_, run_contents_of_eq_none readSchema, ?_⟩
    rintro bytes ⟨definition, data, layout, found, -⟩
    cases readSchema.symm.trans found
  | some definition =>
    rw [run_contents_of_eq_some readSchema]
    obtain ⟨e | layout, loaded⟩ := faultless_loadRegion ⟨schemaFile, definition⟩ region
    · refine .inl ⟨_, run_compiled_of_eq_error loaded, ?_⟩
      rintro bytes ⟨definition', data, layout, found, -, loaded', -⟩
      obtain rfl := Option.some.inj (readSchema.symm.trans found)
      cases Except.ok.inj (loaded.symm.trans loaded')
    · rw [run_compiled_of_eq_ok loaded]
      obtain ⟨wf, distinct⟩ := usable_of_loadRegion loaded
      cases readInput : read? input with
      | none =>
        refine .inl ⟨_, run_contents_of_eq_none readInput, ?_⟩
        rintro bytes ⟨definition, data, layout, -, found, -⟩
        cases readInput.symm.trans found
      | some data =>
        rw [run_contents_of_eq_some readInput]
        obtain ⟨e | bytes, encoded⟩ := faultless_encodeData wf distinct ⟨input, data⟩
        · refine .inl ⟨_, run_compiled_of_eq_error encoded, ?_⟩
          rintro bytes ⟨definition', data', layout', found, found', loaded', encoded'⟩
          obtain rfl := Option.some.inj (readSchema.symm.trans found)
          obtain rfl := Option.some.inj (readInput.symm.trans found')
          obtain rfl := Except.ok.inj (Except.ok.inj (loaded.symm.trans loaded'))
          cases Except.ok.inj (encoded.symm.trans encoded')
        · rw [run_compiled_of_eq_ok encoded]
          exact .inr ⟨bytes, _, ⟨definition, data, layout, readSchema, readInput, loaded, encoded⟩,
            rfl⟩

end Command

namespace FileSystem

variable {fs : FileSystem} {arguments : List String} {command : Command}

/-- A command that fails exits with 1 and leaves the files alone. -/
theorem execute_of_error {e : CommandError} (parsed : Command.parse? arguments = some command)
    (ran : (command.run fs.read?).run = .ok (.error e)) :
  fs.execute arguments = .ok (⟨1, ""⟩, fs)
  := by
  rw [execute, parsed]
  dsimp only
  rw [ran]
  rfl

/-- A command that succeeds writes its file last. -/
theorem execute_of_effect {printed path : String} {bytes : List UInt8}
    (parsed : Command.parse? arguments = some command)
    (ran : (command.run fs.read?).run = .ok (.ok ⟨printed, some (path, bytes)⟩)) :
  fs.execute arguments = .ok (match fs.write? path ⟨bytes.toArray⟩ with
    | some fs' => (⟨0, printed⟩, fs')
    | none => (⟨1, ""⟩, fs))
  := by
  rw [execute, parsed]
  dsimp only
  rw [ran]
  change (match fs.write? path ⟨bytes.toArray⟩ with
    | some fs' => _
    | none => _) = _
  cases fs.write? path ⟨bytes.toArray⟩ <;> rfl

open Command (Encodes binaryPath)

/-- The file that the binary form of a data file has by default is another one unless the data file
has the extension `bin`, and it is no file without that extension. -/
theorem Wrote.beside {fs' : FileSystem} {input : String} {own file : List String}
    {data : ByteArray} (found : fs.names? input = some own)
    (named : fs.names? (binaryPath input) = some file) (wrote : fs.Wrote fs' file data) :
  (∃ folder name, fs.names? input = some (folder ++ [name]) ∧ file = folder ++ [binaryName name]
      ∧ (fs.names? input = some file ↔ HasBinaryExtension name))
    ∧ ∀ path folder name, fs.names? path = some (folder ++ [name]) → ¬ HasBinaryExtension name →
      fs'.read? path = fs.read? path
  := by
  obtain ⟨folder, name, rfl, filled, named'⟩ := names?_binaryPath found
  obtain rfl := Option.some.inj (named.symm.trans named')
  constructor
  · use folder, name, found, rfl
    rw [found, Option.some_inj, List.append_cancel_left_eq, List.singleton_inj, eq_comm,
      binaryName_eq_self_iff]
  · intro path folder' name' found' plain
    rw [wrote.read?, if_neg]
    rintro same
    have last := (List.append_inj' (Option.some.inj (found'.symm.trans same)) rfl).2
    obtain rfl := List.singleton_inj.mp last
    apply plain (hasBinaryExtension_binaryName filled)

/-- An `encode` command goes through exactly when the data file has a binary form and the output may
be written, in a directory that exists and not in place of one.  Otherwise it changes nothing.  When
it goes through it writes this form to one file, the output.  Without an output this file stands in
the folder of the data file and has its name with the extension replaced: it is the data file exactly
when this has the extension `bin` already, and no file without that extension is touched, be it the
schema file or any other. -/
theorem execute_encode {schemaFile region input : String} {output? : Option String}
    (parsed : Command.parse? arguments = some (.encode schemaFile region input output?))
    (fs : FileSystem) :
  ∃ outcome fs', fs.execute arguments = .ok (outcome, fs')
    ∧ (outcome.exitCode = 0 ↔ (∃ bytes, Encodes fs.read? schemaFile region input bytes)
        ∧ ∃ file, fs.names? (output?.getD (binaryPath input)) = some file
          ∧ fs.isDirectory file = false ∧ fs.mayWrite file = true)
    ∧ (outcome.exitCode ≠ 0 → outcome = ⟨1, ""⟩ ∧ fs' = fs)
    ∧ (outcome.exitCode = 0 → ∃ bytes file, Encodes fs.read? schemaFile region input bytes
        ∧ fs.names? (output?.getD (binaryPath input)) = some file
        ∧ fs.Wrote fs' file ⟨bytes.toArray⟩
        ∧ (output? = none →
          (∃ folder name, fs.names? input = some (folder ++ [name])
            ∧ file = folder ++ [binaryName name]
            ∧ (fs.names? input = some file ↔ HasBinaryExtension name))
          ∧ ∀ path folder name, fs.names? path = some (folder ++ [name]) →
            ¬ HasBinaryExtension name → fs'.read? path = fs.read? path))
  := by
  rcases Command.run_encode fs.read? schemaFile region input output? with
    ⟨e, ran, never⟩ | ⟨bytes, printed, encodes, ran⟩
  · use ⟨1, ""⟩, fs, execute_of_error parsed ran
    constructor
    · apply iff_of_false Nat.one_ne_zero
      rintro ⟨⟨bytes, encodes⟩, -⟩
      apply never bytes encodes
    constructor
    · intro _
      use rfl
    · intro success
      cases success
  have executed := execute_of_effect parsed ran
  have writes := fs.isSome_write?_iff (output?.getD (binaryPath input)) ⟨bytes.toArray⟩
  rw [← writes]
  cases hwrite : fs.write? (output?.getD (binaryPath input)) ⟨bytes.toArray⟩ with
  | none =>
    rw [hwrite] at executed
    use ⟨1, ""⟩, fs, executed
    constructor
    · apply iff_of_false Nat.one_ne_zero
      rintro ⟨-, written⟩
      cases written
    constructor
    · intro _
      use rfl
    · intro success
      cases success
  | some fs' =>
    rw [hwrite] at executed
    obtain ⟨file, named, wrote⟩ := wrote_of_write? hwrite
    use ⟨0, printed⟩, fs', executed
    constructor
    · apply iff_of_true rfl
      use ⟨bytes, encodes⟩
      rfl
    constructor
    · intro failed
      apply absurd rfl failed
    · intro _
      use bytes, file, encodes, named, wrote
      rintro rfl
      obtain ⟨-, data, -, -, readInput, -⟩ := encodes
      obtain ⟨own, found, -⟩ := Option.bind_eq_some_iff.mp readInput
      apply wrote.beside found named

/-! ### A data file that is kept, and one that is overwritten -/

/-- The schema of a struct without fields. -/
def dots : RegionSchema :=
  ⟨"R", [⟨"P", []⟩], []⟩

/-- A schema file that declares it. -/
def dotsFile (file : String) : Source :=
  ⟨file, (String.ofList
    ("Schemas\x7bregion:[Region\x7bname:\"R\",struct:[".toList
      ++ "Struct\x7bname:\"P\",fields:[]\x7d]\x7d]\x7d".toList)).toByteArray⟩

/-- What a data file for it holds. -/
def dotData : ByteArray :=
  (bracesFile "d" "P").data

/-- The schema file declares the region of dots. -/
theorem compileSchemas_dotsFile {file : String} (known : file ∈ ["s", "/tmp/s"]) :
  (compileSchemas (dotsFile file)).run = .ok (.ok [dots])
  := by
  have compiled : compiled? (compileSchemas (dotsFile file)).run = some [dots] := by
    unfold compileSchemas parseSchema parseFile dotsFile
    rw [Expr.parse_of_text String.toByteArray_ofList]
    revert file
    decide +kernel
  apply eq_of_compiled? compiled

/-- A data file of one dot is encoded to four bytes. -/
theorem encodeData_dot (file : String) :
  (encodeData dots ⟨file, dotData⟩).run = .ok (.ok [1, 0, 0, 0])
  := by
  have name : Grammar.Identifier "P".toList := ⟨'P', [], rfl, rfl, List.all_eq_true.mp rfl⟩
  have parsed : Expr.parse 0 ⟨file, dotData⟩ = .ok (bracesTree "P") :=
    Expr.parse_bracesFile name (by decide) file
  apply encodeData_eq_ok.mpr
  use .ref ⟨0, 0⟩, ⟨dots, [.ofList [[]]]⟩
  constructor
  · rw [parseFile, parsed]
    rfl
  · rfl

/-- The binary form of the data file, wherever both files are. -/
theorem encodes_dots {schemaFile input : String} (known : schemaFile ∈ ["s", "/tmp/s"])
    (readSchema : fs.read? schemaFile = some (dotsFile schemaFile).data)
    (readInput : fs.read? input = some dotData) :
  Encodes fs.read? schemaFile "R" input [1, 0, 0, 0]
  := by
  use (dotsFile schemaFile).data, dotData, dots, readSchema, readInput
  constructor
  · apply Compile.bind_eq_ok.mpr
    use [dots], compileSchemas_dotsFile known
    rfl
  · apply encodeData_dot

/-- The files of a directory, of which the working directory need not be that one. -/
def scattered (working : List String) : FileSystem :=
  ofFiles working [(["tmp", "s"], (dotsFile "s").data), (["tmp", "d.txt"], dotData),
    (["tmp", "d.bin"], dotData)]

/-- Both files are given by paths from the root or the working directory, and no output. -/
def withoutOutput (schemaFile input : String) : List String :=
  ["encode", "-s", schemaFile, "-r", "R", "-i", input]

/-- The arguments name a schema file, a region and an input, and no output. -/
theorem parse_withoutOutput :
  Command.parse? (withoutOutput "/tmp/s" "../tmp/d.txt")
      = some (.encode "/tmp/s" "R" "../tmp/d.txt" none)
    ∧ Command.parse? (withoutOutput "s" "d.bin") = some (.encode "s" "R" "d.bin" none)
  := by decide +kernel

/-- The paths of the run lead where they should from the home directory. -/
theorem names?_scattered :
  (scattered ["home"]).names? "/tmp/s" = some (["tmp"] ++ ["s"])
    ∧ (scattered ["home"]).names? "../tmp/d.txt" = some (["tmp"] ++ ["d.txt"])
    ∧ (scattered ["home"]).names? (binaryPath "../tmp/d.txt") = some ["tmp", "d.bin"]
    ∧ (scattered ["home"]).names? "/tmp/./d.bin" = some ["tmp", "d.bin"]
  := by decide +kernel

theorem names?_scattered_beside :
  (scattered ["tmp"]).names? "s" = some (["tmp"] ++ ["s"])
    ∧ (scattered ["tmp"]).names? "d.bin" = some ["tmp", "d.bin"] ∧ binaryPath "d.bin" = "d.bin"
  := by decide +kernel

/-- Reading a path is looking up the file that it leads to. -/
theorem read?_of_names? {working names : List String} {path : String}
    (h : (scattered working).names? path = some names) :
  (scattered working).read? path = (scattered working).files.lookup names
  := by
  rw [read?, h]
  rfl

/-- The files of both runs have the bytes of one dot. -/
theorem encodes_scattered :
  Encodes (scattered ["home"]).read? "/tmp/s" "R" "../tmp/d.txt" [1, 0, 0, 0]
    ∧ Encodes (scattered ["tmp"]).read? "s" "R" "d.bin" [1, 0, 0, 0]
  := by
  obtain ⟨schemaThere, inputThere, -⟩ := names?_scattered
  obtain ⟨schemaHere, inputHere, -⟩ := names?_scattered_beside
  constructor
  · apply encodes_dots (.tail _ (.head _)) (read?_of_names? schemaThere) (read?_of_names? inputThere)
  · apply encodes_dots (.head _) (read?_of_names? schemaHere) (read?_of_names? inputHere)

/-- From a directory without files, a data file named by a path through others is encoded into a
file beside it, and stays.  One with the extension `bin` is overwritten. -/
theorem execute_encode_scattered :
  (∃ outcome fs', (scattered ["home"]).execute (withoutOutput "/tmp/s" "../tmp/d.txt")
        = .ok (outcome, fs') ∧ outcome.exitCode = 0
      ∧ fs'.read? "/tmp/./d.bin" = some ⟨#[1, 0, 0, 0]⟩
      ∧ fs'.read? "../tmp/d.txt" = some dotData ∧ fs'.read? "/tmp/s" = some (dotsFile "s").data)
    ∧ ∃ outcome fs', (scattered ["tmp"]).execute (withoutOutput "s" "d.bin") = .ok (outcome, fs')
      ∧ outcome.exitCode = 0 ∧ fs'.read? "d.bin" = some ⟨#[1, 0, 0, 0]⟩
      ∧ fs'.read? "s" = some (dotsFile "s").data
  := by
  obtain ⟨parsedThere, parsedHere⟩ := parse_withoutOutput
  obtain ⟨encodesThere, encodesHere⟩ := encodes_scattered
  have unlike : ¬ HasBinaryExtension "s" ∧ ¬ HasBinaryExtension "d.txt" := by
    rw [← binaryName_eq_self_iff, ← binaryName_eq_self_iff]
    decide
  constructor
  · obtain ⟨schemaFile, input, output, other⟩ := names?_scattered
    obtain ⟨outcome, fs', executed, success, -, effect⟩ :=
      execute_encode parsedThere (scattered ["home"])
    have ended : outcome.exitCode = 0 := by
      apply success.mpr
      use ⟨_, encodesThere⟩, ["tmp", "d.bin"], output
      decide
    obtain ⟨bytes, file, encodes, named, wrote, beside⟩ := effect ended
    obtain rfl := encodesThere.unique encodes
    obtain rfl := Option.some.inj (output.symm.trans named)
    use outcome, fs', executed, ended
    constructor
    · rw [wrote.read?, if_pos other]
      rfl
    constructor
    · rw [(beside rfl).2 _ _ _ input unlike.2, read?_of_names? input]
      rfl
    · rw [(beside rfl).2 _ _ _ schemaFile unlike.1, read?_of_names? schemaFile]
      rfl
  · obtain ⟨schemaFile, input, same⟩ := names?_scattered_beside
    obtain ⟨outcome, fs', executed, success, -, effect⟩ :=
      execute_encode parsedHere (scattered ["tmp"])
    rw [Option.getD_none, same] at success effect
    have ended : outcome.exitCode = 0 := by
      apply success.mpr
      use ⟨_, encodesHere⟩, ["tmp", "d.bin"], input
      decide
    obtain ⟨bytes, file, encodes, named, wrote, beside⟩ := effect ended
    obtain rfl := encodesHere.unique encodes
    use outcome, fs', executed, ended
    constructor
    · rw [wrote.read?, if_pos named]
      obtain rfl := Option.some.inj (input.symm.trans named)
      rfl
    · rw [(beside rfl).2 _ _ _ schemaFile unlike.1, read?_of_names? schemaFile]
      rfl

/-- An `encode` command that goes through need not keep its data file: without an output it
overwrites one with the extension `bin`. -/
theorem not_all_inputs_kept :
  ¬ ∀ (fs fs' : FileSystem) (arguments : List String) (schemaFile region input : String)
      (outcome : Outcome),
      Command.parse? arguments = some (.encode schemaFile region input none) →
      fs.execute arguments = .ok (outcome, fs') → outcome.exitCode = 0 →
      ∃ file data, fs.Wrote fs' file data
        ∧ fs.names? input ≠ some file ∧ fs.names? schemaFile ≠ some file
  := by
  intro all
  obtain ⟨schemaFile, input, same⟩ := names?_scattered_beside
  obtain ⟨-, parsed⟩ := parse_withoutOutput
  obtain ⟨-, ours⟩ := encodes_scattered
  have written : ((scattered ["tmp"]).write? (binaryPath "d.bin") ⟨#[1, 0, 0, 0]⟩).isSome := by
    rw [same]
    apply (isSome_write?_iff _ _ _).mpr
    use ["tmp", "d.bin"], input
    decide
  obtain ⟨fs', written⟩ := Option.isSome_iff_exists.mp written
  obtain ⟨file, named, wrote⟩ := wrote_of_write? written
  have executed : ∃ printed,
      (scattered ["tmp"]).execute (withoutOutput "s" "d.bin") = .ok (⟨0, printed⟩, fs') := by
    rcases Command.run_encode (scattered ["tmp"]).read? "s" "R" "d.bin" none with
      ⟨e, -, never⟩ | ⟨bytes, printed, encodes, ran⟩
    · apply absurd ours (never _)
    · obtain rfl := ours.unique encodes
      have executed := execute_of_effect parsed ran
      rw [Option.getD_none, written] at executed
      use printed, executed
  obtain ⟨printed, executed⟩ := executed
  obtain ⟨other, data, wrote', apart, -⟩ := all _ _ _ _ _ _ _ parsed executed rfl
  have kept : fs'.read? "d.bin" = some dotData := by
    rw [wrote'.read?, if_neg apart, read?_of_names? input]
    rfl
  rw [same] at named
  rw [wrote.read?, if_pos named] at kept
  obtain rfl := Option.some.inj (input.symm.trans named)
  have size := congrArg ByteArray.size (Option.some.inj kept)
  revert size
  decide

end FileSystem

end PoolGraph
