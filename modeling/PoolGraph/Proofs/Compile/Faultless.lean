import PoolGraph.Proofs.Declaration.Binding
import PoolGraph.Proofs.Declaration.Faultless
import PoolGraph.Proofs.Declaration.Names
import PoolGraph.Proofs.Expr.Checked
import PoolGraph.Proofs.Region.Filling
import PoolGraph.Proofs.Region.Texts

/-!
# The way through files meets no fault

Whatever bytes a schema file and a data file hold, compiling the one and writing or reading the
other either goes through or gives a `CompileError`; no lookup on the way misses
(`faultless_pipeline`).  What is compiled are schemas that bind and lay out everything
(`usable_of_compileSchemas`), and what is read can be shown.  Objects and values are found by their
numbers since every region on the way has a pool for each struct and a value for each field
(`Region.Regular`).  The parser meets no fault either when it counts its levels and slices its files
(`Expr.parseChecked_eq`), nor does the report of what it refuses (`refuse_eq`).
-/

namespace PoolGraph

/-! ### Expressions of files -/

/-- A file is read as an expression or refused. -/
theorem faultless_parseExpr (source : Source) :
  (parseExpr source).Faultless
  := ⟨_, parseExpr_run source⟩

/-- A file is formatted or refused. -/
theorem faultless_formatData (source : Source) :
  (formatData source).Faultless
  := by
  apply (faultless_parseExpr source).bind
  intro e _
  apply Compile.Faultless.pure

theorem Region.Sound.lt_length_of_holds {schema : RegionSchema} {r : Region}
    (sound : r.Sound schema) {target : Instance} (h : r.Holds target) :
  target.struct < schema.structs.length
  := by
  rw [← sound.schema_eq, ← sound.regular.length_pools]
  apply h.lt_length_pools

/-! ### Schema files -/

/-- A root that refers to a declaration is accepted or refused, but looked up without a fault. -/
theorem faultless_ofRoot [Declared α] {schema : RegionSchema} {value : Value}
    (h : ∀ target, value = .ref target → target.struct < schema.structs.length) :
  (Ref.ofRoot α schema value).Faultless
  := by
  cases value with
  | ref target =>
    have inside := h target rfl
    have found := RegionSchema.struct_eq_ok.mpr (List.getElem?_eq_getElem inside)
    rw [Ref.ofRoot]
    split
    · apply Compile.Faultless.pure
    · apply (Compile.Faultless.lift ⟨_, found⟩).bind
      intro s _
      apply Compile.Faultless.throw
  | _ => apply Compile.Faultless.throw

theorem eq_of_ofRoot [Declared α] {schema : RegionSchema} {value : Value} {root : Ref α}
    (h : (Ref.ofRoot α schema value).run = .ok (.ok root)) :
  value = .ref ⟨Declared.struct α, root.index⟩
  := by
  cases value with
  | ref target =>
    obtain ⟨struct, index⟩ := target
    rw [Ref.ofRoot] at h
    split at h
    · next here =>
      obtain rfl := here
      obtain rfl := Except.ok.inj (Except.ok.inj h)
      rfl
    · obtain ⟨found, -, h⟩ := Compile.bind_eq_ok.mp h
      cases Except.ok.inj h
  | _ => cases Except.ok.inj h

/-- Declarations bound from a file are sound, and a root of the file is among them. -/
theorem parseFile_declarations (source : Source) :
  ∃ result d, parseFile source Declarations.empty = .ok (result, d)
    ∧ d.toRegion.Sound declarationSchema
    ∧ ∀ target, result = .ok (.ref target) → d.toRegion.Holds target
  := by
  have fresh : Declarations.empty.toRegion.Sound declarationSchema := by
    rw [Declarations.toRegion_empty]
    apply Region.sound_empty
  obtain ⟨result, added, d, -, hparse, -, sound, fits⟩ := parseFile_run Declarations.models
    wellFormed_declarationSchema source fresh
  use result, d, hparse, sound
  intro target h
  obtain ⟨type, -, typed⟩ := (fits _ h).typed
  apply typed.holds (.here target)

theorem faultless_parseSchema (source : Source) :
  (parseSchema source).Faultless
  := by
  obtain ⟨result, d, hparse, sound, within⟩ := parseFile_declarations source
  apply (Compile.Faultless.lift ⟨_, hparse⟩).bind
  intro step hstep
  obtain rfl := Except.ok.inj (hparse.symm.trans (Compile.lift_eq_ok.mp hstep))
  apply (Compile.Faultless.ofExcept result).bind
  intro value hvalue
  obtain rfl := Compile.ofExcept_eq_ok.mp hvalue
  apply Compile.Faultless.bind
  · apply faultless_ofRoot
    rintro target rfl
    apply sound.lt_length_of_holds (within target rfl)
  · intro root _
    apply Compile.Faultless.pure

theorem inRange_of_parseSchema {source : Source} {d : Declarations} {root : Ref SchemaDecl}
    (h : (parseSchema source).run = .ok (.ok (d, root))) :
  d.InRange ∧ root.index < d.schemas.size
  := by
  obtain ⟨result, d', hparse, sound, within⟩ := parseFile_declarations source
  obtain ⟨step, hstep, parsed⟩ := Compile.bind_eq_ok.mp h
  obtain rfl := Except.ok.inj (hparse.symm.trans (Compile.lift_eq_ok.mp hstep))
  obtain ⟨value, hvalue, accepted⟩ := Compile.bind_eq_ok.mp parsed
  obtain ⟨root', hroot, last⟩ := Compile.bind_eq_ok.mp accepted
  obtain ⟨rfl, rfl⟩ := Prod.mk.inj (Except.ok.inj (Except.ok.inj last))
  obtain rfl := eq_of_ofRoot hroot
  constructor
  · apply Declarations.inRange_of_closed sound.typed.closed
  rw [← d'.size_toRegion.2.2.2]
  apply within _ (Compile.ofExcept_eq_ok.mp hvalue)

theorem faultless_compileSchemas (source : Source) :
  (compileSchemas source).Faultless
  := by
  apply (faultless_parseSchema source).bind
  intro ⟨d, root⟩ h
  obtain ⟨inRange, inside⟩ := inRange_of_parseSchema h
  apply Declarations.faultless_resolve inRange inside

theorem usable_of_compileSchemas {source : Source} {schemas : List RegionSchema}
    (h : (compileSchemas source).run = .ok (.ok schemas)) :
  ∀ schema ∈ schemas, schema.WellFormed ∧ schema.Distinct
  := by
  obtain ⟨⟨d, root⟩, -, h⟩ := Compile.bind_eq_ok.mp h
  intro schema hschema
  constructor
  · apply Declarations.wellFormed_of_resolve h schema hschema
  · apply Declarations.distinct_of_resolve h schema hschema

theorem faultless_loadRegion (source : Source) (name : String) :
  (loadRegion source name).Faultless
  := by
  apply (faultless_compileSchemas source).bind
  intro schemas _
  apply Compile.Faultless.ofExcept

theorem mem_of_loadRegion {source : Source} {name : String} {schema : RegionSchema}
    (h : (loadRegion source name).run = .ok (.ok schema)) :
  ∃ schemas, (compileSchemas source).run = .ok (.ok schemas) ∧ schema ∈ schemas
  := by
  obtain ⟨schemas, hschemas, h⟩ := Compile.bind_eq_ok.mp h
  have found := Compile.ofExcept_eq_ok.mp h
  unfold selectRegion at found
  split at found
  · next hfind =>
    obtain rfl := Except.ok.inj found
    use schemas, hschemas
    refine List.mem_of_find?_eq_some hfind
  · cases found

/-! ### Data files and bytes -/

section

variable {schema : RegionSchema} (wf : schema.WellFormed)

include wf

theorem faultless_encodeData (distinct : schema.Distinct) (source : Source) :
  (encodeData schema source).Faultless
  := by
  obtain ⟨result, added, r, -, hparse, -, sound, -⟩ := parseFile_run (Region.models wf distinct) wf
    source (Region.sound_empty schema)
  apply (Compile.Faultless.lift ⟨_, hparse⟩).bind
  intro step hstep
  obtain rfl := Except.ok.inj (hparse.symm.trans (Compile.lift_eq_ok.mp hstep))
  apply (Compile.Faultless.ofExcept result).bind
  intro value _
  obtain ⟨bytes, hbytes, -⟩ := sound.typed.serialize (sound.schema_eq.symm ▸ wf) sound.regular
  apply (Compile.Faultless.lift ⟨_, hbytes⟩).bind
  intro _ _
  apply Compile.Faultless.ofExcept

/-- What was bound of a data file is regular, also where the file is refused. -/
theorem exists_regular_of_parseFile (distinct : schema.Distinct) (source : Source) :
  ∃ result r, parseFile source (Region.empty schema) = .ok (result, r) ∧ r.Regular
  := by
  obtain ⟨result, added, r, -, hparse, -, sound, -⟩ := parseFile_run (Region.models wf distinct) wf
    source (Region.sound_empty schema)
  use result, r, hparse, sound.regular

/-- Bytes are read in place or refused, with and without the check of the sizes. -/
theorem exists_fill (checked : Bool) (bytes : List UInt8) :
  ∃ result, (Region.empty schema).fill checked bytes = .ok result
  := by
  obtain ⟨layout, hlayout⟩ := wf.layout
  have regular := Region.regular_empty schema
  use (Region.empty schema).settled ((Region.empty schema).readWith checked layout bytes)
  apply Region.fill_eq regular (Region.isEmpty_empty schema) hlayout

theorem faultless_decodeData (bytes : List UInt8) :
  (decodeData schema bytes).Faultless
  := by
  obtain ⟨layout, hlayout⟩ := wf.layout
  have result := Region.exists_deserialize (r := Region.empty schema) hlayout bytes
  apply (Compile.Faultless.lift result).bind
  intro _ _
  apply Compile.Faultless.ofExcept

end

/-- What is read is regular, and can be listed and shown as JSON. -/
theorem shown_of_decodeData {schema : RegionSchema} {bytes : List UInt8} {r : Region}
    (h : (decodeData schema bytes).run = .ok (.ok r)) :
  r.Regular ∧ (∃ text, r.text = .ok text) ∧ ∃ json, r.json = .ok json
  := by
  have read := decodeData_eq_ok.mp h
  have typed := Region.wellTyped_of_deserialize read
  have regular := Region.regular_of_deserialize read
  obtain ⟨json, hjson⟩ := typed.toJson regular
  have shown : r.json = .ok json.pretty := Except.bind_eq_ok.mpr ⟨json, hjson, rfl⟩
  use regular, typed.text regular, json.pretty

/-- Parsing any file passes all its checks, and the file is read, formatted or refused.  Compiling a
schema file meets no fault, and with any schema that comes out of it neither does writing a data
file, reading bytes, in place too, or showing what was read.  The regions that are bound on the way,
also those of files that are refused, and those that are read have a pool for each struct and a
value for each field. -/
theorem faultless_pipeline (schemaFile : Source) (name : String) :
  (∀ file source, Expr.parseChecked file source = .ok (Expr.parse file source))
    ∧ (∀ source, (parseExpr source).Faultless ∧ (formatData source).Faultless)
    ∧ (compileSchemas schemaFile).Faultless ∧ (loadRegion schemaFile name).Faultless
    ∧ ∀ schema, (loadRegion schemaFile name).run = .ok (.ok schema)
        ∨ (∃ schemas, (compileSchemas schemaFile).run = .ok (.ok schemas) ∧ schema ∈ schemas) →
      (∀ data, (encodeData schema data).Faultless
          ∧ ∃ result r, parseFile data (Region.empty schema) = .ok (result, r) ∧ r.Regular)
        ∧ ∀ bytes, (decodeData schema bytes).Faultless
          ∧ (∀ checked, ∃ result, (Region.empty schema).fill checked bytes = .ok result)
          ∧ ∀ r, (decodeData schema bytes).run = .ok (.ok r) →
            r.Regular ∧ (∃ text, r.text = .ok text) ∧ ∃ json, r.json = .ok json
  := by
  constructor
  · apply Expr.parseChecked_eq
  constructor
  · intro source
    constructor
    · apply faultless_parseExpr
    · apply faultless_formatData
  constructor
  · apply faultless_compileSchemas schemaFile
  constructor
  · apply faultless_loadRegion schemaFile name
  · intro schema h
    obtain ⟨schemas, hschemas, member⟩ := h.elim mem_of_loadRegion id
    obtain ⟨wf, distinct⟩ := usable_of_compileSchemas hschemas schema member
    constructor
    · intro data
      constructor
      · apply faultless_encodeData wf distinct
      · apply exists_regular_of_parseFile wf distinct
    · intro bytes
      constructor
      · apply faultless_decodeData wf bytes
      constructor
      · intro checked
        apply exists_fill wf
      · intro r
        apply shown_of_decodeData

theorem faultless_pipeline_weights :
  (∀ data, (encodeData weights data).Faultless
      ∧ ∃ result r, parseFile data (Region.empty weights) = .ok (result, r) ∧ r.Regular)
    ∧ ∀ bytes, (decodeData weights bytes).Faultless
      ∧ (∀ checked, ∃ result, (Region.empty weights).fill checked bytes = .ok result)
      ∧ ∀ r, (decodeData weights bytes).run = .ok (.ok r) →
        r.Regular ∧ (∃ text, r.text = .ok text) ∧ ∃ json, r.json = .ok json
  := by
  apply (faultless_pipeline weightsFile "R").2.2.2.2
  exact .inr ⟨[weights], compileSchemas_weightsFile, List.mem_singleton_self _⟩

end PoolGraph
