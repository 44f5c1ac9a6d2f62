import PoolGraph.Proofs.Binding.Cases
import PoolGraph.Proofs.Compile.Refusal

/-!
# Binding files

`fileOutcome` says what binding a data file comes to.  A store whose operations do what those of a
region do is filled by `parseFile` as it says (`parseFile_run`), so two such stores that are seen as
one region take the same files with the same results (`parseFiles_view`).
-/

namespace PoolGraph

open Binding

/-- The value of a root, or the errors that were found. -/
def Binding.Outcome.verdict (o : Outcome (Option Value)) : Except (List Diagnostic) Value :=
  match o.result with
  | some value => if o.reported.isEmpty then .ok value else .error o.reported
  | none => .error o.reported

theorem Binding.Outcome.verdict_eq_ok {o : Outcome (Option Value)} {value : Value} :
  o.verdict = .ok value ↔ o.result = some value ∧ o.reported = []
  := by
  rw [verdict]
  cases o.result with
  | none => simp
  | some found =>
    cases o.reported with
    | nil => simp
    | cons first others => simp

/-- What is wrong with a tree that is refused was found by binding it. -/
theorem Binding.Outcome.reported_of_verdict {o : Outcome (Option Value)}
    {reported : List Diagnostic} (h : o.verdict = .error reported) :
  reported = o.reported
  := by
  rw [verdict] at h
  split at h
  · split at h
    · cases h
    · apply (Except.error.inj h).symm
  · apply (Except.error.inj h).symm

/-- What binding a data file comes to, in a region whose pools have the given sizes: its value or
why it is refused, and the objects that are added. -/
def fileOutcome (schema : RegionSchema) (size : Nat → Nat) (source : Source) :
    Except Fault (Except CompileError Value × List Added) := do
  match Expr.parse 0 source with
  | .error diagnostic => return (.error (.reporting source [diagnostic]), [])
  | .ok e =>
    let o ← outcome schema size none e
    return (o.verdict.mapError (.reporting source), o.objects)

theorem Region.sound_empty (schema : RegionSchema) :
  (Region.empty schema).Sound schema
  := ⟨rfl, regular_empty schema, wellTyped_empty schema⟩

section

variable {S : Type} [ObjectStore S] {view : S → Region} {schema : RegionSchema}

theorem bindRoot_run (models : Models view schema) (wf : schema.WellFormed) {e : Expr}
    (he : e.WellFormed) {s : S} (sound : (view s).Sound schema) :
  ∃ o s', outcome schema (view s).size none e = .ok o ∧ bindRoot s e = .ok (o.verdict, s')
    ∧ view s' = (view s).extend o.objects ∧ (view s').Sound schema
    ∧ ∀ value, o.verdict = .ok value → Fits none (view s') value
  := by
  obtain ⟨o, after, hout, hrun, ran, fits⟩ := bind_run models wf none nofun e he ⟨s, #[]⟩ sound
  use o, after.store, hout
  constructor
  · have reported : after.reported = o.reported.toArray := by
      rw [ran.reported_eq, Array.empty_append]
    rw [bindRoot, models.schema_eq s sound.schema_eq]
    apply Except.bind_eq_ok.mpr
    use (o.result, after), hrun
    rw [Outcome.verdict]
    cases o.result with
    | none =>
      dsimp only
      rw [reported]
      rfl
    | some value =>
      dsimp only
      rw [reported, List.isEmpty_toArray]
      split <;> rfl
  use ran.view_eq, ran.sound
  intro value h
  apply fits value (Outcome.verdict_eq_ok.mp h).1

/-- A file is bound as its outcome says. -/
theorem parseFile_run (models : Models view schema) (wf : schema.WellFormed) (source : Source)
    {s : S} (sound : (view s).Sound schema) :
  ∃ result added s', fileOutcome schema (view s).size source = .ok (result, added)
    ∧ parseFile source s = .ok (result, s') ∧ view s' = (view s).extend added
    ∧ (view s').Sound schema ∧ ∀ value, result = .ok value → Fits none (view s') value
  := by
  rw [fileOutcome, parseFile]
  cases hparse : Expr.parse 0 source with
  | error diagnostic =>
    have refused := refuse_of_parse_eq_error hparse
    use .error (.reporting source [diagnostic]), [], s, rfl,
      Except.bind_eq_ok.mpr ⟨_, refused, rfl⟩, rfl, sound
    rintro _ ⟨⟩
  | ok e =>
    obtain ⟨o, s', hout, hbind, hview, sound', fits⟩ := bindRoot_run models wf
      (Expr.wellFormed_of_parse hparse).1 sound
    refine ⟨_, _, s', Except.bind_eq_ok.mpr ⟨o, hout, rfl⟩, Except.bind_eq_ok.mpr ⟨_, hbind, ?_⟩,
      hview, sound', fun value h => fits value (Except.mapError_eq_ok.mp h)⟩
    cases hverdict : o.verdict with
    | ok value => rfl
    | error reported =>
      -- every error points at a token of the tree, and so into the file
      have refused : refuse source reported = .ok (.reporting source reported) := by
        apply refuse_eq
        intro diagnostic hdiagnostic
        obtain rfl := Outcome.reported_of_verdict hverdict
        have inside := (sublist_spans hout).subset (List.mem_map_of_mem hdiagnostic)
        apply Expr.file_of_mem_spans hparse inside
      exact Except.bind_eq_ok.mpr ⟨_, refused, rfl⟩

end

/-- A file is accepted with a value when it is parsed and its tree is bound to that value. -/
theorem parseFile_eq_ok_ok {S : Type} [ObjectStore S] {source : Source} {s s' : S} {value : Value} :
  parseFile source s = .ok (.ok value, s')
    ↔ ∃ e, Expr.parse 0 source = .ok e ∧ bindRoot s e = .ok (.ok value, s')
  := by
  constructor
  · intro h
    rw [parseFile] at h
    split at h
    · obtain ⟨refused, -, h⟩ := Except.bind_eq_ok.mp h
      cases Except.ok.inj h
    · next e hparse =>
      obtain ⟨⟨verdict, after⟩, hbind, h⟩ := Except.bind_eq_ok.mp h
      cases verdict with
      | ok value =>
        cases Except.ok.inj h
        use e
      | error reported =>
        obtain ⟨refused, -, h⟩ := Except.bind_eq_ok.mp h
        cases Except.ok.inj h
  · rintro ⟨e, hparse, hbind⟩
    rw [parseFile, hparse]
    apply Except.bind_eq_ok.mpr
    use (.ok value, s'), hbind
    rfl

/-! ### Files one after another -/

/-- Binds data files into a store one after another, also behind a file that is refused.  Each
result goes with the store after it. -/
def parseFiles {S : Type} [ObjectStore S] (store : S) :
    List Source → Except Fault (List (Except CompileError Value × S))
  | [] => return []
  | source :: rest => do
    let (result, store) ← parseFile source store
    return (result, store) :: (← parseFiles store rest)

/-- A store is filled by files one after another as the region is that it is seen as, in one step
for each file. -/
theorem parseFiles_view {S : Type} [ObjectStore S] {view : S → Region} {schema : RegionSchema}
    (models : Models view schema) (wf : schema.WellFormed) (distinct : schema.Distinct)
    (sources : List Source) {s : S} (sound : (view s).Sound schema) :
  ∃ steps, parseFiles s sources = .ok steps ∧ steps.length = sources.length
    ∧ parseFiles (view s) sources = .ok (steps.map fun step => (step.1, view step.2))
  := by
  induction sources generalizing s with
  | nil =>
    use [], rfl, rfl
    rfl
  | cons source rest ih =>
    obtain ⟨result, added, s', hout, hparse, hview, sound', -⟩ := parseFile_run models wf source sound
    obtain ⟨result', added', r', hout', hparse', hview', -, -⟩ := parseFile_run
      (Region.models wf distinct) wf source sound
    obtain ⟨rfl, rfl⟩ := Prod.mk.inj (Except.ok.inj (hout.symm.trans hout'))
    obtain rfl : r' = view s' := hview'.trans hview.symm
    obtain ⟨steps, hsteps, length, hsteps'⟩ := ih sound'
    use (result, s') :: steps
    constructor
    · exact Except.bind_eq_ok.mpr ⟨_, hparse, Except.bind_eq_ok.mpr ⟨_, hsteps, rfl⟩⟩
    constructor
    · apply congrArg (· + 1) length
    · exact Except.bind_eq_ok.mpr ⟨_, hparse', Except.bind_eq_ok.mpr ⟨_, hsteps', rfl⟩⟩

end PoolGraph
