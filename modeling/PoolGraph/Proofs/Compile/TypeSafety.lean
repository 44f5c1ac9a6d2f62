import PoolGraph.Proofs.Compile.RoundTrip
import PoolGraph.Proofs.Declaration.Resolve
import PoolGraph.Proofs.Region.TypedCopies

/-!
# Type safety

`Region.Checked` says that a region arises from empty ones of its schema by allocating, by checked
stores, by binding data files, by reading bytes and by cloning.  Each of these keeps a region well
typed, so that a region of a resolved schema that arises so is well typed and can be written unless
a reference is unset or a count too large (`Region.wellTyped_of_checked`).
-/

namespace PoolGraph

namespace Region

/-- Whether a region arises from empty regions of the schema by what stores no value unchecked. -/
inductive Checked (schema : RegionSchema) : Region → Prop where
  | empty : Checked schema (empty schema)
  | allocate {r r' : Region} {name : String} {target? : Option Instance} (before : Checked schema r)
      (h : r.allocate name = .ok (target?, r')) : Checked schema r'
  | allocateStruct {r r' : Region} {struct : Nat} {target : Instance} (before : Checked schema r)
      (h : r.allocateStruct struct = .ok (target, r')) : Checked schema r'
  | assign {r r' : Region} {target : Instance} {field : Nat} {value : Value}
      (before : Checked schema r) (h : r.assign target field value = .ok r') : Checked schema r'
  /-- A file that is refused may have filled a part of the region. -/
  | bind {r r' : Region} {source : Source} {result : Except CompileError Value}
      (before : Checked schema r) (h : parseFile source r = .ok (result, r')) : Checked schema r'
  | read {r r' : Region} {bytes : List UInt8} (before : Checked schema r)
      (h : r.deserialize bytes = .ok (.ok r')) : Checked schema r'
  /-- Bytes that are refused leave the region as it was. -/
  | refuse {r : Region} {bytes : List UInt8} {e : CodecError} (before : Checked schema r)
      (h : r.deserialize bytes = .ok (.error e)) : Checked schema r
  | clone {source target : Region} {c c' : Cloner} (original : Checked schema source)
      (before : Checked schema target) (h : Cloner.start source target = .ok c)
      (copies : Cloner.Copies c c') : Checked schema c'.target

/-- Whether a region is one of the schema and is well typed. -/
structure Sound (schema : RegionSchema) (r : Region) : Prop where
  schema_eq : r.schema = schema
  regular : r.Regular
  typed : r.WellTyped

variable {schema : RegionSchema} {r r' : Region}

/-- Allocating by name keeps a region sound. -/
theorem Sound.allocate (sound : r.Sound schema) (wf : schema.WellFormed) {name : String}
    {target? : Option Instance} (h : r.allocate name = .ok (target?, r')) :
  r'.Sound schema
  where
  schema_eq := (schema_allocate h).trans sound.schema_eq
  regular := sound.regular.allocate h
  typed := sound.typed.allocate (sound.schema_eq.symm ▸ wf) h

/-- Allocating keeps a region sound. -/
theorem Sound.allocateStruct (sound : r.Sound schema) (wf : schema.WellFormed) {struct : Nat}
    {target : Instance} (h : r.allocateStruct struct = .ok (target, r')) :
  r'.Sound schema
  where
  schema_eq := (schema_allocateStruct h).trans sound.schema_eq
  regular := sound.regular.allocateStruct h
  typed := sound.typed.allocateStruct (sound.schema_eq.symm ▸ wf) h

/-- Assigning keeps a region sound. -/
theorem Sound.assign (sound : r.Sound schema) (wf : schema.WellFormed) {target : Instance}
    {field : Nat} {value : Value} (h : r.assign target field value = .ok r') :
  r'.Sound schema
  where
  schema_eq := (schema_setField (setField_of_assign h)).trans sound.schema_eq
  regular := sound.regular.setField (setField_of_assign h)
  typed := sound.typed.assign (sound.schema_eq.symm ▸ wf) sound.regular h

/-- Copying from one sound region to another keeps the other sound. -/
theorem Sound.clone {source target : Region} {c c' : Cloner} (hsource : source.Sound schema)
    (htarget : target.Sound schema) (h : Cloner.start source target = .ok c)
    (copies : Cloner.Copies c c') :
  c'.target.Sound schema
  := by
  have same : source.schema = target.schema := hsource.schema_eq.trans htarget.schema_eq.symm
  obtain ⟨c₀, begins, inv, rest, -⟩ :=
    Cloner.copying_start source.Holds same htarget.regular
  obtain rfl := Except.ok.inj (h.symm.trans begins)
  obtain ⟨inv', rest'⟩ := copies.copying hsource.regular hsource.typed.closed inv rest
  exact ⟨inv'.schema_eq.trans hsource.schema_eq, inv'.regular,
    inv'.wellTyped rest' same hsource.typed htarget.typed⟩

/-- Binding keeps a region sound. -/
theorem storeInvariant_sound (wf : schema.WellFormed) :
  StoreInvariant (Sound schema)
  where
  allocate sound h := sound.allocate wf h
  assign sound h := sound.assign wf h

/-- Each step keeps a region of a well-formed schema well typed. -/
theorem Checked.sound (h : Checked schema r) (wf : schema.WellFormed) :
  r.Sound schema
  := by
  induction h with
  | empty => exact ⟨rfl, regular_empty schema, wellTyped_empty schema⟩
  | allocate _ h sound => apply sound.allocate wf h
  | allocateStruct _ h sound => apply sound.allocateStruct wf h
  | assign _ h sound => apply sound.assign wf h
  | bind _ h sound => apply parseFile_keeps (storeInvariant_sound wf) sound h
  | read _ h sound =>
    obtain ⟨-, layout, rest, -, -, schema⟩ := deserialize_eq_ok.mp h
    exact ⟨schema.trans sound.schema_eq, regular_of_deserialize h, wellTyped_of_deserialize h⟩
  | refuse _ _ sound => apply sound
  | clone _ _ h copies original before => apply original.clone before h copies

/-- In a region of a resolved schema that arises without unchecked stores every value is of the
type of its field.  So writing the region only fails for want of a reference or for the size of a
count. -/
theorem wellTyped_of_checked {d : Declarations} {root : Ref SchemaDecl}
    {schemas : List RegionSchema} (hresolve : (d.resolve root).run = .ok (.ok schemas))
    (hschema : schema ∈ schemas) (h : Checked schema r) :
  r.WellTyped ∧ ∃ result, r.serialize = .ok result ∧ ∀ e, result = .error e → e.OfTyped
  := by
  have wf := Declarations.wellFormed_of_resolve hresolve schema hschema
  have sound := h.sound wf
  constructor
  · apply sound.typed
  · exact sound.typed.serialize (sound.schema_eq.symm ▸ wf) sound.regular

/-- The declaration of a node with a successor and rows of neighbours. -/
def nodeDeclarations : Declarations where
  fields := .ofList [⟨"next", "Node"⟩, ⟨"rows", "[][]Node"⟩]
  structs := .ofList [⟨"Node", [⟨0⟩, ⟨1⟩]⟩]
  regions := .ofList [⟨"Nodes", [⟨0⟩]⟩]
  schemas := .ofList [⟨[⟨0⟩]⟩]

/-- The schema of such nodes. -/
def nodes : RegionSchema :=
  ⟨"Nodes", [⟨"Node", [⟨"next", .struct 0⟩, ⟨"rows", .list 1⟩]⟩], [.struct 0, .list 0]⟩

theorem resolve_nodeDeclarations :
  (nodeDeclarations.resolve ⟨0⟩).run = .ok (.ok [nodes])
  := by
  have compiled : compiled? (nodeDeclarations.resolve ⟨0⟩).run = some [nodes] := by
    decide +kernel
  apply eq_of_compiled? compiled

/-- A node that is its own successor. -/
def selfLoop : Region :=
  ⟨nodes, [.ofList [[.ref ⟨0, 0⟩, .list []]]]⟩

/-- The copy of a node that was allocated and made its own successor. -/
theorem wellTyped_of_checked_selfLoop :
  selfLoop.WellTyped
    ∧ ∃ result, selfLoop.serialize = .ok result ∧ ∀ e, result = .error e → e.OfTyped
  := by
  apply wellTyped_of_checked resolve_nodeDeclarations (List.mem_singleton_self nodes)
  have new : (empty nodes).allocateStruct 0
      = .ok (⟨0, 0⟩, ⟨nodes, [.ofList [[.null, .list []]]]⟩) := rfl
  have assigned : assign ⟨nodes, [.ofList [[.null, .list []]]]⟩ ⟨0, 0⟩ 0 (.ref ⟨0, 0⟩)
      = .ok selfLoop := rfl
  have node := Checked.assign (.allocateStruct .empty new) assigned
  have start : Cloner.start selfLoop (empty nodes)
      = .ok ⟨selfLoop, empty nodes, [#[none]], []⟩ := if_pos rfl
  have copied : (Cloner.cloneInstance ⟨0, 0⟩).run ⟨selfLoop, empty nodes, [#[none]], []⟩
      = .ok (⟨0, 0⟩, ⟨selfLoop, selfLoop, [#[some 0]], []⟩) := rfl
  exact Checked.clone node .empty start (.object .none copied)

end Region

end PoolGraph
