import PoolGraph.Compile.Basic
import PoolGraph.Proofs.Binding.Invariant
import PoolGraph.Proofs.Compile.Success
import PoolGraph.Proofs.Expr.Parse
import PoolGraph.Proofs.Region.RoundTrip

/-!
# Data files through bytes

What a data file is bound to comes back from its binary form with the numbers in single-precision
slots rounded.  The binder only asks that such a number does not round to infinity, so it can
store one that does not come back; `decodeData_encodeData` says when nothing is lost.
-/

namespace PoolGraph

/-! ### What the steps give -/

/-- What the binder does to a region keeps it regular and of its schema. -/
theorem Region.storeInvariant_regular (schema : RegionSchema) :
  StoreInvariant fun (r : Region) => r.Regular ∧ r.schema = schema
  where
  allocate := by
    rintro r r' name target? ⟨regular, rfl⟩ h
    constructor
    · apply regular.allocate h
    · apply Region.schema_allocate h
  assign := by
    rintro r r' target field value ⟨regular, rfl⟩ h
    have stored := Region.setField_of_assign h
    constructor
    · apply regular.setField stored
    · apply Region.schema_setField stored

/-- What the operations of a store keep holds behind a file, also behind one that is refused. -/
theorem parseFile_keeps {S : Type} [ObjectStore S] {P : S → Prop} (inv : StoreInvariant P)
    {source : Source} {store store' : S} {result : Except CompileError Value} (hs : P store)
    (h : parseFile source store = .ok (result, store')) :
  P store'
  := by
  unfold parseFile at h
  split at h
  · obtain ⟨refused, -, h⟩ := Except.bind_eq_ok.mp h
    obtain ⟨-, rfl⟩ := Prod.mk.inj (Except.ok.inj h)
    apply hs
  · next e _ =>
    obtain ⟨⟨verdict, store₁⟩, hbind, h⟩ := Except.bind_eq_ok.mp h
    have kept := inv.bindRoot hs hbind
    cases verdict with
    | ok value =>
      obtain ⟨-, rfl⟩ := Prod.mk.inj (Except.ok.inj h)
      apply kept
    | error reported =>
      obtain ⟨refused, -, h⟩ := Except.bind_eq_ok.mp h
      obtain ⟨-, rfl⟩ := Prod.mk.inj (Except.ok.inj h)
      apply kept

/-- A file is written as the region that it is bound to is. -/
theorem encodeData_eq_ok {schema : RegionSchema} {source : Source} {b : List UInt8} :
  (encodeData schema source).run = .ok (.ok b)
    ↔ ∃ value r, parseFile source (Region.empty schema) = .ok (.ok value, r)
      ∧ r.serialize = .ok (.ok b)
  := by
  rw [encodeData, Compile.bind_eq_ok]
  constructor
  · rintro ⟨⟨result, r⟩, hparse, h⟩
    obtain ⟨value, hvalue, h⟩ := Compile.bind_eq_ok.mp h
    obtain ⟨bytes, hbytes, hcodec⟩ := Compile.bind_eq_ok.mp h
    obtain rfl := Compile.ofExcept_eq_ok.mp hvalue
    obtain rfl := Compile.ofCodec_eq_ok.mp hcodec
    use value, r
    constructor
    · apply Compile.lift_eq_ok.mp hparse
    · apply Compile.lift_eq_ok.mp hbytes
  · rintro ⟨value, r, hparse, hbytes⟩
    use (Except.ok value, r)
    constructor
    · apply Compile.lift_eq_ok.mpr hparse
    refine Compile.bind_eq_ok.mpr ⟨value, rfl, ?_⟩
    exact Compile.bind_eq_ok.mpr ⟨_, Compile.lift_eq_ok.mpr hbytes, rfl⟩

/-- Bytes are read into an empty region. -/
theorem decodeData_eq_ok {schema : RegionSchema} {bytes : List UInt8} {r : Region} :
  (decodeData schema bytes).run = .ok (.ok r)
    ↔ (Region.empty schema).deserialize bytes = .ok (.ok r)
  := by
  rw [decodeData, Compile.bind_eq_ok]
  constructor
  · rintro ⟨result, hread, h⟩
    obtain rfl := Compile.ofCodec_eq_ok.mp h
    apply Compile.lift_eq_ok.mp hread
  · intro h
    use Except.ok r, Compile.lift_eq_ok.mpr h
    rfl

/-! ### A file with one weight -/

/-- Structs with one single-precision slot. -/
def weights : RegionSchema :=
  ⟨"R", [⟨"P", [⟨"x", .float .w32⟩]⟩], []⟩

/-- The region with one weight. -/
def weight (x : Binary64) : Region :=
  ⟨weights, [⟨#[[.float x]]⟩]⟩

/-- A file with one weight. -/
def weightFile (digits : List Char) : Source :=
  ⟨"d", (String.ofList (['P', '{', 'x', ':', ' '] ++ digits ++ ['}'])).toByteArray⟩

/-- The argument of that file. -/
def weightArgument (digits : List Char) : Token × Expr :=
  (Grammar.tokenOf 0 2 ['x'], .integer (Grammar.tokenOf 0 5 digits))

/-- The tree of that file. -/
def weightTree (digits : List Char) : Expr :=
  .struct (some (Grammar.tokenOf 0 0 ['P'])) (Grammar.spanOf 0 1 ['{']) [weightArgument digits]

section

open Grammar

variable {digits : List Char} {x : Binary64}

/-- The file of a weight is parsed as one struct literal. -/
theorem parse_weightFile (nonempty : digits ≠ []) (all : ∀ c ∈ digits, isDigit c = true) :
  Expr.parse 0 (weightFile digits) = .ok (weightTree digits)
  := by
  have type : Identifier ['P'] := ⟨'P', [], rfl, by decide, List.forall_mem_nil _⟩
  have name : Identifier ['x'] := ⟨'x', [], rfl, by decide, List.forall_mem_nil _⟩
  have none : Blanks [] := List.forall_mem_nil _
  have blank : Blanks [' '] := List.forall_mem_singleton.mpr (by decide)
  have argument : Argument 0 (Expression 0) (['x'] ++ [] ++ ':' :: ([' '] ++ digits)) 2
      (weightArgument digits) := .mk name none blank (.integer nonempty all)
  have block : Block '{' '}' (Argument 0 (Expression 0)) _ 1 [weightArgument digits] :=
    .mk none (.cons argument .nil .none) none
  have tree : Expression 0 _ 0 (weightTree digits) := .struct type (by decide) none block
  apply Expr.parse_of_file _ (.mk none tree none)
  · simp [weightTree, weightArgument, Expr.depth, argumentsDepth, maxDepth]
  · rw [weightFile, String.toByteArray_ofList]
    simp only [List.nil_append, List.append_nil, List.cons_append]

theorem bind_weight
    (h : Binding.numberOf weights (.float .w32) (String.ofList digits) = .ok (.ok (.float x)))
    (s : Binding.State Region) :
  Binding.bind weights (some (.float .w32)) (.integer (tokenOf 0 5 digits)) s
    = .ok (some (.float x), s)
  := by
  rw [Binding.bind]
  show Except.bind (Except.bind
    (Binding.numberOf weights (.float .w32) (String.ofList digits)) _) _ = _
  rw [h]
  rfl

theorem bindArguments_weight
    (h : Binding.numberOf weights (.float .w32) (String.ofList digits) = .ok (.ok (.float x))) :
  Binding.bindArguments weights ⟨"P", [⟨"x", .float .w32⟩]⟩ ⟨0, 0⟩ [] true
      [weightArgument digits] (Binding.State.mk (weight Binary64.zero) #[])
    = .ok (true, ⟨weight x, #[]⟩)
  := by
  rw [weightArgument, Binding.bindArguments]
  show Except.bind
    (Binding.bind weights (some (.float .w32)) (.integer (tokenOf 0 5 digits)) _) _ = _
  rw [bind_weight h]
  rfl

theorem bindRoot_weightTree
    (h : Binding.numberOf weights (.float .w32) (String.ofList digits) = .ok (.ok (.float x))) :
  bindRoot (Region.empty weights) (weightTree digits) = .ok (.ok (.ref ⟨0, 0⟩), weight x)
  := by
  rw [bindRoot, weightTree, Binding.bind]
  show Except.bind (Except.bind (Binding.bindArguments weights ⟨"P", [⟨"x", .float .w32⟩]⟩ ⟨0, 0⟩
    [] true [weightArgument digits] (Binding.State.mk (weight Binary64.zero) #[])) _) _ = _
  rw [bindArguments_weight h]
  rfl

/-- It is bound to one weight, the number that its digits read as. -/
theorem parseFile_weightFile (nonempty : digits ≠ []) (all : ∀ c ∈ digits, isDigit c = true)
    (h : Binding.numberOf weights (.float .w32) (String.ofList digits) = .ok (.ok (.float x))) :
  parseFile (weightFile digits) (Region.empty weights) = .ok (.ok (.ref ⟨0, 0⟩), weight x)
  := by
  rw [parseFile, parse_weightFile nonempty all]
  dsimp only
  rw [bindRoot_weightTree h]
  rfl

end

/-- The least number that is not a single-precision one. -/
def heavyDigits : List Char :=
  ['1', '6', '7', '7', '7', '2', '1', '7']

/-- The same number in double precision. -/
def heavy : Binary64 :=
  ⟨0x4170000010000000⟩

theorem numberOf_heavyDigits :
  Binding.numberOf weights (.float .w32) (String.ofList heavyDigits) = .ok (.ok (.float heavy))
  := by
  have value : Text.digitsValue? (String.ofList heavyDigits) = some 16777217 := rfl
  have same : Binary64.ofNat 16777217 = heavy := by decide
  have finite : heavy.narrow.isFinite = true := by decide
  rw [Binding.numberOf, value]
  dsimp only
  rw [same, if_pos finite]

/-- The heavy weight is bound as it stands, although single precision cannot hold it. -/
theorem parseFile_heavy :
  parseFile (weightFile heavyDigits) (Region.empty weights) = .ok (.ok (.ref ⟨0, 0⟩), weight heavy)
  := by
  apply parseFile_weightFile (List.cons_ne_nil _ _) _ numberOf_heavyDigits
  apply List.all_eq_true.mp rfl

theorem regular_weight (x : Binary64) :
  (weight x).Regular
  := by
  simp [Region.Regular, weight, weights, PoolsRegular, RegionSchema.widths, Pool.toList]

/-- A weight is written rounded to single precision. -/
theorem serialize_weight (x : Binary64) :
  (weight x).serialize = .ok (.ok ([1, 0, 0, 0] ++ Encode.binary32 x.narrow))
  := by
  have layout : weights.layout = .ok [⟨"P", [("x", .float .w32)]⟩] := rfl
  have sizes : (weight x).pools.map Pool.size = [1] := rfl
  have counts : [1].mapM Encode.count = .ok [[1, 0, 0, 0]] := rfl
  rw [(regular_weight x).serialize_eq layout, encodePools, sizes, counts]
  show Except.ok (Except.ok (_ ++ [[[Encode.binary32 x.narrow].flatten].flatten].flatten)) = _
  simp only [List.flatten_singleton]

/-- The heavy weight is written as the number next to it. -/
theorem encodeData_heavy :
  (encodeData weights (weightFile heavyDigits)).run = .ok (.ok [1, 0, 0, 0, 0, 0, 128, 75])
  := by
  refine encodeData_eq_ok.mpr ⟨_, _, parseFile_heavy, ?_⟩
  have narrow : heavy.narrow = ⟨0x4B800000⟩ := by decide
  rw [serialize_weight, narrow]
  rfl

/-- What is read back is that number. -/
theorem decodeData_heavy :
  (decodeData weights [1, 0, 0, 0, 0, 0, 128, 75]).run
    = .ok (.ok (weight (Binary32.widen ⟨0x4B800000⟩)))
  := rfl

/-- A schema file that declares the region of weights. -/
def weightsFile : Source :=
  ⟨"s", (String.ofList
    ("Schemas\x7bregion:[Region\x7bname:\"R\",struct:[Struct\x7bname:\"P\",".toList
      ++ "fields:[Field\x7bname:\"x\",type:\"float32\"\x7d]\x7d]\x7d]\x7d".toList)).toByteArray⟩

/-- The schemas, if there are any. -/
def compiled? : Except Fault (Except CompileError (List RegionSchema)) → Option (List RegionSchema)
  | .ok (.ok schemas) => some schemas
  | _ => none

theorem eq_of_compiled? {result : Except Fault (Except CompileError (List RegionSchema))}
    {schemas : List RegionSchema} (h : compiled? result = some schemas) :
  result = .ok (.ok schemas)
  := by
  unfold compiled? at h
  split at h
  · rw [Option.some.inj h]
  · cases h

theorem compileSchemas_weightsFile :
  (compileSchemas weightsFile).run = .ok (.ok [weights])
  := by
  have compiled : compiled? (compileSchemas weightsFile).run = some [weights] := by
    unfold compileSchemas parseSchema parseFile
    rw [Expr.parse_of_text String.toByteArray_ofList]
    decide +kernel
  apply eq_of_compiled? compiled

/-! ### There and back -/

/-- Whether the numbers in single-precision slots, at any depth of lists, are single-precision
numbers. -/
def Region.Rounded (r : Region) : Prop :=
  ∀ layout, r.schema.layout = .ok layout → PoolsRounded layout r.pools

/-- The bytes of a data file are decoded, and nothing is lost exactly when every number in a
single-precision slot is a single-precision number. -/
theorem decodeData_encodeData {schema : RegionSchema} {source : Source} {value : Value}
    {r : Region} {b : List UInt8}
    (hparse : parseFile source (Region.empty schema) = .ok (.ok value, r))
    (hencode : (encodeData schema source).run = .ok (.ok b)) :
  ∃ r', (decodeData schema b).run = .ok (.ok r') ∧ (r'.pools = r.pools ↔ r.Rounded)
  := by
  obtain ⟨value', r', hparse', hwrite⟩ := encodeData_eq_ok.mp hencode
  obtain ⟨-, rfl⟩ := Prod.mk.inj (Except.ok.inj (hparse.symm.trans hparse'))
  obtain ⟨regular, rfl⟩ := parseFile_keeps (Region.storeInvariant_regular schema)
    ⟨Region.regular_empty schema, rfl⟩ hparse
  obtain ⟨layout, hlayout, hread, -⟩ := Region.decodePools_of_serialize regular hwrite []
  rw [List.append_nil] at hread
  use ⟨r.schema, roundPools layout r.pools⟩
  constructor
  · apply decodeData_eq_ok.mpr
    apply Region.deserialize_eq_ok.mpr
    exact ⟨Region.isEmpty_empty r.schema, layout, [], hlayout, hread, rfl⟩
  · rw [Region.Regular, ← RegionSchema.layout_widths hlayout] at regular
    rw [roundPools_eq_self_iff regular]
    constructor
    · intro h layout' hlayout'
      obtain rfl := Except.ok.inj (hlayout.symm.trans hlayout')
      apply h
    · intro h
      apply h layout hlayout

/-- The heavy weight does not come back. -/
theorem decodeData_encodeData_heavy :
  ∃ r', (decodeData weights [1, 0, 0, 0, 0, 0, 128, 75]).run = .ok (.ok r')
    ∧ (r'.pools = (weight heavy).pools ↔ (weight heavy).Rounded)
  := decodeData_encodeData parseFile_heavy encodeData_heavy

/-- A file whose weight comes back changed. -/
theorem decodeData_ne :
  ¬ ∀ (schemaFile source : Source) (schemas : List RegionSchema) (schema : RegionSchema)
    (value : Value) (r : Region) (b : List UInt8),
    (compileSchemas schemaFile).run = .ok (.ok schemas) → schema ∈ schemas →
    parseFile source (Region.empty schema) = .ok (.ok value, r) →
    (encodeData schema source).run = .ok (.ok b) →
    ∃ r', (decodeData schema b).run = .ok (.ok r') ∧ r'.pools = r.pools
  := by
  intro h
  obtain ⟨r', hdecode, same⟩ := h _ _ _ _ _ _ _ compileSchemas_weightsFile
    (List.mem_singleton_self _) parseFile_heavy encodeData_heavy
  obtain rfl := Except.ok.inj (Except.ok.inj (decodeData_heavy.symm.trans hdecode))
  have objects := congrArg (List.map Pool.objects) same
  have other : Binary32.widen ⟨0x4B800000⟩ ≠ heavy := by decide
  apply other
  simpa [weight] using objects

end PoolGraph
