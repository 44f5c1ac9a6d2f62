import PoolGraph.Proofs.Binding.Anywhere
import PoolGraph.Proofs.Binding.Cases
import PoolGraph.Proofs.Binding.Checking

/-!
# When a tree has a value

A tree is bound to a value exactly when it is typed (`Binding.isSome_iff_typedIn`), and errors are
reported exactly when it is not (`Binding.reported_eq_nil_iff`).  What the region holds plays no
role (`Binding.isSome_bind_iff`).
-/

namespace PoolGraph

/-- Whether a tree is of the type of its slot or, where no type is expected, of the type that its
root names. -/
def Expr.TypedIn (schema : RegionSchema) : Option FieldType → Expr → Prop
  | some type, e => e.OfType schema type
  | none, e => e.Typed schema

namespace Binding

variable {schema : RegionSchema} {expected : Option FieldType} {e : Expr} {type : FieldType}
  {size : Nat → Nat}

/-! ### Errors -/

theorem argumentsOutcome_complete_iff {s : StructSchema} {arguments : List (Token × Expr)}
    (each : ∀ argument ∈ arguments, ∀ {expected size o},
      outcome schema size expected argument.2 = .ok o → (o.reported = [] ↔ o.result.isSome = true))
    {defined : List Nat} {object : Object} {complete : Bool} {o : Outcome (Object × Bool)}
    (h : argumentsOutcome schema size s defined object complete arguments = .ok o) :
  o.result.2 = true ↔ complete = true ∧ o.reported = []
  := by
  induction arguments generalizing size defined object complete o with
  | nil =>
    cases argumentsCome h
    simp
  | cons argument rest ih =>
    obtain ⟨first, others⟩ := List.forall_mem_cons.mp each
    cases argumentsCome h with
    | unknown _ hothers => simp [Outcome.after, ih others hothers]
    | repeated _ _ hothers => simp [Outcome.after, ih others hothers]
    | bound _ _ hbound hothers =>
      dsimp only [Outcome.after]
      rw [List.append_eq_nil_iff, ih others hothers, Bool.and_eq_true, first hbound, and_assoc]

theorem itemsOutcome_isSome_iff {type : FieldType} {items : List Expr}
    (each : ∀ item ∈ items, ∀ {expected size o},
      outcome schema size expected item = .ok o → (o.reported = [] ↔ o.result.isSome = true))
    {before : Option (List Value)} {o : Outcome (Option (List Value))}
    (h : itemsOutcome schema size type before items = .ok o) :
  o.result.isSome = true ↔ before.isSome = true ∧ o.reported = []
  := by
  induction items generalizing size before o with
  | nil =>
    rw [itemsOutcome] at h
    obtain rfl := Except.ok.inj h
    simp
  | cons item rest ih =>
    obtain ⟨first, others⟩ := List.forall_mem_cons.mp each
    obtain ⟨bound, more, hbound, hmore, rfl⟩ := exists_of_itemsOutcome_cons h
    dsimp only [Outcome.after]
    rw [List.append_eq_nil_iff, ih others hmore, first hbound]
    cases bound.result <;> cases before <;> simp

/-- There is a value exactly when no error is found. -/
theorem reported_eq_nil_iff {o : Outcome (Option Value)}
    (h : outcome schema size expected e = .ok o) :
  o.reported = [] ↔ o.result.isSome = true
  := by
  induction e using Expr.induction generalizing size expected o with
  | integer raw => cases comes h <;> simp [Outcome.failed]
  | string raw value => cases comes h <;> simp [Outcome.failed]
  | bool span value => cases comes h <;> simp [Outcome.failed]
  | struct type? brace arguments ih =>
    cases comes h with
    | untyped | notStruct => simp [Outcome.failed]
    | @struct _ _ _ _ _ _ complete _ _ _ _ all =>
      have all := argumentsOutcome_complete_iff ih all
      rw [eq_self, true_and] at all
      rw [← all]
      cases complete <;> simp
  | list bracket items ih =>
    cases comes h with
    | untyped | notList => simp [Outcome.failed]
    | list _ _ all =>
      have all := itemsOutcome_isSome_iff ih all
      rw [Option.isSome_some, eq_self, true_and] at all
      rw [← all, Option.isSome_map]

/-! ### Typed trees have values -/

theorem argumentsOutcome_complete_of_typed {s : StructSchema} {arguments : List (Token × Expr)}
    (distinct : (arguments.map fun argument => argument.1.text).Nodup) {defined : List Nat}
    (each : ∀ argument ∈ arguments, ∃ number field,
      s.field? argument.1.text = some (number, field) ∧ number ∉ defined
        ∧ ∀ {size o}, outcome schema size (some field.type) argument.2 = .ok o →
          o.result.isSome = true)
    {object : Object} {complete : Bool} {o : Outcome (Object × Bool)}
    (h : argumentsOutcome schema size s defined object complete arguments = .ok o) :
  o.result.2 = complete
  := by
  induction arguments generalizing size defined object complete o with
  | nil =>
    cases argumentsCome h
    rfl
  | cons argument rest ih =>
    obtain ⟨⟨number, field, hfield, new, typed⟩, others⟩ := List.forall_mem_cons.mp each
    obtain ⟨fresh, names⟩ := List.nodup_cons.mp distinct
    cases argumentsCome h with
    | unknown unknown => cases hfield.symm.trans unknown
    | repeated known again =>
      obtain ⟨rfl, -⟩ := Prod.mk.inj (Option.some.inj (hfield.symm.trans known))
      exact absurd again new
    | bound known _ hbound hmore =>
      obtain ⟨rfl, rfl⟩ := Prod.mk.inj (Option.some.inj (hfield.symm.trans known))
      have some := typed hbound
      rw [some, Bool.and_true] at hmore
      dsimp only [Outcome.after]
      refine ih names ?_ hmore
      intro other hother
      obtain ⟨number', field', hfield', new', typed'⟩ := others other hother
      use number', field', hfield'
      constructor
      · refine List.mem_cons.not.mpr (not_or.mpr ⟨?_, new'⟩)
        rintro rfl
        exact fresh (List.mem_map.mpr ⟨other, hother, StructSchema.eq_of_field? hfield' hfield⟩)
      · apply typed'

theorem itemsOutcome_isSome_of_typed {type : FieldType} {items : List Expr}
    (each : ∀ item ∈ items, ∀ {size o}, outcome schema size (some type) item = .ok o →
      o.result.isSome = true)
    {before : Option (List Value)} (some : before.isSome = true)
    {o : Outcome (Option (List Value))}
    (h : itemsOutcome schema size type before items = .ok o) :
  o.result.isSome = true
  := by
  induction items generalizing size before o with
  | nil =>
    rw [itemsOutcome] at h
    obtain rfl := Except.ok.inj h
    rw [Option.isSome_map]
    apply some
  | cons item rest ih =>
    obtain ⟨typed, others⟩ := List.forall_mem_cons.mp each
    obtain ⟨bound, more, hbound, hmore, rfl⟩ := exists_of_itemsOutcome_cons h
    dsimp only [Outcome.after]
    apply ih others _ hmore
    obtain ⟨value, hvalue⟩ := Option.isSome_iff_exists.mp (typed hbound)
    obtain ⟨values, hvalues⟩ := Option.isSome_iff_exists.mp some
    rw [hvalue, hvalues]
    rfl

/-- A tree of the type of its slot has a value, and so has one that names its type itself. -/
theorem isSome_of_ofType (distinct : schema.Distinct) (typed : e.OfType schema type)
    (fits : expected = some type ∨ expected = none ∧ e.ownType? schema = some type)
    {o : Outcome (Option Value)} (h : outcome schema size expected e = .ok o) :
  o.result.isSome = true
  := by
  induction typed generalizing expected size o with
  | string raw value =>
    cases comes h with
    | untyped wrong => exact absurd (checks_of_ofType distinct (.string raw value) fits) (wrong _)
    | string => rfl
  | bool span value =>
    cases comes h with
    | untyped wrong => exact absurd (checks_of_ofType distinct (.bool span value) fits) (wrong _)
    | bool => rfl
  | @integer raw n type decimal range =>
    obtain ⟨value, digits, numeral⟩ := numeral?_of_decimal decimal range
    have inside : numberOf schema type raw.text = .ok (.ok value) :=
      (numberOf_eq_ok_ok digits (isNumeric_of_numeral? numeral)).mpr numeral
    have known := checks_of_ofType distinct (.integer decimal range) fits
    cases comes h with
    | untyped wrong => exact absurd known (wrong _)
    | number => rfl
    | outside same outside =>
      obtain rfl := known.unique same
      cases Except.ok.inj (inside.symm.trans outside)
  | @struct type? brace arguments id s found named names known values ih =>
    have checks := checks_of_ofType distinct (.struct found named names known values) fits
    cases comes h with
    | untyped wrong => exact absurd checks (wrong _)
    | notStruct wrong => exact absurd checks (wrong _)
    | struct same found' all =>
      obtain rfl := FieldType.struct.inj (checks.unique same)
      obtain rfl := Option.some.inj (found.symm.trans found')
      have whole := argumentsOutcome_complete_of_typed names (fun argument hargument => ?_) all
      · dsimp only at whole ⊢
        rw [whole]
        rfl
      · obtain ⟨field, hfield, same⟩ := List.mem_map.mp (known argument hargument)
        obtain ⟨number, hnumber⟩ := List.mem_iff_getElem?.mp hfield
        use number, field, (distinct.field?_eq_some_iff found).mpr ⟨hnumber, same⟩,
          List.not_mem_nil
        exact ih argument hargument field hfield same (.inl rfl)
  | @list bracket items id item found each ih =>
    have checks := checks_of_ofType distinct (.list found each) fits
    cases comes h with
    | untyped wrong => exact absurd checks (wrong _)
    | notList wrong => exact absurd checks (wrong _)
    | list same found' all =>
      obtain rfl := FieldType.list.inj (checks.unique same)
      obtain rfl := Option.some.inj (found.symm.trans found')
      dsimp only
      rw [Option.isSome_map]
      exact itemsOutcome_isSome_of_typed (fun e he => ih e he (.inl rfl)) rfl all

/-- There is a value exactly when the tree is typed. -/
theorem isSome_iff_typedIn (distinct : schema.Distinct) (he : e.WellFormed)
    {o : Outcome (Option Value)} (h : outcome schema size expected e = .ok o) :
  o.result.isSome = true ↔ e.TypedIn schema expected
  := by
  constructor
  · intro some
    obtain ⟨type, hinfer, typed⟩ := ofType_of_outcome distinct he h some
    have checks := inferType_eq_ok_ok.mp hinfer
    cases expected with
    | some slot =>
      obtain rfl := checks.2 slot rfl
      apply typed
    | none => exact ⟨type, suits_none_iff.mp checks.1, typed⟩
  · intro typed
    cases expected with
    | some type => exact isSome_of_ofType distinct typed (.inl rfl) h
    | none =>
      obtain ⟨type, own, typed⟩ := typed
      exact isSome_of_ofType distinct typed (.inr ⟨rfl, own⟩) h

/-- A parsed tree is bound into any region of a resolved schema, whatever the region holds: there is
a value exactly when the tree is of the type that is expected, and errors are added exactly when
there is no value. -/
theorem isSome_bind_iff {d : Declarations} {root : Ref SchemaDecl} {schemas : List RegionSchema}
    (hresolve : (d.resolve root).run = .ok (.ok schemas)) {r : Region}
    (hschema : r.schema ∈ schemas) (regular : r.Regular) {file : Nat} {source : Source}
    (hparse : Expr.parse file source = .ok e)
    (known : ∀ type, expected = some type → r.schema.Knows type) (reported : Array Diagnostic) :
  ∃ value? r' found, (bind r.schema expected e).run ⟨r, reported⟩
      = .ok (value?, ⟨r', reported ++ found⟩)
    ∧ (value?.isSome = true ↔ e.TypedIn r.schema expected)
    ∧ (value? = none ↔ found ≠ #[])
  := by
  have wf := Declarations.wellFormed_of_resolve hresolve r.schema hschema
  have distinct := Declarations.distinct_of_resolve hresolve r.schema hschema
  have he := (Expr.wellFormed_of_parse hparse).1
  obtain ⟨o, hout, hrun, -⟩ := bind_run_of_regular wf distinct regular known he reported
  use o.result, r.extend o.objects, o.reported.toArray, hrun
  constructor
  · apply isSome_iff_typedIn distinct he hout
  have errors := reported_eq_nil_iff hout
  rw [← Option.not_isSome_iff_eq_none, ← errors]
  simp

end Binding

/-! ### Pairs of cells with a byte each -/

/-- The declarations of pairs of a list of cells and a cell. -/
def pairDeclarations : Declarations where
  fields := .ofList [⟨"rest", "[]Cell"⟩, ⟨"first", "Cell"⟩, ⟨"byte", "uint8"⟩]
  structs := .ofList [⟨"Pair", [⟨0⟩, ⟨1⟩]⟩, ⟨"Cell", [⟨2⟩]⟩]
  regions := .ofList [⟨"Pairs", [⟨0⟩, ⟨1⟩]⟩]
  schemas := .ofList [⟨[⟨0⟩]⟩]

/-- The schema of such pairs. -/
def pairs : RegionSchema :=
  ⟨"Pairs", [⟨"Pair", [⟨"rest", .list 0⟩, ⟨"first", .struct 1⟩]⟩,
    ⟨"Cell", [⟨"byte", .integer .w8 true⟩]⟩], [.struct 1]⟩

theorem resolve_pairDeclarations :
  (pairDeclarations.resolve ⟨0⟩).run = .ok (.ok [pairs])
  := by
  have compiled : compiled? (pairDeclarations.resolve ⟨0⟩).run = some [pairs] := by
    decide +kernel
  apply eq_of_compiled? compiled

/-- A region with a cell that holds a reference to nothing where its byte should be. -/
def strayed : Region :=
  ⟨pairs, [.ofList [], .ofList [[.ref ⟨0, 7⟩]]]⟩

theorem regular_strayed :
  strayed.Regular
  := by
  apply List.Forall₂.cons (by decide)
  apply List.Forall₂.cons (by decide) .nil

/-- A file with a pair: the numeral of the byte of its first cell is given. -/
def pairFile (digits : List Char) : Source :=
  ⟨"d", (String.ofList ("Pair\x7brest:[\x7bbyte:007\x7d],first:Cell\x7bbyte:".toList
    ++ digits ++ ['}', '}'])).toByteArray⟩

section

open Grammar

/-- The tree of that file. -/
def pairTree (digits : List Char) : Expr :=
  .struct (some (tokenOf 0 0 ['P', 'a', 'i', 'r'])) (spanOf 0 4 ['{'])
    [(tokenOf 0 5 ['r', 'e', 's', 't'], .list (spanOf 0 10 ['['])
      [.struct none (spanOf 0 11 ['{'])
        [(tokenOf 0 12 ['b', 'y', 't', 'e'], .integer (tokenOf 0 17 ['0', '0', '7']))]]),
    (tokenOf 0 23 ['f', 'i', 'r', 's', 't'], .struct (some (tokenOf 0 29 ['C', 'e', 'l', 'l']))
      (spanOf 0 33 ['{'])
      [(tokenOf 0 34 ['b', 'y', 't', 'e'], .integer (tokenOf 0 39 digits))])]

theorem parse_pairFile {digits : List Char} (nonempty : digits ≠ [])
    (all : ∀ c ∈ digits, isDigit c = true) :
  Expr.parse 0 (pairFile digits) = .ok (pairTree digits)
  := by
  have pair : Identifier ['P', 'a', 'i', 'r'] := ⟨'P', _, rfl, rfl, List.all_eq_true.mp rfl⟩
  have cell : Identifier ['C', 'e', 'l', 'l'] := ⟨'C', _, rfl, rfl, List.all_eq_true.mp rfl⟩
  have rest : Identifier ['r', 'e', 's', 't'] := ⟨'r', _, rfl, rfl, List.all_eq_true.mp rfl⟩
  have first : Identifier ['f', 'i', 'r', 's', 't'] := ⟨'f', _, rfl, rfl, List.all_eq_true.mp rfl⟩
  have byte : Identifier ['b', 'y', 't', 'e'] := ⟨'b', _, rfl, rfl, List.all_eq_true.mp rfl⟩
  have none : Blanks [] := List.forall_mem_nil _
  have seven : ∀ c ∈ ['0', '0', '7'], isDigit c = true := List.all_eq_true.mp rfl
  have seven : Argument 0 (Expression 0) _ 12 _ :=
    .mk byte none none (.integer (List.cons_ne_nil _ _) seven)
  have row : Block '{' '}' (Argument 0 (Expression 0)) _ 11 _ :=
    .mk none (.cons seven .nil .none) none
  have rows : Block '[' ']' (Expression 0) _ 10 _ := .mk none (.cons (.untyped row) .nil .none) none
  have rest : Argument 0 (Expression 0) _ 5 _ := .mk rest none none (.list rows)
  have given : Argument 0 (Expression 0) _ 34 _ := .mk byte none none (.integer nonempty all)
  have inner : Block '{' '}' (Argument 0 (Expression 0)) _ 33 _ :=
    .mk none (.cons given .nil .none) none
  have first : Argument 0 (Expression 0) _ 23 _ :=
    .mk first none none (.struct cell (by decide) none inner)
  have block : Block '{' '}' (Argument 0 (Expression 0)) _ 4 _ :=
    .mk none (.cons rest (.cons (.mk none none first) .nil) .none) none
  have tree : Expression 0 _ 0 (pairTree digits) := .struct pair (by decide) none block
  apply Expr.parse_of_file _ (.mk none tree none)
  · simp [pairTree, Expr.depth, argumentsDepth, itemsDepth, maxDepth]
  · rw [pairFile, String.toByteArray_ofList]
    simp

end

/-- A literal of a cell is typed exactly if its numeral is that of a byte. -/
theorem ofType_cell_iff {type? : Option Token} {brace : Span} {name raw : Token} {n : Nat}
    (typed : ∀ type, type? = some type → type.text = "Cell") (named : name.text = "byte")
    (decimal : Text.Decimal raw.text n) :
  (Expr.struct type? brace [(name, .integer raw)]).OfType pairs (.struct 1) ↔ n < 2 ^ 8
  := by
  constructor
  · rintro (_ | _ | _ | ⟨found, -, -, -, values⟩)
    obtain rfl := Option.some.inj found
    cases values _ (.head _) _ (.head _) named.symm with
    | integer decimal' range =>
      obtain rfl := decimal.unique decimal'
      apply range
  · intro range
    apply Expr.OfType.struct rfl typed
    · apply List.nodup_singleton
    · rw [List.forall_mem_singleton]
      rw [named]
      apply List.mem_singleton_self
    · rw [List.forall_mem_singleton, List.forall_mem_singleton]
      intro _
      apply Expr.OfType.integer decimal
      apply range

/-- The tree of a pair is typed exactly if the numeral that is given is that of a byte. -/
theorem typed_pairTree_iff {digits : List Char} {n : Nat}
    (decimal : Text.Decimal (String.ofList digits) n) :
  (pairTree digits).Typed pairs ↔ n < 2 ^ 8
  := by
  have seven : Text.Decimal (String.ofList ['0', '0', '7']) 7 :=
    Text.digitsValue?_eq_some_iff.mp rfl
  constructor
  · rintro ⟨type, own, typed⟩
    obtain rfl := Option.some.inj own
    rcases typed with _ | _ | _ | ⟨found, -, -, -, values⟩
    obtain rfl := Option.some.inj found
    have first := values _ (.tail _ (.head _)) ⟨"first", .struct 1⟩ (.tail _ (.head _)) rfl
    apply (ofType_cell_iff _ rfl decimal).mp first
    rintro type ⟨⟩
    rfl
  · intro range
    use .struct 0, rfl
    apply Expr.OfType.struct rfl
    · rintro type ⟨⟩
      rfl
    · have distinct : ["rest", "first"].Nodup := by decide
      apply distinct
    · simp only [List.forall_mem_cons]
      decide
    · rw [List.forall_mem_cons, List.forall_mem_singleton]
      constructor
      · rw [List.forall_mem_cons, List.forall_mem_singleton]
        constructor
        · intro _
          apply Expr.OfType.list rfl
          rw [List.forall_mem_singleton]
          apply (ofType_cell_iff _ rfl seven).mpr (by decide)
          rintro type ⟨⟩
        · intro other
          apply absurd other (by decide)
      · rw [List.forall_mem_cons, List.forall_mem_singleton]
        constructor
        · intro other
          dsimp only at other
          apply absurd other (by decide)
        · intro _
          apply (ofType_cell_iff _ rfl decimal).mpr range
          rintro type ⟨⟩
          rfl

namespace Binding

/-- In a region that holds no bytes a pair is bound if its numerals are those of bytes, zeros in
front included, and else reported.  No pair stands in the slot of a list. -/
theorem isSome_bind_iff_pairs :
  (pairDeclarations.resolve ⟨0⟩).run = .ok (.ok [pairs]) ∧ strayed.Regular
    ∧ (∃ value r', (bind pairs none (pairTree ['2', '5', '5'])).run ⟨strayed, #[]⟩
      = .ok (some value, ⟨r', #[]⟩))
    ∧ (∃ r' found, (bind pairs none (pairTree ['2', '5', '6'])).run ⟨strayed, #[]⟩
      = .ok (none, ⟨r', found⟩) ∧ found ≠ #[])
    ∧ ∃ r' found, (bind pairs (some (.list 0)) (pairTree ['2', '5', '5'])).run ⟨strayed, #[]⟩
      = .ok (none, ⟨r', found⟩) ∧ found ≠ #[]
  := by
  have largest : Text.Decimal (String.ofList ['2', '5', '5']) 255 :=
    Text.digitsValue?_eq_some_iff.mp rfl
  have past : Text.Decimal (String.ofList ['2', '5', '6']) 256 :=
    Text.digitsValue?_eq_some_iff.mp rfl
  have knows : pairs.Knows (.list 0) := Nat.zero_lt_one
  have verdict expected digits (nonempty : digits ≠ []) (all : digits.all isDigit = true)
      (known : ∀ type, expected = some type → pairs.Knows type) :=
    isSome_bind_iff resolve_pairDeclarations (List.mem_singleton_self strayed.schema)
      regular_strayed (parse_pairFile nonempty (List.all_eq_true.mp all)) known #[]
  use resolve_pairDeclarations, regular_strayed
  constructor
  · obtain ⟨value?, r', found, hrun, typed, failed⟩ :=
      verdict none ['2', '5', '5'] (List.cons_ne_nil _ _) rfl nofun
    obtain ⟨value, rfl⟩ := Option.isSome_iff_exists.mp
      (typed.mpr ((typed_pairTree_iff largest).mpr (by decide)))
    obtain rfl : found = #[] := by
      apply not_not.mp
      apply failed.not.mp nofun
    use value, r', hrun
  constructor
  · obtain ⟨value?, r', found, hrun, typed, failed⟩ :=
      verdict none ['2', '5', '6'] (List.cons_ne_nil _ _) rfl nofun
    obtain rfl : value? = none := by
      rw [← Option.not_isSome_iff_eq_none, typed]
      apply (typed_pairTree_iff past).not.mpr (by decide)
    rw [Array.empty_append] at hrun
    use r', found, hrun
    apply failed.mp rfl
  · obtain ⟨value?, r', found, hrun, typed, failed⟩ :=
      verdict (some (.list 0)) ['2', '5', '5'] (List.cons_ne_nil _ _) rfl knows.slot
    obtain rfl : value? = none := by
      rw [← Option.not_isSome_iff_eq_none, typed]
      nofun
    rw [Array.empty_append] at hrun
    use r', found, hrun
    apply failed.mp rfl

end Binding

end PoolGraph
