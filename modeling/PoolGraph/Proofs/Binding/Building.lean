import Mathlib.Data.List.Lex
import PoolGraph.Proofs.Binding.Once
import PoolGraph.Proofs.Binding.Reaching

/-!
# What binding builds

`Binding.Trace` pairs the objects that an outcome adds, in order, with the literals that are reached
below a path.  Traces of arguments and items are put together one behind the other
(`Binding.Trace.append`), and the object of a literal goes in front of those below it
(`Binding.TracesArguments.literal`), so that every outcome has one (`Binding.traced`).  With the
references of `Binding.refersOnce` this says what a run of the binder leaves in a region, with a
value and without (`Binding.bind_builds`).
-/

namespace PoolGraph

namespace Binding

variable {schema : RegionSchema} {expected : Option FieldType} {e : Expr} {type : FieldType}
  {size : Nat → Nat}

/-- Whether objects that were added are made of the literals that are reached below a path. -/
structure Trace (schema : RegionSchema) (size : Nat → Nat) (objects : List Added)
    (made : List Made) (path : List Nat) (reaches : List Nat → Literal → Prop) : Prop where
  added : made.map Made.added = objects
  targets : made.map Made.target = Added.places size objects
  sorted : made.Pairwise fun a b => List.Lex (· < ·) a.path b.path
  sound : ∀ m ∈ made, ∃ below, m.path = path ++ below ∧ reaches below m.literal
  complete : ∀ below l, reaches below l → ∃ m ∈ made, m.path = path ++ below ∧ m.literal = l
  filled : ∀ m ∈ made, m.Filled schema made

namespace Trace

variable {path : List Nat} {reaches reaches' : List Nat → Literal → Prop} {objects : List Added}
  {made : List Made}

theorem nil (none : ∀ below l, ¬ reaches below l) :
  Trace schema size [] [] path reaches
  where
  added := rfl
  targets := rfl
  sorted := .nil
  sound := List.forall_mem_nil _
  complete below l h := absurd h (none below l)
  filled := List.forall_mem_nil _

theorem congr (h : Trace schema size objects made path reaches)
    (same : ∀ below l, reaches below l ↔ reaches' below l) :
  Trace schema size objects made path reaches'
  := by
  have eq : reaches = reaches' := by
    funext below l
    apply propext (same below l)
  rw [← eq]
  apply h

/-- What is made below one argument or item goes before what is made below later ones. -/
theorem append {i : Nat} {others : List Added} {made' : List Made}
    {deeper : List Nat → Literal → Prop}
    (h : Trace schema size objects made (path ++ [i]) deeper)
    (h' : Trace schema (Added.sizes size objects) others made' path reaches)
    (later : ∀ below l, reaches below l → ∃ j rest, i < j ∧ below = j :: rest)
    (either : ∀ below l, reaches' below l
      ↔ (∃ rest, below = i :: rest ∧ deeper rest l) ∨ reaches below l) :
  Trace schema size (objects ++ others) (made ++ made') path reaches'
  where
  added := by rw [List.map_append, h.added, h'.added]
  targets := by rw [List.map_append, h.targets, h'.targets, Added.places_append]
  sorted := by
    refine List.pairwise_append.mpr ⟨h.sorted, h'.sorted, fun m hm m' hm' => ?_⟩
    obtain ⟨below, hpath, -⟩ := h.sound m hm
    obtain ⟨below', hpath', reached⟩ := h'.sound m' hm'
    obtain ⟨j, rest, before, rfl⟩ := later _ _ reached
    rw [hpath, hpath', List.append_assoc, List.singleton_append]
    exact List.Lex.append_left _ (.rel before) path
  sound := by
    refine List.forall_mem_append.mpr ⟨fun m hm => ?_, fun m hm => ?_⟩
    · obtain ⟨below, hpath, reached⟩ := h.sound m hm
      use i :: below
      constructor
      · rw [hpath, List.append_assoc, List.singleton_append]
      · apply (either _ _).mpr (.inl ⟨below, rfl, reached⟩)
    · obtain ⟨below, hpath, reached⟩ := h'.sound m hm
      use below, hpath
      apply (either _ _).mpr (.inr reached)
  complete := by
    intro below l reached
    rcases (either _ _).mp reached with ⟨rest, rfl, inside⟩ | after
    · obtain ⟨m, hm, hpath, same⟩ := h.complete _ _ inside
      use m
      constructor
      · apply List.mem_append_left _ hm
      constructor
      · rw [hpath, List.append_assoc, List.singleton_append]
      · apply same
    · obtain ⟨m, hm, hpath, same⟩ := h'.complete _ _ after
      use m
      constructor
      · apply List.mem_append_right _ hm
      use hpath, same
  filled := List.forall_mem_append.mpr
    ⟨fun m hm => (h.filled m hm).mono (List.subset_append_left _ _),
      fun m hm => (h'.filled m hm).mono (List.subset_append_right _ _)⟩

end Trace

/-- Whether outcomes of an expression come with what is made of its literals, wherever it is. -/
def Traced (schema : RegionSchema) (e : Expr) : Prop :=
  ∀ {expected size o}, (∀ t, expected = some t → schema.Knows t) →
    outcome schema size expected e = .ok o → ∀ path,
    ∃ made, Trace schema size o.objects made path (Reaches schema expected e)
      ∧ ∀ value, o.result = some value →
        ∃ type, Checks schema expected e type ∧ Stands schema made path type e value

/-! ### One level down -/

theorem reachesArgument_iff {s : StructSchema} {arguments : List (Token × Expr)} {n : Nat}
    {below : List Nat} {l : Literal} :
  ReachesArgument schema s arguments n below l
    ↔ (∃ name value number field rest, below = n :: rest ∧ IsFirst arguments n name value
        ∧ s.field? name = some (number, field) ∧ Reaches schema (some field.type) value rest l)
      ∨ ReachesArgument schema s arguments (n + 1) below l
  := by
  constructor
  · rintro ⟨i, name, value, number, field, rest, from_, same, first, known, inside⟩
    rcases Nat.eq_or_lt_of_le from_ with rfl | after
    · exact .inl ⟨name, value, number, field, rest, same, first, known, inside⟩
    · exact .inr ⟨i, name, value, number, field, rest, after, same, first, known, inside⟩
  · rintro (⟨name, value, number, field, rest, same, first, known, inside⟩
      | ⟨i, name, value, number, field, rest, after, same, first, known, inside⟩)
    · exact ⟨n, name, value, number, field, rest, Nat.le_refl n, same, first, known, inside⟩
    · exact ⟨i, name, value, number, field, rest, Nat.le_of_succ_le after, same, first, known,
        inside⟩

theorem reachesItem_iff {items : List Expr} {n : Nat} {below : List Nat} {l : Literal} :
  ReachesItem schema type items n below l
    ↔ (∃ e rest, below = n :: rest ∧ items[n]? = some e ∧ Reaches schema (some type) e rest l)
      ∨ ReachesItem schema type items (n + 1) below l
  := by
  constructor
  · rintro ⟨i, e, rest, from_, same, here, inside⟩
    rcases Nat.eq_or_lt_of_le from_ with rfl | after
    · exact .inl ⟨e, rest, same, here, inside⟩
    · exact .inr ⟨i, e, rest, after, same, here, inside⟩
  · rintro (⟨e, rest, same, here, inside⟩ | ⟨i, e, rest, after, same, here, inside⟩)
    · exact ⟨n, e, rest, Nat.le_refl n, same, here, inside⟩
    · exact ⟨i, e, rest, Nat.le_of_succ_le after, same, here, inside⟩

/-- What becomes of a field while the arguments from a position on are bound. -/
def Fills (schema : RegionSchema) (made : List Made) (path : List Nat)
    (arguments : List (Token × Expr)) (n : Nat) (field : Field) (before after : Option Value) :
    Prop :=
  (∃ i value v, n ≤ i ∧ IsFirst arguments i field.name value
      ∧ diagnostics schema (some field.type) value = [] ∧ after = some v
      ∧ Stands schema made (path ++ [i]) field.type value v)
    ∨ (∀ i value, n ≤ i → IsFirst arguments i field.name value →
        diagnostics schema (some field.type) value ≠ [])
      ∧ after = before

theorem Fills.mono {made made' : List Made} (more : made ⊆ made') {path : List Nat}
    {arguments : List (Token × Expr)} {n : Nat} {field : Field} {before after : Option Value}
    (h : Fills schema made path arguments n field before after) :
  Fills schema made' path arguments n field before after
  := by
  rcases h with ⟨i, value, v, from_, first, clean, stored, stands⟩ | kept
  · exact .inl ⟨i, value, v, from_, first, clean, stored, stands.mono more⟩
  · exact .inr kept

/-- An argument that is not the first for a field does nothing to it. -/
theorem Fills.step {made : List Made} {path : List Nat} {arguments : List (Token × Expr)} {n : Nat}
    {field : Field} {before after : Option Value}
    (h : Fills schema made path arguments (n + 1) field before after)
    (other : ∀ value, IsFirst arguments n field.name value →
      diagnostics schema (some field.type) value ≠ []) :
  Fills schema made path arguments n field before after
  := by
  rcases h with ⟨i, value, v, after, rest⟩ | ⟨none, kept⟩
  · exact .inl ⟨i, value, v, Nat.le_of_succ_le after, rest⟩
  · refine .inr ⟨fun i value from_ first => ?_, kept⟩
    rcases Nat.eq_or_lt_of_le from_ with rfl | after
    · apply other value first
    · apply none i value after first

/-- All arguments together leave in a field of a zero object what it should hold. -/
theorem Fills.supplies {made : List Made} {path : List Nat} {arguments : List (Token × Expr)}
    {field : Field} {v : Value}
    (h : Fills schema made path arguments 0 field (some (.zero field.type)) (some v)) :
  Supplies schema made path arguments field v
  := by
  rcases h with ⟨i, value, v, -, first, clean, stored, stands⟩ | ⟨none, kept⟩
  · obtain rfl := Option.some.inj stored
    exact .inl ⟨i, value, first, clean, stands⟩
  · exact .inr ⟨fun i value => none i value (Nat.zero_le i), Option.some.inj kept⟩

theorem getElem?_filled_ne {object : Object} {number other : Nat} (ne : number ≠ other)
    (value? : Option Value) :
  (filled object number value?)[other]? = object[other]?
  := by
  cases value? with
  | none => rfl
  | some value => apply List.getElem?_set_ne ne

theorem length_filled (object : Object) (number : Nat) (value? : Option Value) :
  (filled object number value?).length = object.length
  := by
  cases value? with
  | none => rfl
  | some value => apply List.length_set

/-- Whether binding the arguments of a literal from a position on makes objects of the literals
under them and fills the fields of its own object. -/
def TracesArguments (schema : RegionSchema) (size : Nat → Nat) (s : StructSchema)
    (arguments : List (Token × Expr)) (n : Nat) (path : List Nat) (object : Object)
    (o : Outcome (Object × Bool)) : Prop :=
  ∃ made, Trace schema size o.objects made path (ReachesArgument schema s arguments n)
    ∧ o.result.1.length = s.fields.length
    ∧ ∀ (number : Nat) (field : Field), s.fields[number]? = some field →
      Fills schema made path arguments n field object[number]? o.result.1[number]?

section

variable {s : StructSchema} {arguments : List (Token × Expr)} {n : Nat} {path : List Nat}
  {object : Object}

/-- An argument that is not the first for any field is passed over. -/
theorem TracesArguments.skip (distinct : (s.fields.map Field.name).Nodup)
    {o : Outcome (Object × Bool)}
    (h : TracesArguments schema size s arguments (n + 1) path object o)
    (none : ∀ {name value slot}, s.field? name = some slot → ¬ IsFirst arguments n name value)
    (reported : List Diagnostic) :
  TracesArguments schema size s arguments n path object (o.after [] reported)
  := by
  obtain ⟨made, trace, length, fields⟩ := h
  refine ⟨made, trace.congr fun below l => ?_, length, fun number field hfield => ?_⟩
  · rw [reachesArgument_iff (n := n)]
    refine (or_iff_right ?_).symm
    rintro ⟨name, value, number, field, rest, -, first, known, -⟩
    apply none known first
  · apply (fields number field hfield).step
    intro value first
    exact absurd first (none ((StructSchema.field?_eq_some_iff distinct).mpr ⟨hfield, rfl⟩))

/-- The first argument for a field fills it, if it is bound without an error. -/
theorem TracesArguments.bound (distinct : (s.fields.map Field.name).Nodup) {name : String}
    {value : Expr} {number : Nat} {field : Field} (first : IsFirst arguments n name value)
    (known : s.field? name = some (number, field)) {bound : Outcome (Option Value)}
    {made : List Made}
    (trace : Trace schema size bound.objects made (path ++ [n])
      (Reaches schema (some field.type) value))
    (stands : ∀ v, bound.result = some v → diagnostics schema (some field.type) value = []
      ∧ Stands schema made (path ++ [n]) field.type value v)
    (fails : bound.result = none → diagnostics schema (some field.type) value ≠ [])
    (length : object.length = s.fields.length) {o : Outcome (Object × Bool)}
    (h : TracesArguments schema (Added.sizes size bound.objects) s arguments (n + 1) path
      (filled object number bound.result) o) (reported : List Diagnostic) :
  TracesArguments schema size s arguments n path object (o.after bound.objects reported)
  := by
  obtain ⟨made', trace', same, fields⟩ := h
  refine ⟨made ++ made', trace.append trace' ?_ ?_, same, fun number' field' hfield' => ?_⟩
  · rintro below l ⟨j, -, -, -, -, rest, after, same, -⟩
    use j, rest, after, same
  · intro below l
    rw [reachesArgument_iff (n := n)]
    apply or_congr_left
    constructor
    · rintro ⟨name', value', number', field', rest, same, first', known', inside⟩
      obtain ⟨rfl, rfl⟩ := first.argument_unique first'
      obtain ⟨-, rfl⟩ := Prod.mk.inj (Option.some.inj (known.symm.trans known'))
      use rest, same, inside
    · rintro ⟨rest, same, inside⟩
      use name, value, number, field, rest, same, first, known, inside
  obtain ⟨hfield, rfl⟩ := StructSchema.getElem?_of_field? known
  have more := (fields number' field' hfield').mono (List.subset_append_right made made')
  by_cases here : number = number'
  · subst here
    obtain rfl := Option.some.inj (hfield.symm.trans hfield')
    cases hresult : bound.result with
    | none =>
      rw [hresult] at more
      apply more.step
      intro value' first'
      obtain ⟨-, rfl⟩ := first.argument_unique first'
      apply fails hresult
    | some v =>
      obtain ⟨clean, stands⟩ := stands v hresult
      obtain ⟨inside, -⟩ := List.getElem?_eq_some_iff.mp hfield
      rcases more with ⟨i, value', v', after, rest⟩ | ⟨-, kept⟩
      · exact .inl ⟨i, value', v', Nat.le_of_succ_le after, rest⟩
      · refine .inl ⟨n, value, v, Nat.le_refl n, first, clean, ?_,
          stands.mono (List.subset_append_left made made')⟩
        dsimp only [Outcome.after]
        rw [kept, hresult, filled, List.getElem?_set_self (length ▸ inside)]
  · rw [getElem?_filled_ne here] at more
    apply more.step
    intro value' first'
    obtain ⟨same, -⟩ := first.argument_unique first'
    have known' := (StructSchema.field?_eq_some_iff distinct).mpr ⟨hfield', same.symm⟩
    exact absurd (Prod.mk.inj (Option.some.inj (known.symm.trans known'))).1 here

/-- The object of a literal goes before those of the literals under its arguments. -/
theorem TracesArguments.literal {id : Nat} (found : schema.structs[id]? = some s)
    {object : Object} {complete : Bool} {objects : List Added} {reported : List Diagnostic}
    (h : TracesArguments schema (Added.sizes size [⟨id, s.zero⟩]) s arguments 0 path s.zero
      ⟨(object, complete), objects, reported⟩) :
  ∃ made, ⟨path, ⟨id, arguments⟩, ⟨id, size id⟩, object⟩ ∈ made
    ∧ Trace schema size (⟨id, object⟩ :: objects) made path fun below l =>
      below = [] ∧ l = ⟨id, arguments⟩ ∨ ReachesArgument schema s arguments 0 below l
  := by
  obtain ⟨made, trace, length, fields⟩ := h
  use ⟨path, ⟨id, arguments⟩, ⟨id, size id⟩, object⟩ :: made, .head _
  refine ⟨?_, ?_, ?_, ?_, ?_, ?_⟩
  · rw [List.map_cons, trace.added]
    rfl
  · rw [List.map_cons, trace.targets, Added.places, Added.sizes_singleton size id object s.zero]
  · refine List.pairwise_cons.mpr ⟨fun m hm => ?_, trace.sorted⟩
    obtain ⟨_, hpath, i, -, -, -, -, rest, -, rfl, -⟩ := trace.sound m hm
    have after := List.Lex.append_left (· < ·) (List.Lex.nil (a := i) (l := rest)) path
    rw [List.append_nil] at after
    rw [hpath]
    apply after
  · refine List.forall_mem_cons.mpr ⟨⟨[], (List.append_nil path).symm, .inl ⟨rfl, rfl⟩⟩, ?_⟩
    intro m hm
    obtain ⟨below, hpath, reached⟩ := trace.sound m hm
    use below, hpath, .inr reached
  · rintro below l (⟨rfl, rfl⟩ | reached)
    · exact ⟨_, .head _, (List.append_nil path).symm, rfl⟩
    · obtain ⟨m, hm, rest⟩ := trace.complete below l reached
      use m
      constructor
      · exact .tail _ hm
      · apply rest
  · refine List.forall_mem_cons.mpr ⟨⟨s, found, ?_⟩, fun m hm =>
      (trace.filled m hm).mono (List.subset_cons_self _ _)⟩
    refine List.forall₂_iff_get.mpr ⟨length.symm, fun i hi hi' => ?_⟩
    have hfield : s.fields[i]? = some (s.fields.get ⟨i, hi⟩) := List.getElem?_eq_getElem hi
    have filled := fields i _ hfield
    rw [StructSchema.zero, List.getElem?_map, hfield, Option.map_some] at filled
    have value : object[i]? = some (object.get ⟨i, hi'⟩) := List.getElem?_eq_getElem hi'
    dsimp only at filled
    rw [value] at filled
    apply (filled.mono (List.subset_cons_self _ _)).supplies

end

theorem stands_of_numeral? {raw : Token} {n : Nat} {value : Value} (made : List Made)
    (path : List Nat) (decimal : Text.Decimal raw.text n)
    (h : numeral? type n = some value) :
  Stands schema made path type (.integer raw) value
  := by
  rcases eq_of_numeral? h with ⟨_, rfl, range, rfl⟩ | ⟨_, rfl, range, rfl⟩ | ⟨_, rfl, rfl⟩
  · exact .int decimal (toInt_ofNat_of_le_maxValue range)
  · exact .uint decimal (toNat_ofNat_of_le_maxValue range)
  · exact .float decimal

/-- What failed has no value that there is something to say of. -/
theorem forall_result_failed {P : α → Prop} (span : Span) (error : BindError) :
  ∀ value, (Outcome.failed span error).result = some value → P value
  := by
  rintro value ⟨⟩

/-- Items are bound one by one; the values are those of all items, or there are none. -/
theorem tracesItems (knows : schema.Knows type) {all before items : List Expr}
    (hall : before ++ items = all) (each : ∀ item ∈ items, Traced schema item)
    {found : Option (List Value)} {o : Outcome (Option (List Value))}
    (h : itemsOutcome schema size type found items = .ok o) (path : List Nat) :
  ∃ made, Trace schema size o.objects made path (ReachesItem schema type all before.length)
    ∧ ∀ values, o.result = some values → ∃ reversed new, found = some reversed
      ∧ values = reversed.reverse ++ new ∧ new.length = items.length
      ∧ ∀ (i : Nat) e v, items[i]? = some e → new[i]? = some v →
        Stands schema made (path ++ [before.length + i]) type e v
  := by
  induction items generalizing size before found o with
  | nil =>
    rw [List.append_nil] at hall
    subst hall
    rw [itemsOutcome] at h
    obtain rfl := Except.ok.inj h
    use []
    constructor
    · refine .nil ?_
      rintro below l ⟨i, e, rest, from_, -, here, -⟩
      rw [List.getElem?_eq_none from_] at here
      cases here
    · intro values hvalues
      obtain ⟨reversed, rfl, rfl⟩ := Option.map_eq_some_iff.mp hvalues
      use reversed, [], rfl, (List.append_nil _).symm, rfl
      rintro i e v ⟨⟩
  | cons item rest ih =>
    obtain ⟨traced, others⟩ := List.forall_mem_cons.mp each
    have hnext : before ++ [item] ++ rest = all := by
      rw [List.append_assoc, List.singleton_append, hall]
    have here : all[before.length]? = some item := by
      rw [← hall]
      simp
    obtain ⟨bound, more, hbound, hmore, rfl⟩ := exists_of_itemsOutcome_cons h
    obtain ⟨made, trace, stands⟩ := traced knows.slot hbound (path ++ [before.length])
    obtain ⟨made', trace', stored⟩ := ih hnext others hmore
    rw [List.length_append, List.length_singleton] at trace' stored
    use made ++ made'
    refine ⟨trace.append trace' ?_ ?_, fun values hvalues => ?_⟩
    · rintro below l ⟨j, -, deeper, after, same, -⟩
      use j, deeper, after, same
    · intro below l
      rw [reachesItem_iff (n := before.length), here]
      apply or_congr_left
      constructor
      · rintro ⟨e, deeper, same, found, inside⟩
        obtain rfl := Option.some.inj found
        use deeper, same, inside
      · rintro ⟨deeper, same, inside⟩
        use item, deeper, same, rfl, inside
    · obtain ⟨_, new, gathered, rfl, same, behind⟩ := stored values hvalues
      obtain ⟨v, hv, gathered⟩ := Option.bind_eq_some_iff.mp gathered
      obtain ⟨reversed, rfl, gathered⟩ := Option.bind_eq_some_iff.mp gathered
      obtain rfl := Option.some.inj gathered
      obtain ⟨type', checks, stands⟩ := stands v hv
      obtain rfl := checks.2 _ rfl
      use reversed, v :: new, rfl
      constructor
      · rw [List.reverse_cons, List.append_assoc, List.singleton_append]
      constructor
      · apply congrArg Nat.succ same
      · intro i e w he hw
        cases i with
        | zero =>
          obtain rfl := Option.some.inj he
          obtain rfl := Option.some.inj hw
          apply stands.mono (List.subset_append_left made made')
        | succ i =>
          rw [← Nat.succ_add_eq_add_succ]
          apply (behind i e w he hw).mono (List.subset_append_right made made')

section

variable (wf : schema.WellFormed) (distinct : schema.Distinct)

include wf distinct

/-- The induction is on the arguments that are left, of which each has its position among all of
them; the fields in `defined` are those that were named before. -/
theorem tracesArguments {id : Nat} {s : StructSchema} (hs : schema.structs[id]? = some s)
    {all before arguments : List (Token × Expr)} (hall : before ++ arguments = all)
    (values : ∀ argument ∈ arguments, argument.2.WellFormed)
    (each : ∀ argument ∈ arguments, Traced schema argument.2) {defined : List Nat}
    (hdefined : Defines s before defined)
    {object : Object} (length : object.length = s.fields.length) {complete : Bool}
    {o : Outcome (Object × Bool)}
    (h : argumentsOutcome schema size s defined object complete arguments = .ok o)
    (path : List Nat) :
  TracesArguments schema size s all before.length path object o
  := by
  have names := distinct.fields s (List.mem_of_getElem? hs)
  induction arguments generalizing size before defined object complete o with
  | nil =>
    rw [List.append_nil] at hall
    subst hall
    have past : ∀ {i name value}, before.length ≤ i → ¬ IsFirst before i name value := by
      rintro i name value from_ ⟨⟨token, found, -⟩, -⟩
      rw [List.getElem?_eq_none from_] at found
      cases found
    cases argumentsCome h
    refine ⟨[], .nil ?_, length, fun number field _ => .inr ⟨?_, rfl⟩⟩
    · rintro below l ⟨i, name, value, number, field, rest, from_, -, first, -⟩
      apply past from_ first
    · intro i value from_ first
      exact absurd first (past from_)
  | cons argument rest ih =>
    obtain ⟨hvalue, hrest⟩ := List.forall_mem_cons.mp values
    obtain ⟨traced, others⟩ := List.forall_mem_cons.mp each
    have hnext : before ++ [argument] ++ rest = all := by
      rw [List.append_assoc, List.singleton_append, hall]
    have here : ∀ {name value}, IsFirst all before.length name value
        ↔ argument.1.text = name ∧ argument.2 = value
          ∧ name ∉ before.map fun other => other.1.text := by
      rw [← hall]
      apply isFirst_append_cons_iff
    have later : ∀ {size defined object complete o}, Defines s (before ++ [argument]) defined →
        object.length = s.fields.length →
        argumentsOutcome schema size s defined object complete rest = .ok o →
        TracesArguments schema size s all (before.length + 1) path object o := by
      intro size defined object complete o hdefined length h
      have traces := ih hnext hrest others hdefined length h
      rw [List.length_append, List.length_singleton] at traces
      apply traces
    cases argumentsCome h with
    | @unknown name value _ others unknown hothers =>
      apply (later (hdefined.unknown unknown value) length hothers).skip names
      intro name' value' slot known first
      obtain ⟨rfl, -⟩ := here.mp first
      cases unknown.symm.trans known
    | @repeated name value _ number field others known again hothers =>
      apply (later (hdefined.repeated known again value) length hothers).skip names
      intro name' value' slot known' first
      obtain ⟨rfl, -, fresh⟩ := here.mp first
      apply fresh ((hdefined _ _ _ known).mp again)
    | @bound name value _ number field bound others known new hbound hothers =>
      have knows := (wf.knows_field hs known).slot
      have first := here.mpr ⟨rfl, rfl, (hdefined _ _ _ known).not.mp new⟩
      have alone := reported_eq_diagnostics wf distinct knows hvalue hbound
      have errors := reported_eq_nil_iff hbound
      rw [alone] at errors
      obtain ⟨made, trace, stands⟩ := traced knows hbound (path ++ [before.length])
      apply TracesArguments.bound names first known trace
      · intro v hv
        obtain ⟨type, checks, stands⟩ := stands v hv
        obtain rfl := checks.2 _ rfl
        constructor
        · apply errors.mpr (Option.isSome_iff_exists.mpr ⟨v, hv⟩)
        · apply stands
      · intro none clean
        have some := errors.mp clean
        rw [none] at some
        cases some
      · apply length
      · apply later (hdefined.bound known value) ((length_filled _ _ _).trans length) hothers

/-- The objects of an outcome are made of the literals that are reached, and its value is what the
tree stands for. -/
theorem traced (he : e.WellFormed) :
  Traced schema e
  := by
  induction he with
  | @integer raw nonempty digits =>
    intro expected size o known h path
    have none : ∀ below l, ¬ Reaches schema expected (.integer raw) below l := fun _ _ => nofun
    cases comes h with
    | untyped =>
      use [], .nil none, forall_result_failed _ _
    | outside =>
      use [], .nil none, forall_result_failed _ _
    | @number raw type value checks inside =>
      use [], .nil none
      rintro _ ⟨⟩
      obtain ⟨n, hn⟩ := exists_digitsValue nonempty digits
      use type, checks
      apply stands_of_numeral? [] path (Text.digitsValue?_eq_some_iff.mp hn)
      apply (numberOf_eq_ok_ok hn checks.1.1).mp inside
  | string raw value =>
    intro expected size o known h path
    have none : ∀ below l, ¬ Reaches schema expected (.string raw value) below l := fun _ _ => nofun
    cases comes h with
    | untyped =>
      use [], .nil none, forall_result_failed _ _
    | string checks =>
      use [], .nil none
      rintro _ ⟨⟩
      use FieldType.string, checks, .string raw value
  | bool span value =>
    intro expected size o known h path
    have none : ∀ below l, ¬ Reaches schema expected (.bool span value) below l := fun _ _ => nofun
    cases comes h with
    | untyped =>
      use [], .nil none, forall_result_failed _ _
    | bool checks =>
      use [], .nil none
      rintro _ ⟨⟩
      use FieldType.bool, checks, .bool span value
  | @struct type? brace arguments _ _ values ih =>
    intro expected size o known h path
    cases comes h with
    | untyped wrong =>
      use [], .nil fun _ _ => not_reaches_struct fun _ => wrong _, forall_result_failed _ _
    | notStruct wrong =>
      use [], .nil fun _ _ => not_reaches_struct wrong, forall_result_failed _ _
    | @struct _ _ _ id s object complete objects reported checks found all =>
      have traces := tracesArguments wf distinct found (List.nil_append arguments) values ih
        (Defines.nil s) (List.length_map _) all path
      obtain ⟨made, hm, trace⟩ := traces.literal found
      use made
      constructor
      · apply trace.congr fun _ _ => (reaches_struct_iff checks found).symm
      intro value hvalue
      obtain ⟨-, same⟩ := Option.ite_none_right_eq_some.mp hvalue
      obtain rfl := Option.some.inj same
      use .struct id, checks, .struct hm rfl rfl
  | @list bracket items _ ih =>
    intro expected size o known h path
    cases comes h with
    | untyped wrong =>
      use [], .nil fun _ _ => not_reaches_list fun _ => wrong _, forall_result_failed _ _
    | notList wrong =>
      use [], .nil fun _ _ => not_reaches_list wrong, forall_result_failed _ _
    | @list _ _ id item values objects reported checks found all =>
      obtain ⟨made, trace, stored⟩ := tracesItems (wf.knows_item found) (List.nil_append items) ih
        all path
      use made
      constructor
      · apply trace.congr fun _ _ => (reaches_list_iff checks found).symm
      intro value hvalue
      obtain ⟨values, rfl, rfl⟩ := Option.map_eq_some_iff.mp hvalue
      obtain ⟨_, new, same, rfl, length, stands⟩ := stored _ rfl
      obtain rfl := Option.some.inj same
      use .list id, checks
      refine .list found length fun i e v he hv => ?_
      have here := stands i e v he hv
      rw [List.length_nil, Nat.zero_add] at here
      apply here

end

/-- What is made for a whole tree is what should be built. -/
theorem Trace.builds {objects : List Added} {made : List Made}
    (h : Trace schema size objects made [] (Reaches schema expected e)) :
  Builds schema expected e made
  where
  sorted := h.sorted
  reached := by
    intro path l
    constructor
    · intro reached
      apply h.complete path l reached
    · rintro ⟨m, hm, rfl, rfl⟩
      obtain ⟨below, hpath, reached⟩ := h.sound m hm
      rw [hpath]
      apply reached
  filled := h.filled

/-- A parsed tree is bound into any region of a resolved schema, whatever the region holds: one
object is added for each struct literal that is reached, in the order of the tree, and each field
has what the first argument for it stands for if that was bound without an error, and else is zero.
If there is a value, it is what the tree stands for, all arguments of all literals are stored, and
every new object is referred to exactly once. -/
theorem bind_builds {d : Declarations} {root : Ref SchemaDecl} {schemas : List RegionSchema}
    (hresolve : (d.resolve root).run = .ok (.ok schemas)) {r : Region}
    (hschema : r.schema ∈ schemas) (regular : r.Regular) {file : Nat} {source : Source}
    (hparse : Expr.parse file source = .ok e)
    (known : ∀ type, expected = some type → r.schema.Knows type) (reported : Array Diagnostic) :
  ∃ value? found made, (bind r.schema expected e).run ⟨r, reported⟩
      = .ok (value?, ⟨r.extend (made.map Made.added), reported ++ found⟩)
    ∧ Builds r.schema expected e made
    ∧ (made.map Made.target).Nodup
    ∧ (∀ m ∈ made, m.target.struct = m.literal.struct ∧ r.size m.target.struct ≤ m.target.index
        ∧ (r.extend (made.map Made.added)).object m.target = .ok m.object)
    ∧ ∀ value, value? = some value →
      (∃ type, Checks r.schema expected e type ∧ Stands r.schema made [] type e value)
      ∧ (∀ m ∈ made, m.Unfolds r.schema made)
      ∧ ∀ m ∈ made,
        (value.references ++ Added.references (made.map Made.added)).count m.target = 1
  := by
  have wf := Declarations.wellFormed_of_resolve hresolve r.schema hschema
  have distinct := Declarations.distinct_of_resolve hresolve r.schema hschema
  have he := (Expr.wellFormed_of_parse hparse).1
  obtain ⟨o, hout, hrun, structs⟩ := bind_run_of_regular wf distinct regular known he reported
  obtain ⟨made, trace, stands⟩ := traced wf distinct he known hout []
  have inside : ∀ a ∈ o.objects, a.struct < r.pools.length := by
    rw [regular.length_pools]
    apply structs
  have builds := trace.builds
  refine ⟨o.result, o.reported.toArray, made, trace.added ▸ hrun, builds, ?_, fun m hm => ?_,
    fun value hvalue => ⟨stands value hvalue, fun m hm => ?_, fun m hm => ?_⟩⟩
  · rw [trace.targets]
    apply Added.nodup_places
  · have target : m.target ∈ Added.places r.size o.objects := by
      rw [← trace.targets]
      apply List.mem_map_of_mem hm
    constructor
    · have same := Added.struct_places r.size o.objects
      rw [← trace.targets, ← trace.added, List.map_map, List.map_map] at same
      apply List.map_inj_left.mp same m hm
    constructor
    · apply Added.le_index_of_mem_places target
    · have all := Region.object_extend inside
      rw [← trace.targets, ← trace.added, List.forall₂_map_left_iff, List.forall₂_map_right_iff,
        List.forall₂_same] at all
      apply all m hm
  · apply (builds.filled m hm).unfolds
    intro s hs
    apply argumentsDiagnostics_of_reaches wf distinct ((builds.reached _ _).mpr ⟨m, hm, rfl, rfl⟩)
      known he _ hs
    rw [← reported_eq_diagnostics wf distinct known he hout, reported_eq_nil_iff hout, hvalue]
    rfl
  · rw [List.count_append, trace.added, refersOnce r.schema m.target e hout hvalue, ← trace.targets]
    apply List.count_eq_one_of_mem
    · rw [trace.targets]
      apply Added.nodup_places
    · apply List.mem_map_of_mem hm

/-- A pair and its two cells are added behind the cell that is there, with the numbers that their
numerals spell. -/
theorem bind_builds_pairs :
  (pairDeclarations.resolve ⟨0⟩).run = .ok (.ok [pairs]) ∧ strayed.Regular
    ∧ Expr.parse 0 (pairFile ['2', '5', '5']) = .ok (pairTree ['2', '5', '5'])
    ∧ ∃ made, Builds pairs none (pairTree ['2', '5', '5']) made
      ∧ strayed.extend (made.map Made.added) = ⟨pairs, [.ofList [[.list [.ref ⟨1, 1⟩], .ref ⟨1, 2⟩]],
        .ofList [[.ref ⟨0, 7⟩], [.uint 7], [.uint 255]]]⟩
      ∧ Stands pairs made [] (.struct 0) (pairTree ['2', '5', '5']) (.ref ⟨0, 0⟩)
      ∧ ∀ m ∈ made, m.Unfolds pairs made
  := by
  have parsed : Expr.parse 0 (pairFile ['2', '5', '5']) = .ok (pairTree ['2', '5', '5']) :=
    parse_pairFile (List.cons_ne_nil _ _) (List.all_eq_true.mp rfl)
  obtain ⟨value?, found, made, hrun, builds, -, -, success⟩ := bind_builds resolve_pairDeclarations
    (List.mem_singleton_self strayed.schema) regular_strayed parsed
    (nofun : ∀ type, none = some type → _) #[]
  obtain ⟨rfl, after⟩ := Prod.mk.inj (Except.ok.inj hrun)
  obtain ⟨⟨type, checks, stands⟩, unfolds, -⟩ := success _ rfl
  obtain ⟨id, hid, rfl⟩ := checks.1
  obtain rfl := Option.some.inj hid
  use resolve_pairDeclarations, regular_strayed, parsed, made, builds
  constructor
  · symm
    apply congrArg State.store after
  constructor
  · apply stands
  · apply unfolds

end Binding

end PoolGraph
