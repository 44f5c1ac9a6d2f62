import PoolGraph.Binding
import PoolGraph.Proofs.Expr.Printing
import PoolGraph.Proofs.Region.Typing
import PoolGraph.Proofs.Schema.Names

/-!
# Types of literals

What binding makes of one literal before it looks inside: `Binding.inferType_eq_ok_ok` says in which
slots the literal can stand and of which type it is there, and `Binding.numberOf_eq_ok_ok` which
digits are a number of a type.  For types of a well-formed schema both have a result.
-/

namespace PoolGraph

namespace FieldType

/-- Whether values of the type are numbers. -/
def IsNumeric : FieldType → Prop
  | .integer _ _ => True
  | .float _ => True
  | _ => False

end FieldType

namespace RegionSchema

variable {schema : RegionSchema}

/-- Every type that a well-formed schema knows has a name. -/
theorem WellFormed.typeName (wf : schema.WellFormed) {type : FieldType}
    (knows : schema.Knows type) :
  ∃ name, schema.typeName type = .ok name
  := by
  obtain ⟨shape, hshape⟩ := wf.shape knows
  use shape.name, Except.bind_eq_ok.mpr ⟨shape, hshape, rfl⟩

/-- A struct type that a schema knows has a struct. -/
theorem Knows.struct {id : Nat} (knows : schema.Knows (.struct id)) :
  ∃ s, schema.structs[id]? = some s ∧ schema.struct id = .ok s
  := by
  have found := List.getElem?_eq_getElem (l := schema.structs) knows
  use schema.structs[id], found, struct_eq_ok.mpr found

/-- A slot of a type that stands for something. -/
theorem Knows.slot {type : FieldType} (knows : schema.Knows type) :
  ∀ t, some type = some t → schema.Knows t
  := by
  rintro _ ⟨⟩
  apply knows

/-- The type of a field is known. -/
theorem WellFormed.knows_field (wf : schema.WellFormed) {id : Nat} {s : StructSchema}
    (hs : schema.structs[id]? = some s) {name : String} {number : Nat} {field : Field}
    (h : s.field? name = some (number, field)) :
  schema.Knows field.type
  := by
  obtain ⟨hfield, -⟩ := StructSchema.getElem?_of_field? h
  apply wf.fields s (List.mem_of_getElem? hs) field (List.mem_of_getElem? hfield)

/-- The item type of a list type that is known is known. -/
theorem WellFormed.listItem (wf : schema.WellFormed) {id : Nat} (knows : schema.Knows (.list id)) :
  ∃ item, schema.lists[id]? = some item ∧ schema.listItem id = .ok item ∧ schema.Knows item
  := by
  have hitem := List.getElem?_eq_getElem (show id < schema.lists.length from knows)
  use schema.lists[id], hitem, listItem_eq_ok.mpr hitem, wf.knows_item hitem

end RegionSchema

namespace Binding

variable {schema : RegionSchema} {expected : Option FieldType} {e : Expr} {type : FieldType}

/-! ### Slots -/

/-- Whether an expression is of a type in a slot of the expected type, by its kind and its name
alone.  Untyped structs and lists are of every type that is expected. -/
def Suits (schema : RegionSchema) (expected : Option FieldType) (type : FieldType) : Expr → Prop
  | .string _ _ => type = .string
  | .bool _ _ => type = .bool
  | .integer _ => type.IsNumeric ∧ (expected = none → type = .int64)
  | .struct (some name) _ _ => ∃ id, schema.structIndex? name.text = some id ∧ type = .struct id
  | .struct none _ _ => expected = some type
  | .list _ _ => expected = some type

/-- The type that an expression has by itself, as `inferType` finds it, or what is wrong. -/
def settle (schema : RegionSchema) (expected : Option FieldType) (found : FieldType) :
    Except Fault (Except BindError FieldType) :=
  match expected with
  | some slot => do
    if slot.canHold found then return .ok found
    else return .error (.wrongType (← schema.typeName slot) (← schema.typeName found))
  | none => .ok (.ok found)

/-- A type is settled on if it is the one found and no slot wants another. -/
theorem settle_eq_ok_ok {found : FieldType} :
  settle schema expected found = .ok (.ok type)
    ↔ type = found ∧ ∀ slot, expected = some slot → slot = type
  := by
  cases expected with
  | none =>
    constructor
    · intro h
      obtain rfl := Except.ok.inj (Except.ok.inj h)
      exact ⟨rfl, nofun⟩
    · rintro ⟨rfl, -⟩
      rfl
  | some slot =>
    constructor
    · intro h
      unfold settle at h
      dsimp only at h
      split at h
      · next fits =>
        obtain rfl := Except.ok.inj (Except.ok.inj h)
        constructor
        · rfl
        · intro _ same
          exact Option.some.inj same ▸ of_decide_eq_true fits
      · obtain ⟨_, -, h⟩ := Except.bind_eq_ok.mp h
        obtain ⟨_, -, h⟩ := Except.bind_eq_ok.mp h
        cases Except.ok.inj h
    · rintro ⟨rfl, same⟩
      obtain rfl := same slot rfl
      apply if_pos (decide_eq_true rfl)

/-- Settling has a result, the message included, for types that the schema knows. -/
theorem exists_settle (wf : schema.WellFormed) (known : ∀ t, expected = some t → schema.Knows t)
    {found : FieldType} (knows : schema.Knows found) :
  ∃ result, settle schema expected found = .ok result
  := by
  cases expected with
  | none =>
    use Except.ok found
    rfl
  | some slot =>
    unfold settle
    dsimp only
    split
    · use Except.ok found
      rfl
    · obtain ⟨name, hname⟩ := wf.typeName (known slot rfl)
      obtain ⟨name', hname'⟩ := wf.typeName knows
      rw [hname, hname']
      use Except.error (BindError.wrongType name name')
      rfl

/-- The type of an expression that has none by itself. -/
def slotType : Option FieldType → Except BindError FieldType
  | some slot => .ok slot
  | none => .error .undeterminedType

/-- Without a type of its own an expression takes that of its slot. -/
theorem slotType_eq_ok :
  slotType expected = .ok type
    ↔ expected = some type ∧ ∀ slot, expected = some slot → slot = type
  := by
  cases expected with
  | none => simp [slotType]
  | some slot => simp [slotType]

/-- The type of a literal integer before it is compared to its slot. -/
def integerType : Option FieldType → FieldType
  | some (.integer width unsigned) => .integer width unsigned
  | some (.float width) => .float width
  | _ => .int64

/-- An integer is taken as a number. -/
theorem isNumeric_integerType (expected : Option FieldType) :
  (integerType expected).IsNumeric
  := by
  rcases expected with _ | (_ | _ | _ | _ | _ | _) <;> trivial

/-- In the slot of a number an integer is of the type of the slot. -/
theorem integerType_eq {slot : FieldType} (numeric : slot.IsNumeric) :
  integerType (some slot) = slot
  := by
  cases slot with
  | integer width unsigned => rfl
  | float width => rfl
  | _ => cases numeric

/-! ### One equation for each kind of expression -/

theorem inferType_string (raw : Token) (value : String) :
  inferType schema expected (.string raw value) = settle schema expected .string
  := by
  cases expected <;> rfl

theorem inferType_bool (span : Span) (value : Bool) :
  inferType schema expected (.bool span value) = settle schema expected .bool
  := by
  cases expected <;> rfl

theorem inferType_integer (raw : Token) :
  inferType schema expected (.integer raw) = settle schema expected (integerType expected)
  := by
  rcases expected with _ | (_ | _ | _ | _ | _ | _) <;> rfl

theorem inferType_typed {name : Token} {id : Nat} (h : schema.structIndex? name.text = some id)
    (brace : Span) (arguments : List (Token × Expr)) :
  inferType schema expected (.struct (some name) brace arguments)
    = settle schema expected (.struct id)
  := by
  unfold inferType
  dsimp only
  rw [h]
  cases expected <;> rfl

/-- A name that no struct has is refused. -/
theorem inferType_unknown {name : Token} (h : schema.structIndex? name.text = none)
    (brace : Span) (arguments : List (Token × Expr)) :
  inferType schema expected (.struct (some name) brace arguments)
    = .ok (.error (.unresolvedType name.text))
  := by
  unfold inferType
  dsimp only
  rw [h]
  rfl

theorem inferType_untyped (brace : Span) (arguments : List (Token × Expr)) :
  inferType schema expected (.struct none brace arguments) = .ok (slotType expected)
  := by
  cases expected <;> rfl

/-- The type of a list is that of its slot. -/
theorem inferType_list (bracket : Span) (items : List Expr) :
  inferType schema expected (.list bracket items) = .ok (slotType expected)
  := by
  cases expected <;> rfl

/-- An expression is of a type in a slot when it suits the type and the slot is of no other one. -/
theorem inferType_eq_ok_ok :
  inferType schema expected e = .ok (.ok type)
    ↔ Suits schema expected type e ∧ ∀ slot, expected = some slot → slot = type
  := by
  cases e with
  | string raw value =>
    rw [inferType_string]
    apply settle_eq_ok_ok
  | bool span value =>
    rw [inferType_bool]
    apply settle_eq_ok_ok
  | integer raw =>
    rw [inferType_integer, settle_eq_ok_ok]
    apply and_congr_left
    intro slots
    constructor
    · rintro rfl
      refine ⟨isNumeric_integerType expected, ?_⟩
      rintro rfl
      rfl
    · rintro ⟨numeric, alone⟩
      cases expected with
      | none => apply alone rfl
      | some slot =>
        obtain rfl := slots slot rfl
        rw [integerType_eq numeric]
  | struct type? brace arguments =>
    cases type? with
    | none => rw [inferType_untyped, Except.ok.injEq, slotType_eq_ok, Suits]
    | some name =>
      cases hid : schema.structIndex? name.text with
      | none =>
        rw [inferType_unknown hid]
        constructor
        · intro h
          cases Except.ok.inj h
        · rintro ⟨⟨id, hid', -⟩, -⟩
          cases hid.symm.trans hid'
      | some id =>
        rw [inferType_typed hid, settle_eq_ok_ok, Suits, hid]
        simp
  | list bracket items => rw [inferType_list, Except.ok.injEq, slotType_eq_ok, Suits]

/-- The type of an expression in a slot stands for something when that of the slot does. -/
theorem knows_of_inferType (known : ∀ t, expected = some t → schema.Knows t)
    (h : inferType schema expected e = .ok (.ok type)) :
  schema.Knows type
  := by
  obtain ⟨suits, slots⟩ := inferType_eq_ok_ok.mp h
  cases expected with
  | some slot =>
    obtain rfl := slots slot rfl
    apply known slot rfl
  | none =>
    cases e with
    | string raw value =>
      obtain rfl : type = .string := suits
      trivial
    | bool span value =>
      obtain rfl : type = .bool := suits
      trivial
    | integer raw =>
      obtain rfl := suits.2 rfl
      trivial
    | struct type? brace arguments =>
      cases type? with
      | none => cases suits
      | some name =>
        obtain ⟨id, hid, rfl⟩ := suits
        apply RegionSchema.lt_of_structIndex? hid
    | list bracket items => cases suits

/-- Finding the type of an expression has a result. -/
theorem exists_inferType (wf : schema.WellFormed)
    (known : ∀ t, expected = some t → schema.Knows t) (e : Expr) :
  ∃ result, inferType schema expected e = .ok result
  := by
  cases e with
  | string raw value =>
    rw [inferType_string]
    apply exists_settle wf known
    trivial
  | bool span value =>
    rw [inferType_bool]
    apply exists_settle wf known
    trivial
  | integer raw =>
    rw [inferType_integer]
    apply exists_settle wf known
    rcases expected with _ | (_ | _ | _ | _ | _ | _) <;> trivial
  | struct type? brace arguments =>
    cases type? with
    | none =>
      use slotType expected
      apply inferType_untyped brace arguments
    | some name =>
      cases hid : schema.structIndex? name.text with
      | none => exact ⟨_, inferType_unknown hid brace arguments⟩
      | some id =>
        rw [inferType_typed hid]
        apply exists_settle wf known
        apply RegionSchema.lt_of_structIndex? hid
  | list bracket items =>
    use slotType expected
    apply inferType_list bracket items

/-! ### Numbers -/

/-- The value of the type that stands for a natural number, if the number is in range. -/
def numeral? (type : FieldType) (n : Nat) : Option Value :=
  match type with
  | .integer width false =>
    if n ≤ width.maxValue false then some (.int (Int64.ofNat n)) else none
  | .integer width true =>
    if n ≤ width.maxValue true then some (.uint (UInt64.ofNat n)) else none
  | .float .w32 =>
    if (Binary64.ofNat n).narrow.isFinite then some (.float (Binary64.ofNat n)) else none
  | .float .w64 => if (Binary64.ofNat n).isFinite then some (.float (Binary64.ofNat n)) else none
  | _ => none

/-- Only types of numbers have numerals. -/
theorem isNumeric_of_numeral? {n : Nat} {value : Value} (h : numeral? type n = some value) :
  type.IsNumeric
  := by
  cases type with
  | integer width unsigned => trivial
  | float width => trivial
  | _ => cases h

/-- The number of a numeral is that of its digits, or a message that it is out of range. -/
theorem numberOf_eq (numeric : type.IsNumeric) {digits : String} {n : Nat}
    (hn : Text.digitsValue? digits = some n) :
  numberOf schema type digits = match numeral? type n with
    | some value => .ok (.ok value)
    | none => do return .error (.outOfRange digits (← schema.typeName type))
  := by
  unfold numberOf numeral?
  rcases type with ⟨width, _ | _⟩ | (_ | _) | _ | _ | _ | _
  case integer.false | integer.true | float.w32 | float.w64 =>
    dsimp only
    rw [hn]
    dsimp only
    split <;> rfl
  all_goals cases numeric

/-- A numeral is accepted if the type has its number. -/
theorem numberOf_eq_ok_ok {digits : String} {n : Nat} (hn : Text.digitsValue? digits = some n)
    (numeric : type.IsNumeric) {value : Value} :
  numberOf schema type digits = .ok (.ok value) ↔ numeral? type n = some value
  := by
  rw [numberOf_eq numeric hn]
  cases numeral? type n with
  | some found => simp only [Except.ok.injEq, Option.some.injEq]
  | none =>
    constructor
    · intro h
      obtain ⟨_, -, h⟩ := Except.bind_eq_ok.mp h
      cases Except.ok.inj h
    · nofun

/-- Reading digits as a number of a numeric type has a result. -/
theorem exists_numberOf (wf : schema.WellFormed) (numeric : type.IsNumeric) {digits : String}
    {n : Nat} (hn : Text.digitsValue? digits = some n) :
  ∃ result, numberOf schema type digits = .ok result
  := by
  have knows : schema.Knows type := by
    cases type with
    | integer width unsigned => trivial
    | float width => trivial
    | _ => cases numeric
  obtain ⟨name, hname⟩ := wf.typeName knows
  rw [numberOf_eq numeric hn, hname]
  cases numeral? type n with
  | some value =>
    use Except.ok value
  | none =>
    use Except.error (BindError.outOfRange digits name)
    rfl

/-- A run of digits has a number. -/
theorem exists_digitsOnto {digits : List Char} (all : ∀ c ∈ digits, isDigit c = true)
    (high : Nat) :
  ∃ n, Text.digitsOnto high digits = some n
  := by
  induction digits generalizing high with
  | nil =>
    use high
    rfl
  | cons c digits ih =>
    obtain ⟨first, others⟩ := List.forall_mem_cons.mp all
    have digit : c.isDigit = true := first
    rw [Text.digitsOnto, if_pos digit]
    apply ih others

/-- A text of digits alone is a number. -/
theorem exists_digitsValue {text : String} (nonempty : text.toList ≠ [])
    (digits : ∀ c ∈ text.toList, isDigit c = true) :
  ∃ n, Text.digitsValue? text = some n
  := by
  have some : ¬ text.isEmpty = true := by
    rw [String.isEmpty_iff]
    rintro rfl
    apply nonempty rfl
  rw [Text.digitsValue?, if_neg some]
  apply exists_digitsOnto digits

/-- What a signed type can hold fits into the integers that values are made of. -/
theorem toInt_ofNat_of_le_maxValue {width : IntWidth} {n : Nat} (h : n ≤ width.maxValue false) :
  (Int64.ofNat n).toInt = n
  := by
  have small : n < 2 ^ 63 := by
    cases width <;>
      simp only [IntWidth.maxValue, IntWidth.bits, IntWidth.bytes, Bool.false_eq_true,
        if_false] at h <;>
      omega
  apply Int64.toInt_ofNat_of_lt small

/-- A number in the range of an unsigned type fits a word. -/
theorem toNat_ofNat_of_le_maxValue {width : IntWidth} {n : Nat} (h : n ≤ width.maxValue true) :
  (UInt64.ofNat n).toNat = n
  := by
  have small : n < 2 ^ 64 := by
    cases width <;>
      simp only [IntWidth.maxValue, IntWidth.bits, IntWidth.bytes, if_true] at h <;>
      omega
  apply UInt64.toNat_ofNat_of_lt' small

/-- A number up to the maximum of a signed type is in its range. -/
theorem contains_int64 {width : IntWidth} {n : Nat} (h : n ≤ width.maxValue false) :
  width.contains false (Int64.ofNat n).toInt = true
  := by
  rw [toInt_ofNat_of_le_maxValue h, IntWidth.contains, IntWidth.minValue,
    if_neg Bool.false_ne_true]
  have positive : (0 : Int) ≤ 2 ^ (width.bits - 1) := Int.pow_nonneg (by decide)
  simp only [Bool.and_eq_true, decide_eq_true_eq]
  omega

/-- A number up to the maximum of an unsigned type is in its range. -/
theorem contains_uint64 {width : IntWidth} {n : Nat} (h : n ≤ width.maxValue true) :
  width.contains true (UInt64.ofNat n).toNat = true
  := by
  rw [toNat_ofNat_of_le_maxValue h, IntWidth.contains, IntWidth.minValue, if_pos rfl]
  simp only [Bool.and_eq_true, decide_eq_true_eq]
  omega

/-- The value of a numeral is a signed word, an unsigned word or a float, as its type says. -/
theorem eq_of_numeral? {n : Nat} {value : Value} (h : numeral? type n = some value) :
  (∃ width, type = .integer width false ∧ n ≤ width.maxValue false ∧ value = .int (Int64.ofNat n))
    ∨ (∃ width, type = .integer width true ∧ n ≤ width.maxValue true
      ∧ value = .uint (UInt64.ofNat n))
    ∨ ∃ width, type = .float width ∧ value = .float (Binary64.ofNat n)
  := by
  unfold numeral? at h
  split at h
  · next width =>
    obtain ⟨range, same⟩ := Option.ite_none_right_eq_some.mp h
    exact .inl ⟨width, rfl, range, (Option.some.inj same).symm⟩
  · next width =>
    obtain ⟨range, same⟩ := Option.ite_none_right_eq_some.mp h
    exact .inr (.inl ⟨width, rfl, range, (Option.some.inj same).symm⟩)
  · obtain ⟨-, same⟩ := Option.ite_none_right_eq_some.mp h
    exact .inr (.inr ⟨.w32, rfl, (Option.some.inj same).symm⟩)
  · obtain ⟨-, same⟩ := Option.ite_none_right_eq_some.mp h
    exact .inr (.inr ⟨.w64, rfl, (Option.some.inj same).symm⟩)
  · cases h

/-- The value that stands for a number is of the type. -/
theorem hasType_of_numeral? {n : Nat} {value : Value} (h : numeral? type n = some value)
    (r : Region) :
  r.HasType value type
  := by
  rcases eq_of_numeral? h with ⟨width, rfl, range, rfl⟩ | ⟨width, rfl, range, rfl⟩ | ⟨width, rfl, rfl⟩
  · exact .int (contains_int64 range)
  · exact .uint (contains_uint64 range)
  · apply Region.HasType.float

end Binding

/-! ### Values without gaps -/

namespace Value

/-- Whether no reference in a value, at any depth of lists, is unset. -/
inductive IsSet : Value → Prop where
  | int (i : Int64) : IsSet (.int i)
  | uint (n : UInt64) : IsSet (.uint n)
  | float (x : Binary64) : IsSet (.float x)
  | bool (b : Bool) : IsSet (.bool b)
  | string (text : String) : IsSet (.string text)
  | ref (target : Instance) : IsSet (.ref target)
  | list {items : List Value} (all : ∀ v ∈ items, IsSet v) : IsSet (.list items)

end Value

/-- The value of a numeral is set. -/
theorem Binding.isSet_of_numeral? {type : FieldType} {n : Nat} {value : Value}
    (h : numeral? type n = some value) :
  value.IsSet
  := by
  rcases eq_of_numeral? h with ⟨_, -, -, rfl⟩ | ⟨_, -, -, rfl⟩ | ⟨_, -, rfl⟩
  · apply Value.IsSet.int
  · apply Value.IsSet.uint
  · apply Value.IsSet.float

end PoolGraph
