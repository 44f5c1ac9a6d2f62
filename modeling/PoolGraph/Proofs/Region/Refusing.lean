import PoolGraph.Proofs.Region.Writing
import PoolGraph.Proofs.Schema.Growing

/-!
# What writing refuses

A value suits a slot when it conforms to the type of the slot and holds no unset reference and
nothing too long, at any depth of lists.  `Region.Refuses` says how a value that does not suit is
refused, a list for the first of its items that does not.  The encoder writes the values that suit
(`Region.encode_eq_ok_iff`) and refuses the others in just this way (`Region.encode_eq_error_iff`).
-/

namespace PoolGraph

/-- Whether a value is of the kind that a type asks for.  A reference must be to the struct of the
type. -/
def FieldType.takes : FieldType → Value → Bool
  | .integer _ false, .int _ => true
  | .integer _ true, .uint _ => true
  | .float _, .float _ => true
  | .bool, .bool _ => true
  | .string, .string _ => true
  | .struct _, .null => true
  | .struct id, .ref target => target.struct = id
  | .list _, .list _ => true
  | _, _ => false

namespace Region

/-- Whether a value conforms to a type and holds no unset reference and nothing too long. -/
def Suits (r : Region) (value : Value) (type : FieldType) : Prop :=
  r.conforms value type = .ok true ∧ value.Writable

/-- How a value is refused in a slot of a type.  The names are those of the struct and the field of
the slot. -/
inductive Refuses (r : Region) (struct field : String) :
    Value → FieldType → CodecError → Prop where
  | kind {value : Value} {type : FieldType} {shape : Shape} (unfolds : r.schema.Unfolds type shape)
      (other : type.takes value = false) :
      Refuses r struct field value type (.typeMismatch shape.name value.kind)
  | int {width : IntWidth} {i : Int64} (range : width.contains false i.toInt = false) :
      Refuses r struct field (.int i) (.integer width false)
        (.valueOutOfRange i.toInt (Shape.integer width false).name)
  | uint {width : IntWidth} {n : UInt64} (range : width.contains true n.toNat = false) :
      Refuses r struct field (.uint n) (.integer width true)
        (.valueOutOfRange n.toNat (Shape.integer width true).name)
  | string {text : String} (long : maxCount < text.utf8ByteSize) :
      Refuses r struct field (.string text) .string (.countOutOfRange text.utf8ByteSize)
  | null (id : Nat) : Refuses r struct field .null (.struct id) (.nullReference struct field)
  | stale {target : Instance} (gone : ¬ r.Holds target) :
      Refuses r struct field (.ref target) (.struct target.struct)
        (.indexOutOfRange target.index (r.size target.struct))
  | length {items : List Value} (id : Nat) (long : maxCount < items.length) :
      Refuses r struct field (.list items) (.list id) (.countOutOfRange items.length)
  /-- The items in front of the one that is refused suit. -/
  | item {items : List Value} {id : Nat} {type : FieldType} {i : Nat} {value : Value}
      {e : CodecError} (short : items.length ≤ maxCount) (htype : r.schema.lists[id]? = some type)
      (hvalue : items[i]? = some value) (refused : Refuses r struct field value type e)
      (before : ∀ (j : Nat) (other : Value), j < i → items[j]? = some other → r.Suits other type) :
      Refuses r struct field (.list items) (.list id) e

variable {r : Region} {struct field : String} {type : FieldType} {shape : Shape} {value : Value}
  {e : CodecError}

theorem suits_iff (wf : r.schema.WellFormed) (regular : r.Regular) (knows : r.schema.Knows type) :
  r.Suits value type ↔ r.HasType value type ∧ value.Writable
  := and_congr_left' (conforms_eq_ok_true wf regular value knows)

/-! ### What is written -/

/-- Only a value of its type without anything against it is written. -/
theorem hasType_of_encode (unfolds : r.schema.Unfolds type shape) {b : List UInt8}
    (h : shape.encode r.size struct field value = .ok b) :
  r.HasType value type ∧ value.Writable
  := by
  induction unfolds generalizing value b with
  | integer width unsigned =>
    cases unsigned <;> cases value <;> try cases h
    all_goals
      rw [Shape.encode] at h
      split at h
      · next range => first | exact ⟨.int range, .int _⟩ | exact ⟨.uint range, .uint _⟩
      · cases h
  | float width =>
    cases width <;> cases value <;> try cases h
    all_goals exact ⟨.float _ _, .float _⟩
  | bool =>
    cases value <;> cases h
    constructor
    · exact .bool _
    · exact .bool _
  | string =>
    cases value with
    | string text =>
      obtain ⟨head, hhead, -⟩ := Except.bind_eq_ok.mp h
      constructor
      · exact .string text
      · exact .string (Encode.le_maxCount_of_count hhead)
    | _ => cases h
  | struct hs =>
    cases value with
    | ref target =>
      rw [Shape.encode] at h
      split at h
      · next here =>
        subst here
        rw [Encode.index] at h
        split at h
        · next inside => exact ⟨.ref inside, .ref target⟩
        · cases h
      · cases h
    | _ => cases h
  | list hitem _ ih =>
    cases value with
    | list items =>
      obtain ⟨head, hhead, h⟩ := Except.bind_eq_ok.mp h
      obtain ⟨parts, hparts, -⟩ := Except.bind_eq_ok.mp h
      have each : ∀ v ∈ items, r.HasType v _ ∧ v.Writable := fun v hv => by
        obtain ⟨part, hpart⟩ := Except.exists_of_mapM_eq_ok hparts v hv
        apply ih hpart
      constructor
      · exact .list hitem fun v hv => (each v hv).1
      · exact .list (Encode.le_maxCount_of_count hhead) fun v hv => (each v hv).2
    | _ => cases h

/-- In a slot of a type that stands for something the values that suit are written. -/
theorem encode_eq_ok_iff (wf : r.schema.WellFormed) (regular : r.Regular)
    (knows : r.schema.Knows type) (unfolds : r.schema.Unfolds type shape) :
  (∃ b, shape.encode r.size struct field value = .ok b) ↔ r.Suits value type
  := by
  rw [suits_iff wf regular knows]
  constructor
  · rintro ⟨b, h⟩
    apply hasType_of_encode unfolds h
  · rintro ⟨typed, writable⟩
    apply typed.exists_encode unfolds writable

/-! ### What is refused -/

/-- A value of another kind than the slot asks for is refused by its kind. -/
theorem encode_of_other_kind (unfolds : r.schema.Unfolds type shape)
    (other : type.takes value = false) :
  shape.encode r.size struct field value = .error (.typeMismatch shape.name value.kind)
  := by
  cases unfolds with
  | integer width unsigned => cases unsigned <;> cases value <;> first | rfl | cases other
  | float width => cases width <;> cases value <;> first | rfl | cases other
  | struct hs =>
    cases value with
    | null => cases other
    | ref target => apply if_neg (of_decide_eq_false other)
    | _ => rfl
  | _ => cases value <;> first | rfl | cases other

theorem encode_of_refuses (wf : r.schema.WellFormed) (regular : r.Regular)
    (knows : r.schema.Knows type) (unfolds : r.schema.Unfolds type shape)
    (h : r.Refuses struct field value type e) :
  shape.encode r.size struct field value = .error e
  := by
  induction h generalizing shape with
  | kind unfolds' other =>
    obtain rfl := unfolds.unique unfolds'
    apply encode_of_other_kind unfolds other
  | int range =>
    cases unfolds
    rw [Shape.encode, range]
    rfl
  | uint range =>
    cases unfolds
    rw [Shape.encode, range]
    rfl
  | string long =>
    cases unfolds
    exact Encode.string_eq_error.mpr ⟨long, rfl⟩
  | null id =>
    cases unfolds
    rfl
  | stale gone =>
    cases unfolds
    rw [Shape.encode, if_pos rfl, Encode.index]
    apply if_neg gone
  | length id long =>
    cases unfolds
    exact Except.bind_eq_error.mpr (.inl (Encode.count_eq_error.mpr ⟨long, rfl⟩))
  | item short htype hvalue _ before ih =>
    cases unfolds with
    | list htype' unfolds =>
      obtain rfl := Option.some.inj (htype.symm.trans htype')
      have knows := wf.knows_item htype
      obtain ⟨head, hhead⟩ := Encode.exists_count short
      refine Except.bind_eq_error.mpr (.inr ⟨head, hhead, Except.bind_eq_error.mpr (.inl ?_)⟩)
      refine Except.mapM_eq_error.mpr ⟨_, _, hvalue, ih knows unfolds, fun j other hj hother => ?_⟩
      apply (encode_eq_ok_iff wf regular knows unfolds).mpr (before j other hj hother)

theorem refuses_of_other_kind (unfolds : r.schema.Unfolds type shape)
    (h : shape.encode r.size struct field value = .error e) (other : type.takes value = false) :
  r.Refuses struct field value type e
  := by
  obtain rfl := Except.error.inj (h.symm.trans (encode_of_other_kind unfolds other))
  exact .kind unfolds other

theorem refuses_of_encode (wf : r.schema.WellFormed) (regular : r.Regular)
    (unfolds : r.schema.Unfolds type shape)
    (h : shape.encode r.size struct field value = .error e) :
  r.Refuses struct field value type e
  := by
  induction unfolds generalizing value e with
  | integer width unsigned =>
    have others := refuses_of_other_kind (.integer width unsigned) h
    cases unsigned with
    | false =>
      cases value with
      | int i =>
        rw [Shape.encode] at h
        split at h
        · cases h
        · next range =>
          obtain rfl := Except.error.inj h
          exact .int (Bool.eq_false_iff.mpr range)
      | _ => apply others rfl
    | true =>
      cases value with
      | uint n =>
        rw [Shape.encode] at h
        split at h
        · cases h
        · next range =>
          obtain rfl := Except.error.inj h
          exact .uint (Bool.eq_false_iff.mpr range)
      | _ => apply others rfl
  | float width =>
    have others := refuses_of_other_kind (.float width) h
    cases value with
    | float x => cases width <;> cases h
    | _ => apply others rfl
  | bool =>
    have others := refuses_of_other_kind .bool h
    cases value with
    | bool b => cases h
    | _ => apply others rfl
  | string =>
    have others := refuses_of_other_kind .string h
    cases value with
    | string text =>
      obtain ⟨long, rfl⟩ := Encode.string_eq_error.mp h
      exact .string long
    | _ => apply others rfl
  | @struct id s hs =>
    have others := refuses_of_other_kind (.struct hs) h
    cases value with
    | null =>
      obtain rfl := Except.error.inj h
      exact .null id
    | ref target =>
      by_cases here : target.struct = id
      · subst here
        rw [Shape.encode, if_pos rfl, Encode.index] at h
        split at h
        · cases h
        · next gone =>
          obtain rfl := Except.error.inj h
          exact .stale gone
      · apply others (decide_eq_false here)
    | _ => apply others rfl
  | @list id item shape hitem unfolds ih =>
    have others := refuses_of_other_kind (.list hitem unfolds) h
    cases value with
    | list items =>
      rcases Except.bind_eq_error.mp h with h | ⟨head, hhead, h⟩
      · obtain ⟨long, rfl⟩ := Encode.count_eq_error.mp h
        exact .length id long
      rcases Except.bind_eq_error.mp h with h | ⟨parts, -, ⟨⟩⟩
      obtain ⟨i, v, hv, failed, before⟩ := Except.mapM_eq_error.mp h
      refine .item (Encode.le_maxCount_of_count hhead) hitem hv (ih failed) fun j other hj ho => ?_
      apply (encode_eq_ok_iff wf regular (wf.knows_item hitem) unfolds).mp (before j other hj ho)
    | _ => apply others rfl

/-- In a slot of a type that stands for something the encoder refuses a value as it is to be
refused. -/
theorem encode_eq_error_iff (wf : r.schema.WellFormed) (regular : r.Regular)
    (knows : r.schema.Knows type) (unfolds : r.schema.Unfolds type shape) :
  shape.encode r.size struct field value = .error e ↔ r.Refuses struct field value type e
  := ⟨refuses_of_encode wf regular unfolds, encode_of_refuses wf regular knows unfolds⟩

end Region

end PoolGraph
