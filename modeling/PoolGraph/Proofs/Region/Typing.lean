import PoolGraph.Proofs.Region.References
import PoolGraph.Proofs.Schema.WellFormed
import PoolGraph.Region.Wire

/-!
# Types of values

`Region.HasType` says that a value is of a type in a region: integers are in range, references lead
to objects of the right struct, and every item of a list is of the item type.  In a region of a
well-formed schema it is what `Region.conforms` tests (`Region.conforms_eq_ok_true`), and it leaves
the encoder two reasons to fail, a reference that was never set and a count that is too large
(`Shape.ofTyped_of_encode`).
-/

namespace PoolGraph

namespace Region

/-- Whether a value is of a type in a region. -/
inductive HasType (r : Region) : Value → FieldType → Prop where
  | int {width : IntWidth} {i : Int64} (range : width.contains false i.toInt = true) :
      HasType r (.int i) (.integer width false)
  | uint {width : IntWidth} {n : UInt64} (range : width.contains true n.toNat = true) :
      HasType r (.uint n) (.integer width true)
  | float (x : Binary64) (width : FloatWidth) : HasType r (.float x) (.float width)
  | bool (b : Bool) : HasType r (.bool b) .bool
  | string (text : String) : HasType r (.string text) .string
  | null (id : Nat) : HasType r .null (.struct id)
  | ref {target : Instance} (holds : r.Holds target) :
      HasType r (.ref target) (.struct target.struct)
  | list {id : Nat} {item : FieldType} {items : List Value}
      (hitem : r.schema.lists[id]? = some item) (all : ∀ v ∈ items, HasType r v item) :
      HasType r (.list items) (.list id)

variable {r r' : Region} {type : FieldType} {value : Value}

theorem hasType_ref_iff {target : Instance} {id : Nat} :
  r.HasType (.ref target) (.struct id) ↔ target.struct = id ∧ target.index < r.size id
  := by
  constructor
  · intro typed
    cases typed with
    | ref holds => exact ⟨rfl, holds⟩
  · rintro ⟨rfl, inside⟩
    exact .ref inside

/-- The zero value of a type that stands for something is of the type. -/
theorem hasType_zero (knows : r.schema.Knows type) :
  r.HasType (.zero type) type
  := by
  cases type with
  | integer width unsigned =>
    cases unsigned with
    | false =>
      apply HasType.int
      cases width <;> decide
    | true =>
      apply HasType.uint
      cases width <;> decide
  | float width => apply HasType.float
  | bool => apply HasType.bool
  | string => apply HasType.string
  | struct id => apply HasType.null
  | list id => exact .list (List.getElem?_eq_getElem knows) (List.forall_mem_nil _)

/-- Values stay of their types as long as no object is lost. -/
theorem HasType.mono (h : r.HasType value type) (schema : r'.schema = r.schema)
    (held : ∀ target, r.Holds target → r'.Holds target) :
  r'.HasType value type
  := by
  induction h with
  | ref holds => exact .ref (held _ holds)
  | list hitem _ ih =>
    rw [← schema] at hitem
    exact .list hitem ih
  | _ => constructor <;> assumption

/-- References that lead to objects are all that a value of some type has. -/
theorem HasType.holds (h : r.HasType value type) {target : Instance}
    (mentions : value.Mentions target) :
  r.Holds target
  := by
  induction h with
  | ref holds =>
    cases mentions
    apply holds
  | list _ _ ih =>
    cases mentions with
    | inside hitem mentions => apply ih _ hitem mentions
  | _ => cases mentions

/-- A value keeps its type when its references are replaced by ones to objects of the same
structs in another region. -/
theorem HasType.rename (h : r.HasType value type) (schema : r'.schema = r.schema)
    {image : Instance → Option Instance}
    (sent : ∀ old copy, image old = some copy → copy.struct = old.struct ∧ r'.Holds copy)
    {value' : Value} (renamed : value.rename? image = some value') :
  r'.HasType value' type
  := by
  induction h generalizing value' with
  | ref _ =>
    obtain ⟨copy, found, rfl⟩ := Option.map_eq_some_iff.mp renamed
    obtain ⟨struct, holds⟩ := sent _ copy found
    rw [← struct]
    exact .ref holds
  | list hitem _ ih =>
    obtain ⟨items', hitems, rfl⟩ := Option.map_eq_some_iff.mp renamed
    rw [← schema] at hitem
    refine .list hitem fun v hv => ?_
    have all := Value.renameItems?_eq_some.mp hitems
    obtain ⟨i, hi, rfl⟩ := List.getElem_of_mem hv
    apply ih _ (List.getElem_mem (all.length_eq ▸ hi)) (all.get (all.length_eq ▸ hi) hi)
  | _ =>
    obtain rfl := Option.some.inj renamed
    constructor <;> assumption

/-! ### Types and shapes -/

/-- The values of a type are those that fit its shape. -/
theorem fits_iff_hasType {shape : Shape} (h : r.schema.Unfolds type shape) :
  shape.fits r.size value = true ↔ r.HasType value type
  := by
  induction h generalizing value with
  | integer width unsigned =>
    constructor
    · intro fits
      cases unsigned <;> cases value <;> first | exact .int fits | exact .uint fits | cases fits
    · rintro (range | range)
      · apply range
      · apply range
  | float width =>
    constructor
    · intro fits
      cases value <;> first | exact .float _ _ | cases fits
    · rintro ⟨⟩
      rfl
  | bool =>
    constructor
    · intro fits
      cases value <;> first | exact .bool _ | cases fits
    · rintro ⟨⟩
      rfl
  | string =>
    constructor
    · intro fits
      cases value <;> first | exact .string _ | cases fits
    · rintro ⟨⟩
      rfl
  | @struct id s hs =>
    cases value with
    | null => exact iff_of_true rfl (.null id)
    | ref target =>
      rw [hasType_ref_iff, Shape.fits, Bool.and_eq_true, beq_iff_eq, decide_eq_true_iff]
    | _ =>
      constructor
      · intro fits
        cases fits
      · intro typed
        cases typed
  | list hitem _ ih =>
    constructor
    · intro fits
      cases value with
      | list items => exact .list hitem fun v hv => ih.mp (List.all_eq_true.mp fits v hv)
      | _ => cases fits
    · intro typed
      cases typed with
      | list hitem' all =>
        obtain rfl := Option.some.inj (hitem.symm.trans hitem')
        exact List.all_eq_true.mpr fun v hv => ih.mpr (all v hv)

/-! ### Types and the check of values -/

theorem conforms_ref_eq_ok_true (regular : r.Regular) {target : Instance} {id : Nat}
    (knows : r.schema.Knows (.struct id)) :
  r.conforms (.ref target) (.struct id) = .ok true ↔ r.HasType (.ref target) (.struct id)
  := by
  have inside : id < r.pools.length := by
    rw [regular.length_pools]
    apply knows
  rw [hasType_ref_iff, conforms]
  split
  · next here =>
    rw [poolSize_eq_ok.mpr ⟨inside, rfl⟩, and_iff_right here]
    show Except.ok (decide (target.index < r.size id)) = .ok true ↔ _
    rw [Except.ok.injEq, decide_eq_true_iff]
  · next elsewhere =>
    rw [iff_false_right fun typed => elsewhere typed.1]
    rintro ⟨⟩

mutual

/-- In a region of a well-formed schema the check of a value decides whether it is of the type. -/
theorem conforms_eq_ok_true (wf : r.schema.WellFormed) (regular : r.Regular) (value : Value)
    {type : FieldType} (knows : r.schema.Knows type) :
  r.conforms value type = .ok true ↔ r.HasType value type
  := by
  cases type with
  | list id =>
    cases value with
    | list items =>
      have hitem := List.getElem?_eq_getElem knows
      rw [conforms, RegionSchema.listItem_eq_ok.mpr hitem]
      show r.itemsConform items _ = _ ↔ _
      rw [itemsConform_eq_ok_true wf regular items (wf.knows_item hitem)]
      constructor
      · apply HasType.list hitem
      · intro typed
        cases typed with
        | list hitem' all =>
          obtain rfl := Option.some.inj (hitem.symm.trans hitem')
          apply all
    | _ =>
      constructor
      · intro h
        cases h
      · intro typed
        cases typed
  | struct id =>
    cases value with
    | null => exact iff_of_true rfl (.null id)
    | ref target => apply conforms_ref_eq_ok_true regular knows
    | _ =>
      constructor
      · intro h
        cases h
      · intro typed
        cases typed
  | integer width unsigned =>
    constructor
    · intro h
      cases unsigned <;> cases value <;>
        first | exact .int (Except.ok.inj h) | exact .uint (Except.ok.inj h) | cases h
    · rintro (range | range)
      · apply congrArg Except.ok range
      · apply congrArg Except.ok range
  | _ =>
    constructor
    · intro h
      cases value <;> first | constructor | cases h
    · rintro ⟨⟩
      rfl

theorem itemsConform_eq_ok_true (wf : r.schema.WellFormed) (regular : r.Regular)
    (items : List Value) {type : FieldType} (knows : r.schema.Knows type) :
  r.itemsConform items type = .ok true ↔ ∀ v ∈ items, r.HasType v type
  := by
  cases items with
  | nil => apply iff_of_true rfl (List.forall_mem_nil _)
  | cons item rest =>
    rw [itemsConform, List.forall_mem_cons, ← conforms_eq_ok_true wf regular item knows,
      ← itemsConform_eq_ok_true wf regular rest knows]
    cases r.conforms item type with
    | error fault =>
      constructor
      · intro h
        cases h
      · rintro ⟨⟨⟩, -⟩
    | ok conforms =>
      cases conforms with
      | false =>
        constructor
        · intro h
          cases h
        · rintro ⟨⟨⟩, -⟩
      | true =>
        rw [and_iff_right rfl]
        rfl

end

end Region

/-! ### Types and the encoder -/

/-- The failures that writing can meet where every value is of its type. -/
inductive CodecError.OfTyped : CodecError → Prop where
  | nullReference (struct field : String) : OfTyped (.nullReference struct field)
  | countOutOfRange (count : Nat) : OfTyped (.countOutOfRange count)

theorem Encode.ofTyped_of_count {n : Nat} {e : CodecError} (h : Encode.count n = .error e) :
  e.OfTyped
  := by
  unfold Encode.count at h
  split at h
  · obtain rfl := Except.error.inj h
    apply CodecError.OfTyped.countOutOfRange
  · cases h

theorem Encode.ofTyped_of_string {text : String} {e : CodecError}
    (h : Encode.string text = .error e) :
  e.OfTyped
  := by
  rcases Except.bind_eq_error.mp h with h | ⟨head, -, ⟨⟩⟩
  apply ofTyped_of_count h

theorem Shape.ofTyped_of_encode {size : Nat → Nat} {struct field : String} {shape : Shape}
    {value : Value} {e : CodecError} (fits : shape.fits size value = true)
    (h : shape.encode size struct field value = .error e) :
  e.OfTyped
  := by
  induction shape generalizing value with
  | integer width unsigned =>
    cases unsigned <;> cases value <;> try cases fits
    all_goals
      have range : width.contains _ _ = true := fits
      simp only [encode, range, if_true] at h
      cases h
  | float width =>
    cases width <;> cases value <;> try cases fits
    all_goals cases h
  | bool =>
    cases value <;> try cases fits
    cases h
  | string =>
    cases value <;> try cases fits
    apply Encode.ofTyped_of_string h
  | reference id name =>
    cases value with
    | null =>
      obtain rfl := Except.error.inj h
      apply CodecError.OfTyped.nullReference
    | ref target =>
      obtain ⟨here, inside⟩ := (Bool.and_eq_true _ _).mp fits
      simp only [encode, beq_iff_eq.mp here, if_true, Encode.index, of_decide_eq_true inside] at h
      cases h
    | _ => cases fits
  | list item ih =>
    cases value with
    | list items =>
      rcases Except.bind_eq_error.mp h with h | ⟨head, -, h⟩
      · apply Encode.ofTyped_of_count h
      rcases Except.bind_eq_error.mp h with h | ⟨parts, -, ⟨⟩⟩
      obtain ⟨v, hv, h⟩ := Except.exists_of_mapM_eq_error h
      apply ih (List.all_eq_true.mp fits v hv) h
    | _ => cases fits

end PoolGraph
