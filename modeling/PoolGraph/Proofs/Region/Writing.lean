import PoolGraph.Proofs.Region.WellTyped

/-!
# What writing fails on

The values that can be written wherever they are of the type are those without unset references and
with countable strings and lists (`Region.HasType.exists_encode`), and an unset reference is
reported with its struct and field.  The first object and the first field on which writing fails
decide how it does (`error?_encodePools`).
-/

namespace PoolGraph

/-- Whether no reference in a value is unset and no count in it is too large, at any depth of
lists. -/
inductive Value.Writable : Value → Prop where
  | int (i : Int64) : Writable (.int i)
  | uint (n : UInt64) : Writable (.uint n)
  | float (x : Binary64) : Writable (.float x)
  | bool (b : Bool) : Writable (.bool b)
  | string {text : String} (short : text.utf8ByteSize ≤ maxCount) : Writable (.string text)
  | ref (target : Instance) : Writable (.ref target)
  | list {items : List Value} (short : items.length ≤ maxCount) (all : ∀ v ∈ items, Writable v) :
      Writable (.list items)

/-- Whether a type is that of a reference to an object. -/
def FieldType.isStruct : FieldType → Bool
  | .struct _ => true
  | _ => false

/-- A value of its type without anything against it is written. -/
theorem Region.HasType.exists_encode {r : Region} {value : Value} {type : FieldType}
    (typed : r.HasType value type) {shape : Shape} (h : r.schema.Unfolds type shape)
    (writable : value.Writable) (struct field : String) :
  ∃ b, shape.encode r.size struct field value = .ok b
  := by
  induction typed generalizing shape with
  | int range =>
    cases h
    exact ⟨_, by rw [Shape.encode, if_pos range]⟩
  | uint range =>
    cases h
    exact ⟨_, by rw [Shape.encode, if_pos range]⟩
  | float x width =>
    cases h
    cases width <;> exact ⟨_, rfl⟩
  | bool b =>
    cases h
    use Encode.bool b
    rfl
  | string text =>
    cases h
    cases writable with
    | string short => apply Encode.exists_string short
  | null id => cases writable
  | @ref target holds =>
    cases h
    have inside : target.index < r.size target.struct := holds
    exact ⟨_, by rw [Shape.encode, if_pos rfl, Encode.index, if_pos inside]⟩
  | list hitem _ ih =>
    cases h with
    | list hitem' hshape =>
      obtain rfl := Option.some.inj (hitem.symm.trans hitem')
      cases writable with
      | list short all =>
        obtain ⟨head, hhead⟩ := Encode.exists_count short
        obtain ⟨parts, hparts⟩ := Except.exists_mapM_ok fun v hv => ih v hv hshape (all v hv)
        use head ++ parts.flatten,
          Except.bind_eq_ok.mpr ⟨head, hhead, Except.bind_eq_ok.mpr ⟨parts, hparts, rfl⟩⟩

theorem Value.writable_zero {type : FieldType} (h : type.isStruct = false) :
  (Value.zero type).Writable
  := by
  cases type with
  | integer width unsigned =>
    cases unsigned with
    | false => apply Writable.int
    | true => apply Writable.uint
  | float width => apply Writable.float
  | bool => apply Writable.bool
  | string => apply Writable.string (Nat.zero_le _)
  | struct id => cases h
  | list id => apply Writable.list (Nat.zero_le _) (List.forall_mem_nil _)

/-! ### The first failure -/

theorem head?_map_filter {p : α → Bool} {f : α → β} {xs : List α} :
  ((xs.filter p).map f).head? = xs.findSome? fun x => if p x then some (f x) else none
  := by
  induction xs with
  | nil => rfl
  | cons x xs ih =>
    rw [List.filter_cons, List.findSome?_cons]
    cases p x with
    | true => rfl
    | false => apply ih

theorem StructLayout.error?_encode (size : Nat → Nat) (s : StructLayout) (object : Object) :
  Except.error? (s.encode size object) = (s.fields.zip object).findSome? fun p =>
    Except.error? (p.1.2.encode size s.name p.1.1 p.2)
  := by
  rw [StructLayout.encode, Except.error?_bind_pure, Except.error?_mapM]

/-- When all counts can be written, the first pool with an object that cannot be written decides,
and there the first such object. -/
theorem error?_encodePools {layout : List StructLayout} {pools : List (Pool Object)}
    (countable : ∀ pool ∈ pools, pool.size ≤ maxCount) :
  Except.error? (encodePools layout pools) = (layout.zip pools).findSome? fun p =>
    p.2.toList.findSome? fun object =>
      Except.error? (p.1.encode (sizeIn (pools.map Pool.size)) object)
  := by
  obtain ⟨counts, hcounts⟩ : ∃ counts, (pools.map Pool.size).mapM Encode.count = .ok counts := by
    apply Except.exists_mapM_ok
    intro size hsize
    obtain ⟨pool, hpool, rfl⟩ := List.mem_map.mp hsize
    apply Encode.exists_count (countable pool hpool)
  rw [encodePools, hcounts]
  show Except.error? ((layout.zip pools).mapM _ >>= _) = _
  rw [Except.error?_bind_pure, Except.error?_mapM]
  simp only [Except.error?_bind_pure, Except.error?_mapM]

end PoolGraph
