import PoolGraph.Proofs.Region.Reachable

/-!
# Regions through bytes

`Region.deserialize_serialize` says what comes back from the bytes of a region, whatever stands
behind them, and `Region.serialize_deserialize` that the bytes a region was read from are those
that it is written as.
-/

namespace PoolGraph

namespace Region

/-! ### What is written is read -/

/-- The region with the numbers in single-precision slots rounded to single precision. -/
def rounded (r : Region) : Except Fault Region := do
  return { r with pools := roundPools (← r.schema.layout) r.pools }

/-- The decoder takes exactly the bytes of a region and leaves what stands behind them. -/
theorem decodePools_of_serialize {r : Region} {b : List UInt8} (regular : r.Regular)
    (h : r.serialize = .ok (.ok b)) (rest : List UInt8) :
  ∃ layout, r.schema.layout = .ok layout
    ∧ (decodePools layout).run (b ++ rest) = .ok (roundPools layout r.pools) rest
    ∧ (roundPools layout r.pools).map Pool.size = r.sizes
  := by
  obtain ⟨layout, hlayout, encoded⟩ := regular.serialize_eq_ok.mp h
  rw [Regular, ← RegionSchema.layout_widths hlayout] at regular
  have spelled := poolsSpell_of_encodePools regular encoded
  use layout, hlayout
  constructor
  · apply (accepts_decodePools layout).run_append spelled rest
  apply map_size_roundPools
  rw [regular.length_eq, List.length_map]

/-- From the bytes of a region and anything behind them, an empty region of its schema is filled
with the same objects, in which the numbers in single-precision slots are rounded.  Every reachable
region is regular (`Reachable.regular`). -/
theorem deserialize_serialize {r s : Region} {b : List UInt8} (regular : r.Regular)
    (h : r.serialize = .ok (.ok b)) (schema : s.schema = r.schema) (empty : s.isEmpty = true)
    (rest : List UInt8) :
  ∃ r', r.rounded = .ok r' ∧ s.deserialize (b ++ rest) = .ok (.ok r') ∧ r'.sizes = r.sizes
  := by
  obtain ⟨layout, hlayout, hrun, hsizes⟩ := decodePools_of_serialize regular h rest
  use ⟨r.schema, roundPools layout r.pools⟩
  constructor
  · exact Except.bind_eq_ok.mpr ⟨layout, hlayout, rfl⟩
  constructor
  · apply deserialize_eq_ok.mpr
    rw [schema]
    exact ⟨empty, layout, rest, hlayout, hrun, rfl⟩
  · apply hsizes

/-- Two objects that refer to each other, one of them with a weight. -/
def cycle (weight : Binary64) : Region where
  schema := ⟨"R", [⟨"Node", [⟨"next", .struct 0⟩, ⟨"weights", .list 0⟩]⟩], [.float .w32]⟩
  pools := [⟨#[[.ref ⟨0, 1⟩, .list [.float weight]], [.ref ⟨0, 0⟩, .list []]]⟩]

theorem regular_cycle (weight : Binary64) :
  (cycle weight).Regular
  := by
  simp [Regular, cycle, PoolsRegular, RegionSchema.widths, Pool.toList]

/-- A weight just above one comes back as one. -/
theorem deserialize_serialize_cycle :
  ∃ r', (cycle ⟨0x3FF0000000000001⟩).rounded = .ok r'
    ∧ (Region.empty (cycle Binary64.zero).schema).deserialize
        ([2, 0, 0, 0, 1, 1, 0, 0, 0, 0, 0, 128, 63, 0, 0, 0, 0, 0] ++ [7]) = .ok (.ok r')
    ∧ r'.sizes = (cycle ⟨0x3FF0000000000001⟩).sizes
  := by
  apply deserialize_serialize (r := cycle ⟨0x3FF0000000000001⟩) (regular_cycle _)
  · rfl
  · rfl
  · rfl

/-! ### What is read is written -/

/-- Whether the not-a-numbers in floating-point slots are canonical.  A slot that was read from
bytes is so exactly when its pattern is (`Binary32.isCanonical_widen`). -/
def Canonical (r : Region) : Prop :=
  ∀ layout, r.schema.layout = .ok layout → PoolsCanonical layout r.pools

/-- Whether every object has a value for every field that fits it, without unset references. -/
def Filled (r : Region) : Prop :=
  ∀ layout, r.schema.layout = .ok layout → PoolsFilled layout r.pools

/-- A region that was read is filled, and written as the bytes that the decoder took; only what
it left behind is gone. -/
theorem serialize_deserialize {r s : Region} {bytes : List UInt8}
    (h : s.deserialize bytes = .ok (.ok r)) (canonical : r.Canonical) :
  r.Filled ∧ ∃ layout b rest, r.schema.layout = .ok layout
    ∧ (readPools layout).run bytes = .ok r.pools rest ∧ bytes = b ++ rest
    ∧ r.serialize = .ok (.ok b)
  := by
  have regular := regular_of_deserialize h
  obtain ⟨-, layout, rest, hlayout, hrun, hschema⟩ := deserialize_eq_ok.mp h
  have hread : (readPools layout).run bytes = .ok r.pools rest := by
    rw [readPools_eq (RegionSchema.below_layout hlayout), WireReader.run_lift, hrun]
  rw [← hschema] at hlayout
  obtain ⟨b, spelled, rfl⟩ := (accepts_decodePools layout _ _ _).mp hrun
  constructor
  · intro layout' hlayout'
    obtain rfl := Except.ok.inj (hlayout.symm.trans hlayout')
    apply filled_of_poolsSpell spelled
  · have encoded := encodePools_of_poolsSpell spelled (canonical layout hlayout)
    have written := regular.serialize_eq_ok.mpr ⟨layout, hlayout, encoded⟩
    use layout, b, rest, hlayout, hread, rfl, written

theorem serialize_deserialize_cycle :
  (cycle ⟨0x3FF0000000000000⟩).Filled ∧ ∃ layout b rest,
    (cycle ⟨0x3FF0000000000000⟩).schema.layout = .ok layout
      ∧ (readPools layout).run [2, 0, 0, 0, 1, 1, 0, 0, 0, 0, 0, 128, 63, 0, 0, 0, 0, 0, 7]
        = .ok (cycle ⟨0x3FF0000000000000⟩).pools rest
      ∧ [2, 0, 0, 0, 1, 1, 0, 0, 0, 0, 0, 128, 63, 0, 0, 0, 0, 0, 7] = b ++ rest
      ∧ (cycle ⟨0x3FF0000000000000⟩).serialize = .ok (.ok b)
  := by
  apply serialize_deserialize (s := Region.empty (cycle Binary64.zero).schema) rfl
  intro layout hlayout
  obtain rfl := Except.ok.inj hlayout
  have one : Binary64.IsCanonical ⟨0x3FF0000000000000⟩ := by decide
  simp only [PoolsCanonical, StructLayout.Canonical, cycle, Pool.toList, List.reverse_cons,
    List.reverse_nil, List.nil_append, List.cons_append, List.zip_cons_cons, List.zip_nil_right,
    List.forall_mem_cons]
  simp [Shape.Canonical, one]

end Region

end PoolGraph
