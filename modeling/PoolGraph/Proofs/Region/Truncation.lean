import PoolGraph.Proofs.Region.Filling
import PoolGraph.Proofs.Region.RoundTrip
import PoolGraph.Proofs.Wire.Stability

/-!
# Bytes of a region that are cut off

The reader of a region is stable (`stable_decodePools`).  It takes all bytes that a region is
written as, and so every beginning of them ends too early: reading it fails with the end of the data
and leaves the region empty, and all the bytes can then be read into the same region
(`Region.truncation_detected`).
-/

namespace PoolGraph

theorem Shape.stable_decode (size : Nat → Nat) (shape : Shape) :
  Stable (shape.decode size)
  := by
  induction shape with
  | integer width unsigned =>
    cases unsigned with
    | false => apply (Decode.stable_signed _).map
    | true => apply (Decode.stable_unsigned _).map
  | float width =>
    cases width with
    | w32 => apply Decode.stable_binary32.map
    | w64 => apply Decode.stable_binary64.map
  | bool => apply Decode.stable_bool.map
  | string => apply Decode.stable_string.map
  | reference id name => apply (Decode.stable_index _).map
  | list item ih =>
    apply Decode.stable_count.bind
    intro n
    apply (Decode.stable_many ih n).map

theorem StructLayout.stable_decode (size : Nat → Nat) (s : StructLayout) :
  Stable (s.decode size)
  := by
  apply Stable.mapM
  intro field
  apply Shape.stable_decode

theorem stable_decodeObjects (layout : List StructLayout) (sizes : List Nat) :
  Stable (decodeObjects layout sizes)
  := by
  apply Stable.mapM
  rintro ⟨s, n⟩
  apply (Decode.stable_many (s.stable_decode _) n).map

theorem stable_decodePools (layout : List StructLayout) :
  Stable (decodePools layout)
  := by
  apply (Stable.mapM (fun _ => Decode.stable_count) layout).bind
  intro sizes
  apply (stable_decodeObjects layout sizes).guard

namespace Region

/-- A beginning of the bytes of a region that is not all of them is refused with the end of the
data.  The region that it was read into stays without objects and can be filled with the objects
that the bytes stand for, in which the numbers in single-precision slots are rounded.  Every
reachable region is regular (`Reachable.regular`). -/
theorem truncation_detected {r s : Region} {b cut : List UInt8} (regular : r.Regular)
    (h : r.serialize = .ok (.ok b)) (schema : s.schema = r.schema) (shaped : s.Regular)
    (empty : s.isEmpty = true) (cuts : cut <+: b) (short : cut ≠ b) :
  s.deserialize cut = .ok (.error .endOfData) ∧ ∃ s', s.fill true cut = .ok (.error .endOfData, s')
    ∧ s'.isEmpty = true ∧ ∃ r', r.rounded = .ok r' ∧ s'.deserialize b = .ok (.ok r')
      ∧ s'.fill true b = .ok (.ok (), r')
  := by
  obtain ⟨layout, hlayout, hrun, -⟩ := decodePools_of_serialize regular h []
  rw [List.append_nil] at hrun
  obtain ⟨rest, ended⟩ := (stable_decodePools layout).endOfData hrun cuts short
  have cutRead : s.readWith true layout cut = .error .endOfData := by
    rw [readWith, decodePoolsWith_true, ended]
  have read : s.readWith true layout b = .ok ⟨s.schema, roundPools layout r.pools⟩ := by
    rw [readWith, decodePoolsWith_true, hrun]
  have here : s.schema.layout = .ok layout := schema ▸ hlayout
  constructor
  · rw [deserialize_eq empty here, cutRead]
  use s
  constructor
  · rw [fill_eq shaped empty here, cutRead]
    rfl
  constructor
  · apply empty
  use ⟨s.schema, roundPools layout r.pools⟩
  constructor
  · rw [schema]
    exact Except.bind_eq_ok.mpr ⟨layout, hlayout, rfl⟩
  constructor
  · rw [deserialize_eq empty here, read]
  · rw [fill_eq shaped empty here, read]
    rfl

/-- The bytes are cut within the second node, behind its index of one byte. -/
theorem truncation_detected_cycle :
  (Region.empty (cycle Binary64.zero).schema).deserialize
      [2, 0, 0, 0, 1, 1, 0, 0, 0, 0, 0, 128, 63, 0] = .ok (.error .endOfData)
    ∧ ∃ s', (Region.empty (cycle Binary64.zero).schema).fill true
        [2, 0, 0, 0, 1, 1, 0, 0, 0, 0, 0, 128, 63, 0] = .ok (.error .endOfData, s')
      ∧ s'.isEmpty = true ∧ ∃ r', (cycle ⟨0x3FF0000000000000⟩).rounded = .ok r'
        ∧ s'.deserialize [2, 0, 0, 0, 1, 1, 0, 0, 0, 0, 0, 128, 63, 0, 0, 0, 0, 0] = .ok (.ok r')
        ∧ s'.fill true [2, 0, 0, 0, 1, 1, 0, 0, 0, 0, 0, 128, 63, 0, 0, 0, 0, 0] = .ok (.ok (), r')
  := by
  apply truncation_detected (r := cycle ⟨0x3FF0000000000000⟩) (regular_cycle _)
  · rfl
  · rfl
  · apply regular_empty
  · apply isEmpty_empty
  · decide
  · decide

end Region

end PoolGraph
