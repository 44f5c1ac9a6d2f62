import PoolGraph.Proofs.Compile.TypeSafety
import PoolGraph.Proofs.Region.Filling

/-!
# The check of the sizes before reading

Before it makes any object, reading compares the announced sizes to the bytes that are left.  No
bytes that could be read are refused (`accepts_decodePoolsWith`), so that without the check the same
bytes are accepted, and the check only replaces a later failure by the end of the data.  A failure
leaves the region as it was, wherever it occurs (`Region.fill_settles`).
-/

namespace PoolGraph

/-- With and without the check the spellings are accepted. -/
theorem accepts_decodePoolsWith (checked : Bool) (layout : List StructLayout) :
  Accepts (decodePoolsWith checked layout) (PoolsSpell layout)
  := by
  cases checked with
  | true =>
    rw [decodePoolsWith_true]
    apply accepts_decodePools
  | false =>
    apply accepts_decodeSizes_bind
    intro sizes same countable
    apply accepts_decodeObjects same countable

/-- Where the check makes a difference it stops with the end of the data before another failure. -/
theorem decodePoolsWith_eq_error {layout : List StructLayout} {bytes rest : List UInt8}
    {e : CodecError} (h : (decodePoolsWith true layout).run bytes = .error e rest) :
  ∃ e' rest', (decodePoolsWith false layout).run bytes = .error e' rest'
    ∧ (e = e' ∨ e = .endOfData)
  := by
  have refused : ∀ pools left, (decodePoolsWith false layout).run bytes ≠ .ok pools left := by
    intro pools left accepted
    have spelled := (accepts_decodePoolsWith false layout _ _ _).mp accepted
    rw [(accepts_decodePoolsWith true layout _ _ _).mpr spelled] at h
    cases h
  cases hrun : (decodePoolsWith false layout).run bytes with
  | ok pools left => exact absurd hrun (refused pools left)
  | error e' rest' =>
    use e', rest', rfl
    rw [run_decodePoolsWith] at h hrun
    cases hsizes : (decodeSizes layout).run bytes with
    | error e'' left =>
      rw [hsizes] at h hrun
      cases h
      cases hrun
      exact .inl rfl
    | ok sizes left =>
      rw [hsizes] at h hrun
      dsimp only at h hrun
      split at h
      · cases h
        exact .inr rfl
      · rw [Bool.false_and, if_neg Bool.false_ne_true, h] at hrun
        cases hrun
        exact .inl rfl

namespace Region

section

variable {r : Region} {layout : List StructLayout} {bytes : List UInt8}

theorem readWith_eq_ok {checked : Bool} {r' : Region} :
  r.readWith checked layout bytes = .ok r' ↔ ∃ pools b rest, PoolsSpell layout pools b
    ∧ bytes = b ++ rest ∧ r' = { r with pools }
  := by
  have accepts := accepts_decodePoolsWith checked layout bytes
  unfold readWith
  constructor
  · intro h
    split at h
    · next pools rest hrun =>
      obtain ⟨b, spelled, whole⟩ := (accepts pools rest).mp hrun
      use pools, b, rest, spelled, whole, (Except.ok.inj h).symm
    · cases h
  · rintro ⟨pools, b, rest, spelled, whole, rfl⟩
    rw [(accepts pools rest).mpr ⟨b, spelled, whole⟩]

theorem readWith_eq_error {e : CodecError} (h : r.readWith true layout bytes = .error e) :
  ∃ e', r.readWith false layout bytes = .error e' ∧ (e = e' ∨ e = .endOfData)
  := by
  unfold readWith at h ⊢
  split at h
  · cases h
  · next e'' rest hrun =>
    obtain rfl := Except.error.inj h
    obtain ⟨e', rest', hrun', reason⟩ := decodePoolsWith_eq_error hrun
    rw [hrun']
    use e', rfl, reason

theorem fill_of_not_empty (h : r.isEmpty = false) (checked : Bool) :
  r.fill checked bytes = .ok (r.settled (.error .regionNotEmpty))
  := by
  rw [fill, h]
  rfl

theorem deserialize_of_not_empty (h : r.isEmpty = false) :
  r.deserialize bytes = .ok (.error .regionNotEmpty)
  := by
  rw [deserialize, h]
  rfl

end

/-- Reading bytes into a region of a resolved schema either leaves the region that the decoder gives
or fails and leaves the region as it was.  Without the check of the sizes it leaves the same region
for the same bytes, and fails for the others, in the same way where the check stops nothing.  Every
reachable region is regular (`Reachable.regular`). -/
theorem fill_settles {d : Declarations} {root : Ref SchemaDecl} {schemas : List RegionSchema}
    (hresolve : (d.resolve root).run = .ok (.ok schemas)) {r : Region}
    (hschema : r.schema ∈ schemas) (regular : r.Regular) (bytes : List UInt8) :
  ∃ checked unchecked, r.deserialize bytes = .ok checked
    ∧ r.fill true bytes = .ok (r.settled checked) ∧ r.fill false bytes = .ok (r.settled unchecked)
    ∧ (∀ r', checked = .ok r' ↔ unchecked = .ok r')
    ∧ ∀ e, checked = .error e → ∃ e', unchecked = .error e' ∧ (e = e' ∨ e = .endOfData)
  := by
  cases empty : r.isEmpty with
  | false =>
    use Except.error CodecError.regionNotEmpty, Except.error CodecError.regionNotEmpty
    constructor
    · apply deserialize_of_not_empty empty
    constructor
    · apply fill_of_not_empty empty true
    constructor
    · apply fill_of_not_empty empty false
    constructor
    · intro _
      apply Iff.rfl
    · intro e h
      use e, h, .inl rfl
  | true =>
    have wf := Declarations.wellFormed_of_resolve hresolve r.schema hschema
    obtain ⟨layout, hlayout⟩ := wf.layout
    use readWith true layout r bytes, readWith false layout r bytes
    constructor
    · apply deserialize_eq empty hlayout bytes
    constructor
    · apply fill_eq regular empty hlayout true bytes
    constructor
    · apply fill_eq regular empty hlayout false bytes
    constructor
    · intro r'
      rw [readWith_eq_ok, readWith_eq_ok]
    · intro e
      apply readWith_eq_error

/-- Of three nodes there is only the reference to an eighth one.  The check finds too few bytes
before the reader comes to the reference. -/
theorem fill_settles_nodes :
  (∃ checked unchecked, (empty nodes).deserialize [3, 0, 0, 0, 7] = .ok checked
    ∧ (empty nodes).fill true [3, 0, 0, 0, 7] = .ok ((empty nodes).settled checked)
    ∧ (empty nodes).fill false [3, 0, 0, 0, 7] = .ok ((empty nodes).settled unchecked)
    ∧ (∀ r', checked = .ok r' ↔ unchecked = .ok r')
    ∧ ∀ e, checked = .error e → ∃ e', unchecked = .error e' ∧ (e = e' ∨ e = .endOfData))
    ∧ (empty nodes).fill true [3, 0, 0, 0, 7] = .ok (.error .endOfData, empty nodes)
    ∧ (empty nodes).fill false [3, 0, 0, 0, 7] = .ok (.error (.indexOutOfRange 7 3), empty nodes)
  := by
  constructor
  · apply fill_settles resolve_nodeDeclarations (r := empty nodes) (List.mem_singleton_self nodes)
    apply regular_empty
  constructor
  · rfl
  · rfl

end Region

end PoolGraph
