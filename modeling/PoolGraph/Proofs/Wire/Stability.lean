import PoolGraph.Proofs.Wire.Reading

/-!
# Readers and longer inputs

A reader is `Stable` when more bytes behind its input only matter to it if the input was too short:
what it reads it reads from the longer input as well, and leaves the additional bytes, and it fails
on the longer input as on the shorter one unless that was the end of the data.  The primitives are
stable, and so are readers that are put together from stable ones.  A stable reader that takes all
of its input finds the end of the data in every shorter one (`Stable.endOfData`).
-/

namespace PoolGraph

/-- Whether a reader makes the same of a longer input, unless it comes to the end of the data. -/
def Stable (p : Reader α) : Prop :=
  ∀ input more, match p.run input with
    | .ok x rest => p.run (input ++ more) = .ok x (rest ++ more)
    | .error e _ => e = .endOfData ∨ ∃ rest, p.run (input ++ more) = .error e rest

namespace Stable

theorem pure (x : α) :
  Stable (Pure.pure x)
  := fun _ _ => rfl

theorem throw (e : CodecError) :
  Stable (MonadExcept.throw e : Reader α)
  := fun input more => .inr ⟨input ++ more, rfl⟩

/-- Readers in a row are stable when each of them is. -/
theorem bind {p : Reader α} {f : α → Reader β} (hp : Stable p) (hf : ∀ x, Stable (f x)) :
  Stable (p >>= f)
  := by
  intro input more
  have first := hp input more
  rw [EStateM.run_bind, EStateM.run_bind]
  cases hrun : p.run input with
  | error e rest =>
    rw [hrun] at first
    rcases first with ended | ⟨rest', run⟩
    · exact .inl ended
    · rw [run]
      exact .inr ⟨rest', rfl⟩
  | ok x rest =>
    rw [hrun] at first
    dsimp only at first ⊢
    rw [first]
    apply hf x rest more

/-- What becomes of a result does not matter. -/
theorem map {p : Reader α} (hp : Stable p) (f : α → β) :
  Stable (p >>= fun x => Pure.pure (f x))
  := by
  apply hp.bind
  intro x
  apply pure

/-- Either of two stable readers is stable. -/
theorem ite {c : Prop} [Decidable c] {p q : Reader α} (hp : Stable p) (hq : Stable q) :
  Stable (if c then p else q)
  := by
  split
  · apply hp
  · apply hq

/-- A longer input has enough bytes when the shorter one has. -/
theorem guard {p : Reader α} (hp : Stable p) (least : Nat) :
  Stable (do if (← get).length < least then MonadExcept.throw .endOfData else p)
  := by
  intro input more
  simp only [EStateM.run_bind, EStateM.run_get]
  by_cases short : input.length < least
  · rw [if_pos short]
    exact .inl rfl
  · have enough : ¬(input ++ more).length < least := by
      rw [List.length_append]
      omega
    rw [if_neg short, if_neg enough]
    apply hp

/-- Reading items one after another is stable. -/
theorem mapM {f : α → Reader β} (h : ∀ x, Stable (f x)) (xs : List α) :
  Stable (xs.mapM f)
  := by
  induction xs with
  | nil =>
    rw [List.mapM_nil]
    apply pure
  | cons x xs ih =>
    rw [List.mapM_cons]
    apply (h x).bind
    intro y
    apply ih.map

/-- Every input that is shorter than the one that a stable reader takes ends too early. -/
theorem endOfData {p : Reader α} (hp : Stable p) {x : α} {b cut : List UInt8}
    (h : p.run b = .ok x []) (cuts : cut <+: b) (short : cut ≠ b) :
  ∃ rest, p.run cut = .error .endOfData rest
  := by
  obtain ⟨missing, rfl⟩ := cuts
  have longer := hp cut missing
  rw [h] at longer
  cases hrun : p.run cut with
  | ok y rest =>
    rw [hrun] at longer
    obtain ⟨-, none⟩ := EStateM.Result.ok.inj longer
    obtain ⟨-, rfl⟩ := List.append_eq_nil_iff.mp none.symm
    exact absurd (List.append_nil cut).symm short
  | error e rest =>
    rw [hrun] at longer
    rcases longer with rfl | ⟨rest', ⟨⟩⟩
    use rest

end Stable

/-! ### Primitives -/

namespace Decode

/-- A byte is read alike whatever follows it. -/
theorem stable_byte :
  Stable byte
  := by
  intro input more
  cases input with
  | nil => exact .inl rfl
  | cons b rest => rfl

/-- So are several. -/
theorem stable_bytes (n : Nat) :
  Stable (bytes n)
  := by
  intro input more
  rw [run_bytes, run_bytes]
  by_cases short : input.length < n
  · rw [if_pos short]
    exact .inl rfl
  · have enough : ¬(input ++ more).length < n := by
      rw [List.length_append]
      omega
    have inside : n ≤ input.length := Nat.le_of_not_lt short
    rw [if_neg short, if_neg enough]
    dsimp only
    rw [List.take_append_of_le_length inside, List.drop_append_of_le_length inside]

theorem stable_unsigned (width : Nat) :
  Stable (unsigned width)
  := (stable_bytes width).map _

theorem stable_signed (width : Nat) :
  Stable (signed width)
  := (stable_bytes width).map _

theorem stable_bool :
  Stable bool
  := by
  apply stable_byte.bind
  intro b
  apply Stable.ite (Stable.pure false)
  apply Stable.ite (Stable.pure true) (Stable.throw _)

theorem stable_binary32 :
  Stable binary32
  := (stable_unsigned 4).map _

theorem stable_binary64 :
  Stable binary64
  := (stable_unsigned 8).map _

/-- Counts are read alike whatever follows them. -/
theorem stable_count :
  Stable count
  := by
  apply (stable_unsigned 4).bind
  intro n
  apply Stable.ite (Stable.throw _) (Stable.pure n)

theorem stable_index (cardinality : Nat) :
  Stable (index cardinality)
  := by
  apply (stable_unsigned _).bind
  intro i
  apply Stable.ite (Stable.pure i) (Stable.throw _)

/-- Strings are read alike whatever follows them. -/
theorem stable_string :
  Stable string
  := by
  apply stable_count.bind
  intro n
  apply (stable_bytes n).bind
  intro taken
  split
  · apply Stable.pure
  · apply Stable.throw

/-- Items are read alike whatever follows them. -/
theorem stable_many {item : Reader α} (h : Stable item) (n : Nat) :
  Stable (many item n)
  := by
  unfold many
  generalize [] = before
  induction n generalizing before with
  | zero => apply Stable.pure
  | succ n ih =>
    apply h.bind
    intro x
    apply ih

end Decode

end PoolGraph
