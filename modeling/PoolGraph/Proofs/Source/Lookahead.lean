import Mathlib.Tactic.Use
import PoolGraph.Proofs.Source.Parser

/-!
# What a run looks at

A run never goes back behind where it began, and never forgets what was given up or refused
(`Progress.Onward`).  `Progress.reach` is the furthest offset at which it stood.  A parser is
`Local` when a run looks at no character behind the one at this offset: on a text that is the same
up to that character it does the same.
-/

namespace PoolGraph

/-- The furthest offset at which a run stood. -/
def Progress.reach (s : Progress) : Nat :=
  s.giveUp.furthest

/-! ### Moving onward -/

/-- Whether a state can come after another one: the cursor is not behind, nothing that was given up
is forgotten, and no refusal is taken back. -/
structure Progress.Onward (s s' : Progress) : Prop where
  took : ∃ text, s.cursor.Took text s'.cursor
  furthest : s.furthest ≤ s'.furthest
  refused : s'.refused = none → s.refused = none

namespace Progress.Onward

variable {s s' s₁ : Progress}

theorem refl (s : Progress) :
  s.Onward s
  := ⟨⟨[], .nil _⟩, Nat.le_refl _, id⟩

/-- Going onward twice is going onward. -/
theorem trans (h : s.Onward s₁) (h' : s₁.Onward s') :
  s.Onward s'
  := by
  obtain ⟨text, took⟩ := h.took
  obtain ⟨text', took'⟩ := h'.took
  exact ⟨⟨_, took.trans took'⟩, Nat.le_trans h.furthest h'.furthest, h.refused ∘ h'.refused⟩

/-- Taking a text is going onward. -/
theorem moveTo {text : List Char} {later : Cursor} (took : s.cursor.Took text later) :
  s.Onward { s with cursor := later }
  := ⟨⟨text, took⟩, Nat.le_refl _, id⟩

/-- What is given up is behind where it began, so the furthest offset stands. -/
theorem recover (h : s.Onward s') :
  s.Onward (s'.recover s.cursor)
  := ⟨⟨[], .nil _⟩, Nat.le_trans h.furthest (Nat.le_max_left _ _), h.refused⟩

/-- Going onward does not go back in the source. -/
theorem offset_le (h : s.Onward s') :
  s.cursor.offset ≤ s'.cursor.offset
  := by
  obtain ⟨text, -, offset⟩ := h.took
  omega

/-- What was reached before stays reached. -/
theorem reach_le (h : s.Onward s') :
  s.reach ≤ s'.reach
  := by
  have offset := h.offset_le
  have furthest := h.furthest
  simp only [Progress.reach, Progress.giveUp]
  omega

/-- Going back to the start of an attempt keeps what it reached. -/
theorem reach_recover (h : s.Onward s') :
  (s'.recover s.cursor).reach = s'.reach
  := by
  have offset := h.offset_le
  simp only [Progress.reach, Progress.recover, Progress.giveUp]
  omega

end Progress.Onward

/-- The place of the cursor has been reached. -/
theorem Progress.offset_le_reach (s : Progress) :
  s.cursor.offset ≤ s.reach
  := Nat.le_max_right _ _

/-! ### Texts that are the same up to an offset -/

/-- Whether two states are at one place of two texts, which are the same from there up to the offset
`stop` and then go on with `x` and with `y`. -/
structure Progress.Alike (stop : Nat) (x y : List Char) (s t : Progress) : Prop where
  furthest : t.furthest = s.furthest
  refused : t.refused = s.refused
  cursors : ∃ shared, s.cursor.Took shared ⟨stop, x⟩ ∧ t.cursor.Took shared ⟨stop, y⟩

namespace Cursor.Took

/-- The first character of a text that is taken is the one under the cursor. -/
theorem behind_advance {c later : Cursor} {first : Char} {text : List Char}
    (h : c.Took (first :: text) later) :
  c.advance.Took text later
  := by
  obtain ⟨offset, rest⟩ := c
  obtain ⟨rfl, size⟩ := h
  rw [textSize_cons, ← Nat.add_assoc] at size
  exact ⟨rfl, size⟩

/-- Characters that are taken up to one in the part that two texts share are the same in both. -/
theorem span_eq {c d : Cursor} {shared x y : List Char} {stop : Nat}
    (hc : c.Took shared ⟨stop, x⟩) (hd : d.Took shared ⟨stop, y⟩) {p : Char → Bool}
    (before : (c.span p).2.offset < stop) :
  (d.span p).1 = (c.span p).1
    ∧ ∃ left, (c.span p).2.Took left ⟨stop, x⟩ ∧ (d.span p).2.Took left ⟨stop, y⟩
  := by
  obtain ⟨offset, rest⟩ := c
  obtain ⟨offset', rest'⟩ := d
  obtain ⟨rfl, size⟩ := hc
  obtain ⟨rfl, size'⟩ := hd
  dsimp only at size size' before ⊢
  have all : ∀ c ∈ shared.takeWhile p, p c = true := fun _ => List.mem_takeWhile_imp
  cases hleft : shared.dropWhile p with
  | nil =>
    have whole : shared.takeWhile p = shared := by
      rw [← List.append_nil (shared.takeWhile p), ← hleft, List.takeWhile_append_dropWhile]
    rw [whole] at all
    rw [Cursor.span, List.takeWhile_append_of_pos all] at before
    simp only [List.map_append, List.sum_append] at before
    simp only [textSize] at size
    omega
  | cons first left =>
    have parts : shared = shared.takeWhile p ++ first :: left := by
      rw [← hleft, List.takeWhile_append_dropWhile]
    have stops : ∀ rest, ∀ c ∈ (first :: left ++ rest).head?, p c = false := by
      rintro rest _ ⟨⟩
      have head := List.head?_dropWhile_not p shared
      rw [hleft] at head
      apply head
    generalize shared.takeWhile p = taken at all parts
    subst parts
    rw [textSize_append, ← Nat.add_assoc] at size size'
    rw [List.append_assoc, List.append_assoc, Cursor.span_append all (stops x),
      Cursor.span_append all (stops y)]
    exact ⟨rfl, first :: left, ⟨rfl, size⟩, rfl, size'⟩

end Cursor.Took

namespace Progress.Alike

variable {stop : Nat} {x y : List Char} {s t s' t' : Progress}

/-- Two alike places have the same offset. -/
theorem offset (h : s.Alike stop x y t) :
  t.cursor.offset = s.cursor.offset
  := by
  obtain ⟨shared, ⟨-, hs⟩, -, ht⟩ := h.cursors
  dsimp only at hs ht
  omega

/-- Before the offset up to which the texts are the same there is the same character. -/
theorem peek?_eq (h : s.Alike stop x y t) (before : s.cursor.offset < stop) :
  t.cursor.peek? = s.cursor.peek?
  := by
  obtain ⟨_ | ⟨c, shared⟩, ⟨hs, offset⟩, ht, -⟩ := h.cursors
  · rw [textSize_nil] at offset
    dsimp only at offset
    omega
  · rw [Cursor.peek?, Cursor.peek?, hs, ht]
    rfl

theorem recover (h : s.Alike stop x y t) (h' : s'.Alike stop x y t') :
  (s'.recover s.cursor).Alike stop x y (t'.recover t.cursor)
  := by
  refine ⟨?_, h'.refused, h.cursors⟩
  simp only [Progress.recover, Progress.giveUp, h'.furthest, h'.offset]

/-- Refusing on both sides leaves the sides alike. -/
theorem refuse (h : s.Alike stop x y t) :
  s.refuse.Alike stop x y t.refuse
  := by
  refine ⟨h.furthest, ?_, h.cursors⟩
  simp only [Progress.refuse, h.refused, h.offset]

/-- The states behind a text that the two texts share. -/
theorem moveTo (h : s.Alike stop x y t) {shared : List Char} {c d : Cursor}
    (hc : c.Took shared ⟨stop, x⟩) (hd : d.Took shared ⟨stop, y⟩) :
  Progress.Alike stop x y { s with cursor := c } { t with cursor := d }
  := ⟨h.furthest, h.refused, shared, hc, hd⟩

/-- One step on both sides, before the place where the texts part, leaves the sides alike. -/
theorem advance (h : s.Alike stop x y t) (before : s.cursor.offset < stop) :
  Progress.Alike stop x y { s with cursor := s.cursor.advance }
    { t with cursor := t.cursor.advance }
  := by
  obtain ⟨_ | ⟨first, shared⟩, hs, ht⟩ := h.cursors
  · obtain ⟨-, offset⟩ := hs
    rw [textSize_nil] at offset
    dsimp only at offset
    omega
  · apply h.moveTo hs.behind_advance ht.behind_advance

end Progress.Alike

namespace Parser

/-- Whether the run of `q` from `t` does what that of `p` from `s` does, if the latter stays before
the offset up to which the texts are the same. -/
def Agrees (stop : Nat) (x y : List Char) (p q : Parser α) (s t : Progress) : Prop :=
  ∀ r? s', outcome p s = (r?, s') → s'.reach < stop →
    ∃ t', outcome q t = (r?, t') ∧ s'.Alike stop x y t'

/-- Whether a parser moves onward and decides by nothing but the characters up to the furthest that
it reached. -/
structure Local (p : Parser α) : Prop where
  onward : ∀ s : Progress, s.Onward (outcome p s).2
  agrees : ∀ {stop : Nat} {x y : List Char} {s t : Progress}, s.Alike stop x y t →
    Agrees stop x y p p s t

/-- A local parser goes onward. -/
theorem Local.onward_of {p : Parser α} (h : Local p) {s s' : Progress} {r? : Option α}
    (hrun : outcome p s = (r?, s')) :
  s.Onward s'
  := by
  have onward := h.onward s
  rwa [hrun] at onward

/-- A local parser keeps what was reached. -/
theorem Local.reach_le {p : Parser α} (h : Local p) {s s' : Progress} {r? : Option α}
    (hrun : outcome p s = (r?, s')) :
  s.reach ≤ s'.reach
  := (h.onward_of hrun).reach_le

namespace Agrees

variable {stop : Nat} {x y : List Char} {s t : Progress}

/-- If two parsers agree and what follows them agrees, so do the sequences. -/
theorem bind {p q : Parser α} {f g : α → Parser β} (h : Agrees stop x y p q s t)
    (hf : ∀ a, Local (f a))
    (hfg : ∀ a s' t', outcome p s = (some a, s') → outcome q t = (some a, t') →
      s'.Alike stop x y t' → Agrees stop x y (f a) (g a) s' t') :
  Agrees stop x y (p >>= f) (q >>= g) s t
  := by
  intro r? s' hrun before
  rw [outcome_bind] at hrun ⊢
  rcases hp : outcome p s with ⟨_ | a, s₁⟩
  · rw [hp] at hrun
    obtain ⟨rfl, rfl⟩ := Prod.mk.inj hrun
    obtain ⟨t', hq, alike⟩ := h none _ hp before
    rw [hq]
    exact ⟨t', rfl, alike⟩
  · rw [hp] at hrun
    have early := Nat.lt_of_le_of_lt ((hf a).reach_le hrun) before
    obtain ⟨t₁, hq, alike⟩ := h (some a) s₁ hp early
    rw [hq]
    apply hfg a s₁ t₁ hp hq alike r? s' hrun before

/-- If two parsers agree, so do the attempts of them. -/
theorem attempt {p q : Parser α} (h : Agrees stop x y p q s t) (hp : Local p)
    (alike : s.Alike stop x y t) :
  Agrees stop x y (attempt p) (attempt q) s t
  := by
  intro r? s' hrun before
  rw [outcome_attempt] at hrun ⊢
  rcases hsome : outcome p s with ⟨_ | a, s₁⟩
  · rw [hsome] at hrun
    obtain ⟨rfl, rfl⟩ := Prod.mk.inj hrun
    rw [(hp.onward_of hsome).reach_recover] at before
    obtain ⟨t₁, hq, alike₁⟩ := h none s₁ hsome before
    rw [hq]
    use t₁.recover t.cursor, rfl
    apply alike.recover alike₁
  · rw [hsome] at hrun
    obtain ⟨rfl, rfl⟩ := Prod.mk.inj hrun
    obtain ⟨t₁, hq, alike₁⟩ := h (some a) _ hsome before
    rw [hq]
    exact ⟨t₁, rfl, alike₁⟩

end Agrees

namespace Local

theorem pure (a : α) :
  Local (Pure.pure a : Parser α)
  := by
  refine ⟨.refl, ?_⟩
  intro stop x y s t alike r? s' hrun before
  obtain ⟨rfl, rfl⟩ := Prod.mk.inj hrun
  use t
  constructor
  · rfl
  · apply alike

theorem failure :
  Local (Alternative.failure : Parser α)
  := by
  refine ⟨.refl, ?_⟩
  intro stop x y s t alike r? s' hrun before
  obtain ⟨rfl, rfl⟩ := Prod.mk.inj hrun
  use t
  constructor
  · rfl
  · apply alike

/-- Local parsers in sequence are local. -/
theorem bind {p : Parser α} {f : α → Parser β} (hp : Local p) (hf : ∀ a, Local (f a)) :
  Local (p >>= f)
  := by
  constructor
  · intro s
    rw [outcome_bind]
    rcases hrun : outcome p s with ⟨_ | a, s₁⟩
    · apply hp.onward_of hrun
    · apply (hp.onward_of hrun).trans ((hf a).onward s₁)
  · intro stop x y s t alike
    apply (hp.agrees alike).bind hf
    intro a s' t' _ _ alike'
    apply (hf a).agrees alike'

/-- A parser may choose by the current offset and the current character. -/
theorem peek_bind {f : Cursor → Parser α} (hf : ∀ c, Local (f c))
    (same : ∀ c d : Cursor, c.offset = d.offset → c.peek? = d.peek? → f c = f d) :
  Local (cursor >>= f)
  := by
  constructor
  · intro s
    rw [outcome_cursor_bind]
    apply (hf s.cursor).onward s
  · intro stop x y s t alike r? s' hrun before
    rw [outcome_cursor_bind] at hrun ⊢
    have reached := Nat.le_trans s.offset_le_reach ((hf s.cursor).reach_le hrun)
    rw [same _ _ alike.offset (alike.peek?_eq (Nat.lt_of_le_of_lt reached before))]
    apply (hf s.cursor).agrees alike r? s' hrun before

/-- Parsers that do the same are both local. -/
theorem congr {p q : Parser α} (h : ∀ s, outcome p s = outcome q s) (hq : Local q) :
  Local p
  := by
  constructor
  · intro s
    rw [h]
    apply hq.onward s
  · intro stop x y s t alike r? s' hrun before
    rw [h] at hrun ⊢
    apply hq.agrees alike r? s' hrun before

/-- A test whose branches are local is local. -/
theorem ite {c : Prop} [Decidable c] {p q : Parser α} (hp : Local p) (hq : Local q) :
  Local (if c then p else q)
  := by
  split
  · apply hp
  · apply hq

/-- An attempt of a local parser is local. -/
theorem attempt {p : Parser α} (hp : Local p) :
  Local (attempt p)
  := by
  constructor
  · intro s
    rw [outcome_attempt]
    rcases hrun : outcome p s with ⟨_ | a, s₁⟩
    · apply (hp.onward_of hrun).recover
    · apply hp.onward_of hrun
  · intro stop x y s t alike
    apply (hp.agrees alike).attempt hp alike

end Local

/-- A parser that looks at a character has reached it. -/
theorem Local.of_before {p : Parser α} (onward : ∀ s : Progress, s.Onward (outcome p s).2)
    (agrees : ∀ {stop : Nat} {x y : List Char} {s t : Progress}, s.Alike stop x y t →
      s.cursor.offset < stop → Agrees stop x y p p s t) :
  Local p
  := by
  refine ⟨onward, ?_⟩
  intro stop x y s t alike r? s' hrun before
  have reached := (onward s).reach_le
  rw [hrun] at reached
  have early := Nat.lt_of_le_of_lt (Nat.le_trans s.offset_le_reach reached) before
  apply agrees alike early r? s' hrun before

/-! ### Characters -/

/-- Reading one given character looks at one character. -/
theorem local_char (c : Char) :
  Local (char c)
  := by
  apply Local.of_before
  · intro s
    rw [outcome_char]
    split
    · next peek => exact .moveTo (.advance peek)
    · exact .refl s
  · intro stop x y s t alike early r? s' hrun before
    rw [outcome_char] at hrun ⊢
    rw [alike.peek?_eq early]
    split at hrun
    · next peek =>
      obtain ⟨rfl, rfl⟩ := Prod.mk.inj hrun
      exact ⟨_, if_pos peek, alike.advance early⟩
    · next other =>
      obtain ⟨rfl, rfl⟩ := Prod.mk.inj hrun
      use t
      constructor
      · apply if_neg other
      · apply alike

/-- Taking characters looks at no more than the one behind them. -/
theorem local_takeWhile (p : Char → Bool) :
  Local (takeWhile p)
  := by
  constructor
  · intro s
    rw [outcome_takeWhile]
    exact .moveTo (.span _ p)
  · intro stop x y s t alike r? s' hrun before
    rw [outcome_takeWhile] at hrun ⊢
    obtain ⟨rfl, rfl⟩ := Prod.mk.inj hrun
    obtain ⟨shared, hs, ht⟩ := alike.cursors
    obtain ⟨same, left, hs, ht⟩ := hs.span_eq ht (Nat.lt_of_le_of_lt (Nat.le_max_right _ _) before)
    rw [same]
    exact ⟨_, rfl, alike.moveTo hs ht⟩

/-- Skipping blanks is local. -/
theorem local_blanks :
  Local blanks
  := (local_takeWhile _).bind fun _ => .pure ()

/-! ### Loops -/

/-- Whether a parser that succeeds takes a character. -/
def Consumes (p : Parser α) : Prop :=
  ∀ s s' x, outcome p s = (some x, s') → s'.cursor.rest.length < s.cursor.rest.length

/-- A parser that takes something takes something whatever local parser follows. -/
theorem Consumes.bind {p : Parser α} {f : α → Parser β} (hp : Consumes p)
    (hf : ∀ a, Local (f a)) :
  Consumes (p >>= f)
  := by
  intro s s' y hrun
  obtain ⟨a, s₁, hsome, hrun⟩ := outcome_bind_eq_some.mp hrun
  obtain ⟨text, rest, -⟩ := ((hf a).onward_of hrun).took
  have shorter := hp s s₁ a hsome
  rw [rest, List.length_append] at shorter
  omega

/-- A sequence takes something if its second part does. -/
theorem Local.bind_consumes {p : Parser α} {f : α → Parser β} (hp : Local p)
    (hf : ∀ a, Consumes (f a)) :
  Consumes (p >>= f)
  := by
  intro s s' y hrun
  obtain ⟨a, s₁, hsome, hrun⟩ := outcome_bind_eq_some.mp hrun
  obtain ⟨text, rest, -⟩ := (hp.onward_of hsome).took
  have shorter := hf a s₁ s' y hrun
  rw [rest, List.length_append]
  omega

/-- Reading one given character takes something. -/
theorem consumes_char (c : Char) :
  Consumes (char c)
  := by
  intro s s' _ hrun
  rw [(took_of_char hrun).1, List.length_append, List.length_singleton]
  omega

/-- An attempt that finds something is a run that finds it. -/
theorem of_attempt_eq_some {p : Parser α} {s s' : Progress} {a : α}
    (h : outcome (attempt p) s = (some (some a), s')) :
  outcome p s = (some a, s')
  := by
  rcases outcome_attempt_eq_some h with ⟨_, ⟨⟩, hsome⟩ | ⟨⟨⟩, -⟩
  apply hsome

/-- A loop over a local parser is local, by induction on the rounds that are left. -/
theorem local_manyWithin {p : Parser α} (hp : Local p) (n : Nat) (found : List α) :
  Local (manyWithin p n found)
  := by
  induction n generalizing found with
  | zero => apply Local.pure
  | succ n ih =>
    apply hp.attempt.bind
    rintro (_ | a)
    · apply Local.pure
    · apply ih

/-- A loop that is not ended by its bound ends where the parser fails, whatever the bound is. -/
theorem Agrees.manyWithin {stop : Nat} {x y : List Char} {p : Parser α} (hp : Local p)
    (consumes : Consumes p) {n m : Nat} {found : List α} {s t : Progress}
    (alike : s.Alike stop x y t) (hn : s.cursor.rest.length < n) (hm : t.cursor.rest.length < m) :
  Agrees stop x y (manyWithin p n found) (manyWithin p m found) s t
  := by
  induction n generalizing m found s t with
  | zero => cases hn
  | succ n ih =>
    cases m with
    | zero => cases hm
    | succ m =>
      apply ((hp.agrees alike).attempt hp alike).bind
      · rintro (_ | a)
        · apply Local.pure
        · apply local_manyWithin hp
      · rintro (_ | a) s' t' hs ht alike'
        · apply (Local.pure _).agrees alike'
        · have shorter := consumes s s' a (of_attempt_eq_some hs)
          have shorter' := consumes t t' a (of_attempt_eq_some ht)
          apply ih alike' <;> omega

/-- The bound of a loop is more than there are characters left, and does not matter. -/
theorem local_many {p : Parser α} (hp : Local p) (consumes : Consumes p) :
  Local (many p)
  := by
  constructor
  · intro s
    rw [many, outcome_cursor_bind]
    apply (local_manyWithin hp _ _).onward s
  · intro stop x y s t alike r? s' hrun before
    rw [many, outcome_cursor_bind] at hrun ⊢
    exact Agrees.manyWithin hp consumes alike (Nat.lt_succ_self _) (Nat.lt_succ_self _) r? s' hrun
      before

end Parser

end PoolGraph
