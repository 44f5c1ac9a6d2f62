import Mathlib.Data.List.TakeWhile
import Mathlib.Tactic.Use
import PoolGraph.Proofs.Source.Characters
import PoolGraph.Source.Parser

/-!
# Runs of parsers

`Parser.outcome` is what a parser gives and the state in which it leaves off; it is taken apart
by `outcome_bind_eq_some`.  `Takes` and `Fails` say what a parser does on a known text, whatever
was given up or refused before; they are put together by `Takes.bind` and `Fails.bind`.
-/

namespace PoolGraph

/-! ### Texts between cursors -/

/-- Whether a later cursor stands behind a text that begins at an earlier one. -/
def Cursor.Took (c : Cursor) (text : List Char) (later : Cursor) : Prop :=
  c.rest = text ++ later.rest ∧ later.offset = c.offset + textSize text

namespace Cursor.Took

/-- Nothing lies between a cursor and itself. -/
theorem nil (c : Cursor) :
  c.Took [] c
  := ⟨rfl, rfl⟩

/-- Texts between cursors stand one behind the other. -/
theorem trans {c c₁ c₂ : Cursor} {text t : List Char} (h : c.Took text c₁)
    (h' : c₁.Took t c₂) :
  c.Took (text ++ t) c₂
  := by
  constructor
  · rw [h.1, h'.1, List.append_assoc]
  · rw [h'.2, h.2, textSize_append, Nat.add_assoc]

/-- The text from one cursor to another is what was taken between them. -/
theorem textUntil {c later : Cursor} {text : List Char} (h : c.Took text later) :
  c.textUntil later = String.ofList text
  := by
  have first : c = ⟨c.offset, text ++ later.rest⟩ := by
    rw [← h.1]
  have second : later = ⟨c.offset + textSize text, later.rest⟩ := by
    rw [← h.2]
  rw [first, second, Cursor.textUntil_append]

/-- Advancing takes the first character. -/
theorem advance {c : Cursor} {first : Char} (h : c.peek? = some first) :
  c.Took [first] c.advance
  := by
  obtain ⟨offset, _ | ⟨c, rest⟩⟩ := c
  · cases h
  · obtain rfl := Option.some.inj h
    exact ⟨rfl, by simp [Cursor.advance]⟩

/-- A span takes the characters in it. -/
theorem span (c : Cursor) (p : Char → Bool) :
  c.Took (c.span p).1 (c.span p).2
  := ⟨List.takeWhile_append_dropWhile.symm, rfl⟩

end Cursor.Took

namespace Parser

/-! ### Outcomes -/

/-- What a parser gives, if it does not fail, and the state in which it leaves off. -/
def outcome (p : Parser α) (s : Progress) : Option α × Progress :=
  p.run s

/-- Parsers in a row run one after the other, up to the first that fails. -/
theorem outcome_bind (p : Parser α) (f : α → Parser β) (s : Progress) :
  outcome (p >>= f) s = match outcome p s with
    | (some x, s') => outcome (f x) s'
    | (none, s') => (none, s')
  := by
  have h : outcome (p >>= f) s
      = ((outcome p s).1.elim (pure none) fun x => (f x).run) (outcome p s).2 := by
    unfold outcome
    rw [OptionT.run_bind]
    rfl
  rw [h]
  rcases outcome p s with ⟨_ | x, s'⟩ <;> rfl

/-- Parsers in a row succeed when each of them does. -/
theorem outcome_bind_eq_some {p : Parser α} {f : α → Parser β} {s s₂ : Progress} {y : β} :
  outcome (p >>= f) s = (some y, s₂)
    ↔ ∃ x s₁, outcome p s = (some x, s₁) ∧ outcome (f x) s₁ = (some y, s₂)
  := by
  rw [outcome_bind]
  rcases outcome p s with ⟨_ | x, s₁⟩
  · simp
  · simp [and_assoc]

theorem outcome_cursor_bind (f : Cursor → Parser α) (s : Progress) :
  outcome (cursor >>= f) s = outcome (f s.cursor) s
  := by
  rw [outcome_bind]
  rfl

/-- An attempt goes back to where it began when it fails, and remembers how far it came. -/
theorem outcome_attempt (p : Parser α) (s : Progress) :
  outcome (attempt p) s = match outcome p s with
    | (some x, s') => (some (some x), s')
    | (none, s') => (some none, s'.recover s.cursor)
  := by
  rcases h : outcome p s with ⟨_ | x, s'⟩ <;>
    simp only [outcome, OptionT.run] at h <;>
    simp only [outcome, attempt, OptionT.run, OptionT.mk, bind, StateT.bind, get, getThe,
      MonadStateOf.get, StateT.get, pure, h] <;>
    rfl

/-- An attempt gives what was found, or nothing at the place where it began. -/
theorem outcome_attempt_eq_some {p : Parser α} {s s' : Progress} {x? : Option α}
    (h : outcome (attempt p) s = (some x?, s')) :
  (∃ x, x? = some x ∧ outcome p s = (some x, s'))
    ∨ x? = none ∧ s'.cursor = s.cursor ∧ ∃ s₁, outcome p s = (none, s₁)
  := by
  rw [outcome_attempt] at h
  split at h
  · next x s₁ hp =>
    obtain ⟨hx, rfl⟩ := Prod.mk.inj h
    exact .inl ⟨x, (Option.some.inj hx).symm, hp⟩
  · next s₁ hp =>
    obtain ⟨hx, rfl⟩ := Prod.mk.inj h
    exact .inr ⟨(Option.some.inj hx).symm, rfl, s₁, hp⟩

/-- A character is taken where it stands. -/
theorem outcome_char (c : Char) (s : Progress) :
  outcome (char c) s = if s.cursor.peek? = some c then
      (some (), { s with cursor := s.cursor.advance })
    else (none, s)
  := by
  rw [char, outcome_cursor_bind]
  split <;> rfl

/-- The longest run of such characters is taken. -/
theorem outcome_takeWhile (p : Char → Bool) (s : Progress) :
  outcome (takeWhile p) s = (some (s.cursor.span p).1, { s with cursor := (s.cursor.span p).2 })
  := by
  rw [takeWhile, outcome_cursor_bind]
  rfl

/-! ### What a successful run took -/

/-- A character that is taken is the text between the cursors. -/
theorem took_of_char {c : Char} {s s' : Progress} {x : Unit}
    (h : outcome (char c) s = (some x, s')) :
  s.cursor.Took [c] s'.cursor
  := by
  rw [outcome_char] at h
  split at h
  · next peek =>
    obtain ⟨-, rfl⟩ := Prod.mk.inj h
    apply Cursor.Took.advance peek
  · cases h

/-- A run that is taken consists of such characters, and none of them follows it. -/
theorem took_of_takeWhile {p : Char → Bool} {s s' : Progress} {taken : List Char}
    (h : outcome (takeWhile p) s = (some taken, s')) :
  s.cursor.Took taken s'.cursor ∧ (∀ c ∈ taken, p c = true)
    ∧ ∀ c ∈ s'.cursor.rest.head?, p c = false
  := by
  rw [outcome_takeWhile] at h
  obtain ⟨htaken, rfl⟩ := Prod.mk.inj h
  obtain rfl := Option.some.inj htaken
  constructor
  · apply Cursor.Took.span _ p
  constructor
  · intro c hc
    apply List.mem_takeWhile_imp hc
  · intro c hc
    have first := List.head?_dropWhile_not p s.cursor.rest
    rw [show (s.cursor.rest.dropWhile p).head? = some c from hc] at first
    apply first

/-! ### Runs on a known text -/

/-- Whether a parser takes a text and gives a value, with this rest behind the text. -/
def Takes (p : Parser α) (offset : Nat) (text : List Char) (x : α) (rest : List Char) : Prop :=
  ∀ s : Progress, s.cursor = ⟨offset, text ++ rest⟩ →
    ∃ s', outcome p s = (some x, s') ∧ s'.cursor = ⟨offset + textSize text, rest⟩

/-- Whether a parser fails on a text. -/
def Fails (p : Parser α) (offset : Nat) (rest : List Char) : Prop :=
  ∀ s : Progress, s.cursor = ⟨offset, rest⟩ → ∃ s', outcome p s = (none, s')

namespace Takes

theorem pure (x : α) (offset : Nat) (rest : List Char) :
  Takes (Pure.pure x) offset [] x rest
  := by
  intro s hs
  use s, rfl, hs

/-- Parsers in a row take texts in a row. -/
theorem bind {p : Parser α} {f : α → Parser β} {offset : Nat} {text t rest : List Char} {x : α}
    {y : β} (hp : Takes p offset text x (t ++ rest))
    (hf : Takes (f x) (offset + textSize text) t y rest) :
  Takes (p >>= f) offset (text ++ t) y rest
  := by
  intro s hs
  rw [List.append_assoc] at hs
  obtain ⟨s₁, hx, hs₁⟩ := hp s hs
  obtain ⟨s₂, hy, hs₂⟩ := hf s₁ hs₁
  use s₂
  constructor
  · apply outcome_bind_eq_some.mpr ⟨x, s₁, hx, hy⟩
  rw [hs₂, textSize_append, Nat.add_assoc]

/-- A second parser that takes nothing. -/
theorem bind_nil {p : Parser α} {f : α → Parser β} {offset : Nat} {text rest : List Char} {x : α}
    {y : β} (hp : Takes p offset text x rest)
    (hf : Takes (f x) (offset + textSize text) [] y rest) :
  Takes (p >>= f) offset text y rest
  := by
  have h := bind (t := []) hp hf
  rw [List.append_nil] at h
  apply h

/-- What becomes of a result does not change what is taken. -/
theorem map {p : Parser α} {offset : Nat} {text rest : List Char} {x : α}
    (hp : Takes p offset text x rest) (f : α → β) :
  Takes (p >>= fun x => Pure.pure (f x)) offset text (f x) rest
  := hp.bind_nil (pure (f x) _ rest)

theorem cursor (offset : Nat) (rest : List Char) :
  Takes Parser.cursor offset [] ⟨offset, rest⟩ rest
  := by
  intro s hs
  use s
  constructor
  · rw [← show s.cursor = ⟨offset, rest⟩ from hs]
    rfl
  · apply hs

theorem cursor_bind {f : Cursor → Parser α} {offset : Nat} {text rest : List Char} {x : α}
    (h : Takes (f ⟨offset, text ++ rest⟩) offset text x rest) :
  Takes (Parser.cursor >>= f) offset text x rest
  := (cursor offset (text ++ rest)).bind h

theorem moveTo (offset : Nat) (text rest : List Char) :
  Takes (Parser.moveTo ⟨offset + textSize text, rest⟩) offset text () rest
  := by
  rintro s -
  exact ⟨_, rfl, rfl⟩

/-- An attempt takes what succeeds. -/
theorem attempt {p : Parser α} {offset : Nat} {text rest : List Char} {x : α}
    (h : Takes p offset text x rest) :
  Takes (Parser.attempt p) offset text (some x) rest
  := by
  intro s hs
  obtain ⟨s', hx, hs'⟩ := h s hs
  use s'
  constructor
  · rw [outcome_attempt, hx]
  · apply hs'

/-- A character is taken where it stands. -/
theorem char (c : Char) (offset : Nat) (rest : List Char) :
  Takes (Parser.char c) offset [c] () rest
  := by
  intro s hs
  use { s with cursor := ⟨offset + textSize [c], rest⟩ }
  constructor
  · rw [outcome_char, hs]
    apply if_pos rfl
  · rfl

/-- A run of such characters is taken whole where none of them follows. -/
theorem takeWhile {p : Char → Bool} {taken rest : List Char} (all : ∀ c ∈ taken, p c = true)
    (stops : ∀ c ∈ rest.head?, p c = false) (offset : Nat) :
  Takes (Parser.takeWhile p) offset taken taken rest
  := by
  intro s hs
  use { s with cursor := ⟨offset + textSize taken, rest⟩ }
  constructor
  · rw [outcome_takeWhile, hs, Cursor.span_append all stops]
  · rfl

/-- Blanks are taken whole where none follows. -/
theorem blanks {taken rest : List Char} (all : ∀ c ∈ taken, Text.isBlank c = true)
    (stops : ∀ c ∈ rest.head?, Text.isBlank c = false) (offset : Nat) :
  Takes Parser.blanks offset taken () rest
  := (takeWhile all stops offset).map fun _ => ()

/-- What a parser takes, it does not fail on. -/
theorem not_none {p : Parser α} {offset : Nat} {text rest : List Char} {x : α}
    (h : Takes p offset text x rest) {s s' : Progress}
    (hs : s.cursor = ⟨offset, text ++ rest⟩) :
  outcome p s ≠ (none, s')
  := by
  obtain ⟨s₁, hx, -⟩ := h s hs
  rw [hx]
  rintro ⟨⟩

end Takes

namespace Fails

theorem failure (offset : Nat) (rest : List Char) :
  Fails (Alternative.failure : Parser α) offset rest
  := by
  rintro s -
  use s
  rfl

/-- Parsers in a row fail when the first does. -/
theorem bind_left {p : Parser α} {offset : Nat} {rest : List Char} (hp : Fails p offset rest)
    (f : α → Parser β) :
  Fails (p >>= f) offset rest
  := by
  intro s hs
  obtain ⟨s', hp⟩ := hp s hs
  use s'
  rw [outcome_bind, hp]

/-- Parsers in a row fail when one fails behind the text of those before it. -/
theorem bind {p : Parser α} {f : α → Parser β} {offset : Nat} {text rest : List Char} {x : α}
    (hp : Takes p offset text x rest) (hf : Fails (f x) (offset + textSize text) rest) :
  Fails (p >>= f) offset (text ++ rest)
  := by
  intro s hs
  obtain ⟨s₁, hx, hs₁⟩ := hp s hs
  obtain ⟨s₂, hf⟩ := hf s₁ hs₁
  use s₂
  rw [outcome_bind, hx]
  apply hf

/-- An attempt at what fails takes nothing and succeeds. -/
theorem attempt {p : Parser α} {offset : Nat} {rest : List Char} (h : Fails p offset rest) :
  Takes (Parser.attempt p) offset [] none rest
  := by
  intro s hs
  obtain ⟨s', hp⟩ := h s hs
  use s'.recover s.cursor
  constructor
  · rw [outcome_attempt, hp]
  · apply hs

/-- A character is not taken where another one stands. -/
theorem char {c : Char} {rest : List Char} (h : rest.head? ≠ some c) (offset : Nat) :
  Fails (Parser.char c) offset rest
  := by
  intro s hs
  use s
  rw [outcome_char, hs]
  apply if_neg h

end Fails

end Parser

end PoolGraph
