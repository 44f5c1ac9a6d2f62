import PoolGraph.Proofs.Expr.Lookahead
import PoolGraph.Proofs.Expr.Tiling

/-!
# Where parsers get stuck

`Parser.Explores` says of a parser and a language that a run takes a text of the language or stops,
and that every text in front of an offset where it stopped or gave something up can go on to a text
of the language, unless it ends with an escape that there is not (`Stuck`).  One parser behind
another one explores the texts of the one language with those of the other behind them
(`Explores.bind`), if the first are made of whole tokens: a literal that is not closed could not be
one in front of more text.
-/

namespace PoolGraph

open Grammar

/-- Texts, each with the offsets at which it may begin. -/
abbrev Language := List Char → Nat → Prop

namespace Language

/-- The texts from which things are derived. -/
def of (R : List Char → Nat → α → Prop) : Language :=
  fun text offset => ∃ x, R text offset x

/-- A text of one language with a text of another one behind it. -/
inductive Then (L M : Language) : Language where
  | mk {offset : Nat} {text rest : List Char} (first : L text offset)
      (more : M rest (offset + textSize text)) : Then L M (text ++ rest) offset

/-- A text of a language, or none. -/
def optional (L : Language) : Language :=
  fun text offset => text = [] ∨ L text offset

/-- Runs of white space. -/
def blanks : Language :=
  fun text _ => Blanks text

/-- A character alone. -/
def single (c : Char) : Language :=
  fun text _ => text = [c]

/-- Whether there is a text of the language at every offset. -/
def Anywhere (L : Language) : Prop :=
  ∀ offset, ∃ text, L text offset

/-- Whether the texts of a language are made of whole tokens. -/
def Whole (file : Nat) (L : Language) : Prop :=
  ∀ text offset, L text offset → ∃ tokens, Tiles file text offset tokens

/-- A text that may begin anywhere goes on with another that may. -/
theorem Anywhere.then {L M : Language} (hL : L.Anywhere) (hM : M.Anywhere) :
  (Then L M).Anywhere
  := by
  intro offset
  obtain ⟨text, first⟩ := hL offset
  obtain ⟨rest, more⟩ := hM (offset + textSize text)
  exact ⟨_, first, more⟩

/-- A text that may be left out may begin anywhere. -/
theorem anywhere_optional (L : Language) :
  L.optional.Anywhere
  := fun _ => ⟨[], .inl rfl⟩

/-- Blanks may stand anywhere. -/
theorem anywhere_blanks :
  blanks.Anywhere
  := fun _ => ⟨[], List.forall_mem_nil _⟩

/-- A character may stand anywhere. -/
theorem anywhere_single (c : Char) :
  (single c).Anywhere
  := fun _ => ⟨[c], rfl⟩

/-- Blanks hold no token. -/
theorem whole_blanks (file : Nat) :
  blanks.Whole file
  := fun _ _ h => ⟨[], .blanks h⟩

/-- A separator is no token. -/
theorem whole_single {c : Char} (h : Separates c) (file : Nat) :
  (single c).Whole file
  := by
  rintro _ offset rfl
  use [], .separator h

/-- An optional text is whole when it is so where it stands. -/
theorem Whole.optional {L : Language} {file : Nat} (h : L.Whole file) :
  L.optional.Whole file
  := by
  rintro text offset (rfl | hL)
  · use [], .nil
  · apply h text offset hL

/-- Texts that are made of tokens are whole. -/
theorem whole_of_rows {R : List Char → Nat → α → Prop} {view : α → List Token} {file : Nat}
    (h : Rows file R view) :
  (of R).Whole file
  := by
  rintro text offset ⟨x, hx⟩
  use view x, h text offset x hx

end Language

open PoolGraph.Language

/-- Whether a text ends behind a backslash and a character that is no escape, in a string literal:
whole tokens, an opening quote, and part of a literal stand in front of the backslash. -/
inductive BadEscape (file : Nat) : Language where
  | mk {offset : Nat} {front inner value : List Char} {tokens : List Token} {c : Char}
      (tiles : Tiles file front offset tokens) (quoted : Quoted inner value)
      (unknown : ∀ d, ¬ Escape c d) :
      BadEscape file (front ++ '"' :: (inner ++ ['\\', c])) offset

/-- Whether a text can go on to one of the language, or ends with an escape that there is not. -/
def Stuck (file : Nat) (L : Language) : Language :=
  fun text offset => (∃ rest, L (text ++ rest) offset) ∨ BadEscape file text offset

namespace Stuck

variable {file offset : Nat} {L M : Language} {text rest : List Char}

/-- A text of the language is stuck nowhere. -/
theorem of_mem (h : L text offset) :
  Stuck file L text offset
  := .inl ⟨[], by rwa [List.append_nil]⟩

/-- The empty text is the beginning of a text that may begin anywhere. -/
theorem nil (h : L.Anywhere) :
  Stuck file L [] offset
  := .inl (h offset)

/-- What goes on to a text of one language goes on to one of a larger language. -/
theorem mono (h : ∀ text, L text offset → M text offset) (stuck : Stuck file L text offset) :
  Stuck file M text offset
  := stuck.imp_left fun ⟨rest, hL⟩ => ⟨rest, h _ hL⟩

/-- What goes on to the first of two texts goes on to both. -/
theorem then_left (hM : M.Anywhere) (stuck : Stuck file L text offset) :
  Stuck file (Then L M) text offset
  := by
  rcases stuck with ⟨rest, hL⟩ | escape
  · obtain ⟨more, hmore⟩ := hM (offset + textSize (text ++ rest))
    refine .inl ⟨rest ++ more, ?_⟩
    rw [← List.append_assoc]
    exact .mk hL hmore
  · exact .inr escape

/-- Behind a whole first text, what goes on to the second goes on to both. -/
theorem then_right (whole : L.Whole file) (hL : L text offset)
    (stuck : Stuck file M rest (offset + textSize text)) :
  Stuck file (Then L M) (text ++ rest) offset
  := by
  rcases stuck with ⟨more, hM⟩ | escape
  · refine .inl ⟨more, ?_⟩
    rw [List.append_assoc]
    exact .mk hL hM
  -- The tokens in front of the open literal now begin with those of the first text.
  · obtain ⟨tokens, tiles⟩ := whole _ _ hL
    obtain ⟨tiles', quoted, unknown⟩ := escape
    rw [← List.append_assoc]
    exact .inr (.mk (tiles.append tiles') quoted unknown)

end Stuck

/-- Spellings in a row spell values in a row. -/
theorem Grammar.Quoted.append {inner value more value' : List Char} (h : Quoted inner value)
    (h' : Quoted more value') :
  Quoted (inner ++ more) (value ++ value')
  := by
  induction h with
  | nil => apply h'
  | plain quote backslash _ ih => exact .plain quote backslash ih
  | escape stands _ ih => exact .escape stands ih

namespace Parser

/-- Whether a text up to a furthest offset is stuck, if anything was given up since `s`. -/
def Marked (file : Nat) (L : Language) (s : Progress) (furthest : Nat) : Prop :=
  furthest = s.furthest
    ∨ ∃ text rest, s.cursor.Took text ⟨furthest, rest⟩ ∧ Stuck file L text s.cursor.offset

/-- What is known of a run from `s` to `s'` that refused nothing: it took a text of the language or
got stuck, and what it gave up, it gave up where it was stuck. -/
structure Explored (file : Nat) (L : Language) (s : Progress) (succeeds : Bool) (s' : Progress) :
    Prop where
  refused : s.refused = none
  took : ∃ text, s.cursor.Took text s'.cursor
    ∧ if succeeds then L text s.cursor.offset else Stuck file L text s.cursor.offset
  furthest : Marked file L s s'.furthest

/-- Whether a run from a state explores a language, unless it refuses something. -/
def Explores (file : Nat) (p : Parser α) (L : Language) (s : Progress) : Prop :=
  ∀ r? s', outcome p s = (r?, s') → s'.refused = none → Explored file L s r?.isSome s'

variable {file : Nat} {L M : Language} {s : Progress}

namespace Marked

variable {furthest : Nat}

/-- A mark stays good in a language in which no more texts are stuck. -/
theorem imp (h : ∀ text, Stuck file L text s.cursor.offset → Stuck file M text s.cursor.offset)
    (marked : Marked file L s furthest) :
  Marked file M s furthest
  := marked.imp_right fun ⟨text, rest, took, stuck⟩ => ⟨text, rest, took, h text stuck⟩

/-- Where a run is stuck it may also give up. -/
theorem recover {s₁ : Progress} {text : List Char} (marked : Marked file L s s₁.furthest)
    (took : s.cursor.Took text s₁.cursor) (stuck : Stuck file L text s.cursor.offset) (c : Cursor) :
  Marked file L s (s₁.recover c).furthest
  := by
  rcases Nat.le_total s₁.furthest s₁.cursor.offset with low | high
  · rw [show (s₁.recover c).furthest = s₁.cursor.offset from Nat.max_eq_right low]
    exact .inr ⟨text, s₁.cursor.rest, took, stuck⟩
  · rw [show (s₁.recover c).furthest = s₁.furthest from Nat.max_eq_left high]
    apply marked

end Marked

namespace Explores

theorem mono {p : Parser α} (h : Explores file p L s)
    (sub : ∀ text, L text s.cursor.offset → M text s.cursor.offset) :
  Explores file p M s
  := by
  intro r? s' hrun kept
  obtain ⟨refused, ⟨text, took, good⟩, marked⟩ := h r? s' hrun kept
  refine ⟨refused, ⟨text, took, ?_⟩, marked.imp fun _ => Stuck.mono sub⟩
  cases r? with
  | none => apply Stuck.mono sub good
  | some x => apply sub text good

/-- Parsers that run alike explore alike. -/
theorem congr {p q : Parser α} (h : outcome p s = outcome q s) (hq : Explores file q L s) :
  Explores file p L s
  := by
  intro r? s' hrun
  rw [h] at hrun
  apply hq r? s' hrun

/-- Parsers in a row explore texts in a row. -/
theorem bind {p : Parser α} {f : α → Parser β} (hp : Explores file p L s) (whole : L.Whole file)
    (hM : M.Anywhere)
    (hf : ∀ x s₁, outcome p s = (some x, s₁) → Explores file (f x) M s₁) :
  Explores file (p >>= f) (Then L M) s
  := by
  intro r? s' hrun kept
  rw [outcome_bind] at hrun
  rcases hsome : outcome p s with ⟨_ | x, s₁⟩
  · rw [hsome] at hrun
    obtain ⟨rfl, rfl⟩ := Prod.mk.inj hrun
    obtain ⟨refused, ⟨text, took, stuck⟩, marked⟩ := hp none _ hsome kept
    exact ⟨refused, ⟨text, took, Stuck.then_left hM stuck⟩, marked.imp fun _ => Stuck.then_left hM⟩
  · rw [hsome] at hrun
    obtain ⟨refused, ⟨text', took', good⟩, marked'⟩ := hf x s₁ hsome r? s' hrun kept
    obtain ⟨refused, ⟨text, took, first⟩, marked⟩ := hp (some x) s₁ hsome refused
    rw [Marked, took.2] at marked'
    rw [took.2] at good
    refine ⟨refused, ⟨text ++ text', took.trans took', ?_⟩, ?_⟩
    · cases r? with
      | none => apply Stuck.then_right whole first good
      | some y => exact .mk first good
    · rcases marked' with same | ⟨text', rest, took', stuck⟩
      · rw [same]
        exact marked.imp fun _ => Stuck.then_left hM
      · exact .inr ⟨text ++ text', rest, took.trans took', stuck.then_right whole first⟩

/-- Doing nothing explores a language of the empty text. -/
theorem pure (x : α) (h : L [] s.cursor.offset) :
  Explores file (Pure.pure x) L s
  := by
  intro r? s' hrun kept
  obtain ⟨rfl, rfl⟩ := Prod.mk.inj hrun
  exact ⟨kept, ⟨[], .nil _, h⟩, .inl rfl⟩

/-- Failing at once explores any language that may begin there. -/
theorem failure (hL : L.Anywhere) :
  Explores file (Alternative.failure : Parser α) L s
  := by
  intro r? s' hrun kept
  obtain ⟨rfl, rfl⟩ := Prod.mk.inj hrun
  exact ⟨kept, ⟨[], .nil _, Stuck.nil hL⟩, .inl rfl⟩

/-- What becomes of a result does not change what is explored. -/
theorem map {p : Parser α} (h : Explores file p L s) (f : α → β) :
  Explores file (p >>= fun x => Pure.pure (f x)) L s
  := by
  intro r? s' hrun kept
  rw [outcome_bind] at hrun
  rcases hsome : outcome p s with ⟨_ | x, s₁⟩
  · rw [hsome] at hrun
    obtain ⟨rfl, rfl⟩ := Prod.mk.inj hrun
    apply h none _ hsome kept
  · rw [hsome] at hrun
    obtain ⟨rfl, rfl⟩ := Prod.mk.inj hrun
    apply h (some x) _ hsome kept

/-- An attempt explores what may be left out. -/
theorem attempt {p : Parser α} (h : Explores file p L s) :
  Explores file (attempt p) L.optional s
  := by
  have sub : ∀ text, L text s.cursor.offset → L.optional text s.cursor.offset := fun _ => .inr
  intro r? s' hrun kept
  rw [outcome_attempt] at hrun
  rcases hsome : outcome p s with ⟨_ | x, s₁⟩
  · rw [hsome] at hrun
    obtain ⟨rfl, rfl⟩ := Prod.mk.inj hrun
    obtain ⟨refused, ⟨text, took, stuck⟩, marked⟩ := (h.mono sub) none s₁ hsome kept
    exact ⟨refused, ⟨[], .nil _, .inl rfl⟩, marked.recover took stuck s.cursor⟩
  · rw [hsome] at hrun
    obtain ⟨rfl, rfl⟩ := Prod.mk.inj hrun
    apply (h.mono sub) (some x) _ hsome kept

end Explores

/-! ### Tokens -/

/-- Whether a run gives nothing up and refuses nothing. -/
def Quiet (p : Parser α) : Prop :=
  ∀ s : Progress, (outcome p s).2.furthest = s.furthest ∧ (outcome p s).2.refused = s.refused

namespace Quiet

theorem pure (x : α) :
  Quiet (Pure.pure x : Parser α)
  := fun _ => ⟨rfl, rfl⟩

theorem failure :
  Quiet (Alternative.failure : Parser α)
  := fun _ => ⟨rfl, rfl⟩

theorem cursor :
  Quiet Parser.cursor
  := fun _ => ⟨rfl, rfl⟩

theorem moveTo (c : Cursor) :
  Quiet (Parser.moveTo c)
  := fun _ => ⟨rfl, rfl⟩

/-- Parsers in a row are quiet when each of them is. -/
theorem bind {p : Parser α} {f : α → Parser β} (hp : Quiet p) (hf : ∀ x, Quiet (f x)) :
  Quiet (p >>= f)
  := by
  intro s
  obtain ⟨furthest, refused⟩ := hp s
  rw [outcome_bind]
  split
  · next x s₁ hrun =>
    rw [hrun] at furthest refused
    rw [(hf x s₁).1, (hf x s₁).2]
    exact ⟨furthest, refused⟩
  · next s₁ hrun =>
    rw [hrun] at furthest refused
    exact ⟨furthest, refused⟩

theorem ite {c : Prop} [Decidable c] {p q : Parser α} (hp : Quiet p) (hq : Quiet q) :
  Quiet (if c then p else q)
  := by
  split
  · apply hp
  · apply hq

theorem char (c : Char) :
  Quiet (Parser.char c)
  := cursor.bind fun _ => .ite (.moveTo _) .failure

theorem takeWhile (p : Char → Bool) :
  Quiet (Parser.takeWhile p)
  := cursor.bind fun _ => (moveTo _).bind fun _ => .pure _

theorem tokenFrom (file : Nat) (start : Cursor) :
  Quiet (Parser.tokenFrom file start)
  := cursor.bind fun _ => .pure _

/-- Reading a name leaves no mark behind. -/
theorem name (file : Nat) :
  Quiet (Parser.name file)
  := cursor.bind fun _ => .ite ((takeWhile _).bind fun _ => .tokenFrom _ _) .failure

/-- Reading digits leaves no mark behind. -/
theorem digits (file : Nat) :
  Quiet (Parser.digits file)
  := cursor.bind fun _ => (takeWhile _).bind fun _ => (tokenFrom _ _).bind fun _ => .pure _

/-- Reading a truth value leaves no mark behind. -/
theorem truthValue (file : Nat) :
  Quiet (Parser.truthValue file)
  := (name file).bind fun _ => .ite (.pure _) (.ite (.pure _) .failure)

/-- Reading a string leaves no mark behind. -/
theorem string (file : Nat) :
  Quiet (Parser.string file)
  := by
  apply cursor.bind
  intro start
  apply (char _).bind
  intro _
  apply cursor.bind
  intro inside
  dsimp only
  apply (moveTo _).bind
  intro _
  split
  · exact (tokenFrom _ _).bind fun _ => .pure _
  · exact .failure

/-- Of a parser that gives nothing up it is enough to know what it takes. -/
theorem explores {p : Parser α} (quiet : Quiet p)
    (h : ∀ r? s', outcome p s = (r?, s') → ∃ text, s.cursor.Took text s'.cursor
      ∧ if r?.isSome then L text s.cursor.offset else Stuck file L text s.cursor.offset) :
  Explores file p L s
  := by
  intro r? s' hrun kept
  obtain ⟨furthest, refused⟩ := quiet s
  rw [hrun] at furthest refused
  exact ⟨refused.symm.trans kept, h r? s' hrun, .inl furthest⟩

end Quiet

theorem explores_blanks :
  Explores file Parser.blanks Language.blanks s
  := by
  apply Quiet.explores ((Quiet.takeWhile _).bind fun _ => .pure _)
  intro r? s' hrun
  cases r? with
  | none => cases hrun
  | some x =>
    obtain ⟨text, hblanks, took⟩ := took_of_blanks hrun
    use text, took, hblanks

/-- A character is explored where it may stand. -/
theorem explores_char (c : Char) :
  Explores file (char c) (single c) s
  := by
  apply Quiet.explores (.char c)
  intro r? s' hrun
  cases r? with
  | none =>
    rw [outcome_char] at hrun
    split at hrun
    · cases hrun
    · obtain ⟨-, rfl⟩ := Prod.mk.inj hrun
      use [], .nil _
      apply Stuck.nil (anywhere_single c)
  | some x =>
    use [c], took_of_char hrun
    rfl

theorem explores_opening (bracket : Char) :
  Explores file (opening file bracket) (single bracket) s
  := (explores_char bracket).map _ |>.congr (outcome_opening file bracket s)

/-- A name is explored in a language of the identifiers that may stand there. -/
theorem explores_name (anywhere : L.Anywhere)
    (names : ∀ text later, s.cursor.Took text later → Identifier text →
      (∀ c ∈ later.rest.head?, isNamePart c = false) → L text s.cursor.offset) :
  Explores file (name file) L s
  := by
  apply Quiet.explores (.name file)
  intro r? s' hrun
  cases r? with
  | none =>
    rw [outcome_name] at hrun
    split at hrun
    · cases hrun
    · obtain ⟨-, rfl⟩ := Prod.mk.inj hrun
      use [], .nil _, Stuck.nil anywhere
  | some token =>
    obtain ⟨text, identifier, took, -, stops⟩ := took_of_name hrun
    use text, took
    apply names text s'.cursor took identifier stops

/-- Digits are explored as runs of digits. -/
theorem explores_digits {first : Char} (start : s.cursor.peek? = some first)
    (digit : isDigit first = true) :
  Explores file (digits file) (fun text _ => text ≠ [] ∧ ∀ c ∈ text, isDigit c = true) s
  := by
  apply Quiet.explores (.digits file)
  intro r? s' hrun
  cases r? with
  | none =>
    rw [digits, outcome_cursor_bind, outcome_tokenOfRun] at hrun
    cases hrun
  | some e =>
    obtain ⟨text, all, took, -, stops⟩ := took_of_digits hrun
    refine ⟨text, took, ?_, all⟩
    rintro rfl
    rw [Cursor.peek?, took.1] at start
    rw [stops first start] at digit
    cases digit

/-- The texts of string literals. -/
def literals : Language :=
  fun text _ => ∃ inner value, Quoted inner value ∧ text = '"' :: (inner ++ ['"'])

/-- A literal that is not read up to its closing quote: the text ends in it, or there is no such
escape. -/
theorem took_of_quoted_none {offset : Nat} {before text : List Char} {after : Cursor}
    (h : quoted offset before text = (none, after)) :
  ∃ inner value tail, Cursor.Took ⟨offset, text⟩ (inner ++ tail) after ∧ Quoted inner value
    ∧ (tail = [] ∨ tail = ['\\'] ∨ ∃ c, tail = ['\\', c] ∧ unescape? c = none)
  := by
  have small : ('\\').utf8Size = 1 := by decide
  fun_induction quoted offset before text with
  | case1 =>
    obtain ⟨-, rfl⟩ := Prod.mk.inj h
    use [], [], [], .nil _, .nil, .inl rfl
  | case2 => cases h
  | case3 =>
    obtain ⟨-, rfl⟩ := Prod.mk.inj h
    use [], [], ['\\']
    constructor
    · refine ⟨rfl, ?_⟩
      simp [small]
    use .nil, .inr (.inl rfl)
  | case4 offset before escaped rest c known ih =>
    obtain ⟨inner, value, tail, took, hquoted, stops⟩ := ih h
    have here : Cursor.Took ⟨offset, '\\' :: escaped :: rest⟩ ['\\', escaped]
        ⟨offset + 1 + escaped.utf8Size, rest⟩ := ⟨rfl, by simp [small, Nat.add_assoc]⟩
    exact ⟨'\\' :: escaped :: inner, _, tail, here.trans took,
      .escape (unescape?_eq_some_iff.mp known) hquoted, stops⟩
  | case5 offset before escaped rest unknown =>
    obtain ⟨-, rfl⟩ := Prod.mk.inj h
    use [], [], ['\\', escaped]
    constructor
    · refine ⟨rfl, ?_⟩
      simp [small, Nat.add_assoc]
    constructor
    · exact .nil
    · right
      right
      use escaped, rfl, unknown
  | case6 offset before c rest notQuote notLast notEscape ih =>
    obtain ⟨inner, value, tail, took, hquoted, stops⟩ := ih h
    have here : Cursor.Took ⟨offset, c :: rest⟩ [c] ⟨offset + c.utf8Size, rest⟩ := ⟨rfl, rfl⟩
    use c :: inner, c :: value, tail, here.trans took
    constructor
    · exact .plain notQuote (ne_backslash notLast notEscape) hquoted
    · apply stops

/-- A string is explored as a literal. -/
theorem explores_string :
  Explores file (string file) literals s
  := by
  apply Quiet.explores (.string file)
  intro r? s' hrun
  cases r? with
  | some e =>
    obtain ⟨inner, value, hquoted, took, -⟩ := took_of_string hrun
    exact ⟨_, took, inner, value, hquoted, rfl⟩
  | none =>
    rw [outcome_string] at hrun
    split at hrun
    · next quote =>
      obtain ⟨hnone, rfl⟩ := Prod.mk.inj hrun
      obtain ⟨inner, value, tail, took, hquoted, stops⟩ :=
        took_of_quoted_none (Prod.ext (Option.map_eq_none_iff.mp hnone) rfl)
      use '"' :: (inner ++ tail)
      constructor
      · apply (Cursor.Took.advance quote).trans took
      rcases stops with rfl | rfl | ⟨c, rfl, unknown⟩
      · refine .inl ⟨['"'], inner, value, hquoted, ?_⟩
        rw [List.append_nil, List.cons_append]
      -- Behind a backslash at the end a quote goes on, and another one closes the literal.
      · refine .inl ⟨['"', '"'], _, _, hquoted.append (.escape .quote .nil), ?_⟩
        rw [List.cons_append, List.append_assoc, List.append_assoc]
        rfl
      · have refused : ∀ d, ¬ Escape c d := by
          intro d hd
          rw [unescape?_eq_some_iff.mpr hd] at unknown
          cases unknown
        exact .inr (.mk .nil hquoted refused)
    · obtain ⟨-, rfl⟩ := Prod.mk.inj hrun
      use [], .nil _
      left
      exact ⟨['"', '"'], [], [], .nil, rfl⟩

end Parser

end PoolGraph
