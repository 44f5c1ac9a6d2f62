import Mathlib.Tactic.Use
import PoolGraph.Expr.Parser
import PoolGraph.Proofs.Expr.Grammar
import PoolGraph.Proofs.Source.Parser

/-!
# Tokens

For each parser of a token what it took when it succeeds, and that it takes its token where
nothing follows that would make the token longer.
-/

namespace PoolGraph

open Cursor Grammar

namespace Parser

/-- The token from an earlier cursor covers the text that was taken since. -/
theorem outcome_tokenFrom {file : Nat} {start : Cursor} {text : List Char} {s : Progress}
    (took : start.Took text s.cursor) :
  outcome (tokenFrom file start) s = (some (tokenOf file start.offset text), s)
  := by
  rw [tokenFrom, outcome_cursor_bind, took.textUntil, took.2]
  rfl

/-- The token from an earlier cursor is made without taking any more text. -/
theorem Takes.tokenFrom (file offset : Nat) (text rest : List Char) :
  Takes (Parser.tokenFrom file ⟨offset, text ++ rest⟩) (offset + textSize text) []
    (tokenOf file offset text) rest
  := by
  intro s hs
  use s
  constructor
  · apply outcome_tokenFrom
    rw [hs]
    exact ⟨rfl, rfl⟩
  · apply hs

/-- What is skipped as blank is blank. -/
theorem took_of_blanks {s s' : Progress} {x : Unit} (h : outcome blanks s = (some x, s')) :
  ∃ text, Blanks text ∧ s.cursor.Took text s'.cursor
  := by
  obtain ⟨text, s₁, htext, h⟩ := outcome_bind_eq_some.mp h
  obtain ⟨took, all, -⟩ := took_of_takeWhile htext
  obtain ⟨-, rfl⟩ := Prod.mk.inj h
  use text
  constructor
  · apply all
  · apply took

/-- An opening bracket that is taken is that character, with its span. -/
theorem took_of_opening {file : Nat} {bracket : Char} {s s' : Progress} {x : Span}
    (h : outcome (opening file bracket) s = (some x, s')) :
  s.cursor.Took [bracket] s'.cursor ∧ x = spanOf file s.cursor.offset [bracket]
  := by
  rw [opening, outcome_cursor_bind] at h
  obtain ⟨_, s₁, hchar, h⟩ := outcome_bind_eq_some.mp h
  have took := took_of_char hchar
  rw [outcome_cursor_bind] at h
  obtain ⟨hx, rfl⟩ := Prod.mk.inj h
  constructor
  · apply took
  rw [← Option.some.inj hx, took.2]
  rfl

/-- An opening bracket is taken where it stands. -/
theorem Takes.opening (file : Nat) (bracket : Char) (offset : Nat) (rest : List Char) :
  Takes (Parser.opening file bracket) offset [bracket] (spanOf file offset [bracket]) rest
  := by
  refine Takes.cursor_bind ((Takes.char bracket offset rest).bind_nil ?_)
  exact (Takes.cursor _ rest).map fun c => (⟨file, offset, c.offset⟩ : Span)

/-! ### Names -/

/-- What a name may begin with it may go on with. -/
theorem isNamePart_of_isNameStart {c : Char} (h : isNameStart c = true) :
  isNamePart c = true
  := by
  unfold isNameStart at h
  unfold isNamePart
  rcases Bool.or_eq_true_iff.mp h with h | h <;> simp [h]

/-- A name that is taken is an identifier, and no part of one follows it. -/
theorem took_of_name {file : Nat} {s s' : Progress} {t : Token}
    (h : outcome (name file) s = (some t, s')) :
  ∃ text, Identifier text ∧ s.cursor.Took text s'.cursor ∧ t = tokenOf file s.cursor.offset text
    ∧ ∀ c ∈ s'.cursor.rest.head?, isNamePart c = false
  := by
  rw [name, outcome_cursor_bind] at h
  split at h
  · next start =>
    obtain ⟨text, s₁, htext, h⟩ := outcome_bind_eq_some.mp h
    obtain ⟨took, all, stops⟩ := took_of_takeWhile htext
    rw [outcome_tokenFrom took] at h
    obtain ⟨ht, rfl⟩ := Prod.mk.inj h
    use text
    constructor
    · obtain ⟨first, hfirst, letter⟩ := (Option.any_eq_true _ _).mp start
      rw [peek?, took.1] at hfirst
      cases text with
      | nil =>
        have part := isNamePart_of_isNameStart letter
        rw [stops first hfirst] at part
        cases part
      | cons c others =>
        obtain rfl := Option.some.inj hfirst
        exact ⟨c, others, rfl, letter, (List.forall_mem_cons.mp all).2⟩
    constructor
    · apply took
    constructor
    · apply (Option.some.inj ht).symm
    · apply stops
  · cases h

/-- An identifier is taken whole where no part of one follows. -/
theorem Takes.name (file : Nat) {text rest : List Char} (h : Identifier text)
    (stops : ∀ c ∈ rest.head?, isNamePart c = false) (offset : Nat) :
  Takes (Parser.name file) offset text (tokenOf file offset text) rest
  := by
  obtain ⟨first, others, rfl, letter, parts⟩ := h
  apply Takes.cursor_bind
  have start : (Cursor.peek? ⟨offset, first :: others ++ rest⟩).any isNameStart = true := letter
  rw [if_pos start]
  have all : ∀ c ∈ first :: others, isNamePart c = true :=
    List.forall_mem_cons.mpr ⟨isNamePart_of_isNameStart letter, parts⟩
  apply (Takes.takeWhile all stops offset).bind_nil
  apply Takes.tokenFrom file offset (first :: others) rest

/-- There is no name where none begins. -/
theorem Fails.name (file : Nat) {rest : List Char} (h : ∀ c ∈ rest.head?, isNameStart c = false)
    (offset : Nat) :
  Fails (Parser.name file) offset rest
  := by
  apply Fails.bind (Takes.cursor offset rest)
  have start : (Cursor.peek? ⟨offset, rest⟩).any isNameStart = false :=
    (Option.any_eq_false _ _).mpr h
  rw [start]
  apply Fails.failure

/-! ### Truth values -/

/-- A truth value that is taken is one of the two keywords. -/
theorem took_of_truthValue {file : Nat} {s s' : Progress} {e : Expr}
    (h : outcome (truthValue file) s = (some e, s')) :
  ∃ b, s.cursor.Took (truthWord b) s'.cursor
    ∧ e = .bool (spanOf file s.cursor.offset (truthWord b)) b
  := by
  obtain ⟨t, s₁, hname, h⟩ := outcome_bind_eq_some.mp h
  obtain ⟨text, -, took, rfl, -⟩ := took_of_name hname
  simp only [tokenOf_text_eq_iff] at h
  split at h
  · next yes =>
    obtain ⟨he, rfl⟩ := Prod.mk.inj h
    subst yes
    use true, took
    apply (Option.some.inj he).symm
  · split at h
    · next no =>
      obtain ⟨he, rfl⟩ := Prod.mk.inj h
      subst no
      use false, took
      apply (Option.some.inj he).symm
    · cases h

/-- The keywords are identifiers. -/
theorem identifier_truthWord (b : Bool) :
  Identifier (truthWord b)
  := by
  cases b with
  | false => exact ⟨'f', ['a', 'l', 's', 'e'], rfl, rfl, List.all_eq_true.mp rfl⟩
  | true => exact ⟨'t', ['r', 'u', 'e'], rfl, rfl, List.all_eq_true.mp rfl⟩

/-- A keyword is taken whole where no part of a name follows. -/
theorem Takes.truthValue (file : Nat) (b : Bool) {rest : List Char}
    (stops : ∀ c ∈ rest.head?, isNamePart c = false) (offset : Nat) :
  Takes (Parser.truthValue file) offset (truthWord b)
    (.bool (spanOf file offset (truthWord b)) b) rest
  := by
  apply (Takes.name file (identifier_truthWord b) stops offset).bind_nil
  simp only [tokenOf_text_eq_iff]
  cases b with
  | false =>
    rw [if_neg (by decide), if_pos (by decide)]
    apply Takes.pure
  | true =>
    rw [if_pos (by decide)]
    apply Takes.pure

/-- An identifier that is no keyword is not taken for a truth value. -/
theorem Fails.truthValue (file : Nat) {text rest : List Char} (h : Identifier text)
    (reserved : ∀ b, text ≠ truthWord b) (stops : ∀ c ∈ rest.head?, isNamePart c = false)
    (offset : Nat) :
  Fails (Parser.truthValue file) offset (text ++ rest)
  := by
  apply Fails.bind (Takes.name file h stops offset)
  simp only [tokenOf_text_eq_iff]
  rw [if_neg (show text ≠ "true".toList from reserved true),
    if_neg (show text ≠ "false".toList from reserved false)]
  apply Fails.failure

/-! ### Digits -/

/-- A run of digits that is taken holds nothing else, and no digit follows it. -/
theorem took_of_digits {file : Nat} {s s' : Progress} {e : Expr}
    (h : outcome (digits file) s = (some e, s')) :
  ∃ text, (∀ c ∈ text, isDigit c = true) ∧ s.cursor.Took text s'.cursor
    ∧ e = .integer (tokenOf file s.cursor.offset text)
    ∧ ∀ c ∈ s'.cursor.rest.head?, isDigit c = false
  := by
  rw [digits, outcome_cursor_bind] at h
  obtain ⟨text, s₁, htext, h⟩ := outcome_bind_eq_some.mp h
  obtain ⟨took, all, stops⟩ := took_of_takeWhile htext
  rw [outcome_bind, outcome_tokenFrom took] at h
  obtain ⟨he, rfl⟩ := Prod.mk.inj h
  use text, all, took
  constructor
  · apply (Option.some.inj he).symm
  · apply stops

/-- A run of digits is taken whole where no digit follows. -/
theorem Takes.digits (file : Nat) {text rest : List Char} (all : ∀ c ∈ text, isDigit c = true)
    (stops : ∀ c ∈ rest.head?, isDigit c = false) (offset : Nat) :
  Takes (Parser.digits file) offset text (.integer (tokenOf file offset text)) rest
  := by
  refine Takes.cursor_bind ((Takes.takeWhile all stops offset).bind_nil ?_)
  apply (Takes.tokenFrom file offset text rest).map Expr.integer

/-! ### Strings -/

/-- The escapes are those of the grammar. -/
theorem unescape?_eq_some_iff {e c : Char} :
  unescape? e = some c ↔ Escape e c
  := by
  constructor
  · intro h
    unfold unescape? at h
    split at h <;> cases h
    · exact .quote
    · exact .backslash
    · exact .newline
    · exact .tab
  · rintro ⟨⟩ <;> rfl

/-- What is read between quotes spells its value, and ends at the first quote that is not
escaped. -/
theorem took_of_quoted {offset : Nat} {before text : List Char} {v : String} {after : Cursor}
    (h : quoted offset before text = (some v, after)) :
  ∃ inner value, Quoted inner value ∧ text = inner ++ '"' :: after.rest
    ∧ after.offset = offset + textSize inner + 1
    ∧ v = String.ofList (before.reverse ++ value)
  := by
  have small : ('\\').utf8Size = 1 := by decide
  fun_induction quoted offset before text with
  | case1 => cases h
  | case2 offset before rest =>
    obtain ⟨hv, rfl⟩ := Prod.mk.inj h
    use [], [], .nil, rfl, rfl
    rw [List.append_nil, Option.some.inj hv]
  | case3 => cases h
  | case4 offset before escaped rest c known ih =>
    obtain ⟨inner, value, quoted, rfl, size, rfl⟩ := ih h
    refine ⟨_, _, .escape (unescape?_eq_some_iff.mp known) quoted, rfl, ?_, ?_⟩
    · rw [size]
      simp only [textSize_cons, small]
      omega
    · simp
  | case5 => cases h
  | case6 offset before c rest notQuote notLast notEscape ih =>
    have notBackslash : c ≠ '\\' := by
      rintro rfl
      cases rest with
      | nil => apply notLast rfl rfl
      | cons escaped rest => apply notEscape escaped rest rfl rfl
    obtain ⟨inner, value, quoted, rfl, size, rfl⟩ := ih h
    use c :: inner, c :: value
    constructor
    · exact .plain notQuote notBackslash quoted
    constructor
    · rfl
    constructor
    · rw [size, textSize_cons]
      omega
    · simp

/-- What spells a value between quotes is read as that value. -/
theorem quoted_append {inner value : List Char} (h : Quoted inner value) (offset : Nat)
    (before rest : List Char) :
  quoted offset before (inner ++ '"' :: rest)
    = (some (String.ofList (before.reverse ++ value)), ⟨offset + textSize inner + 1, rest⟩)
  := by
  have small : ('\\').utf8Size = 1 := by decide
  induction h generalizing offset before with
  | nil =>
    rw [List.nil_append, quoted, List.append_nil]
    rfl
  | @plain c inner value quote backslash _ ih =>
    rw [List.cons_append, quoted.eq_5 _ _ _ _ quote, ih, textSize_cons]
    · simp [Nat.add_assoc]
    · intro h
      exact absurd h backslash
    · intro escaped rest h
      exact absurd h backslash
  | @escape e c inner value stands _ ih =>
    rw [List.cons_append, List.cons_append, quoted, unescape?_eq_some_iff.mpr stands]
    simp only [ih, textSize_cons, small]
    simp [Nat.add_assoc]

/-- A string that is taken is a literal of the grammar, with its value. -/
theorem took_of_string {file : Nat} {s s' : Progress} {e : Expr}
    (h : outcome (string file) s = (some e, s')) :
  ∃ inner value, Quoted inner value ∧ s.cursor.Took ('"' :: (inner ++ ['"'])) s'.cursor
    ∧ e = .string (tokenOf file s.cursor.offset ('"' :: (inner ++ ['"']))) (String.ofList value)
  := by
  rw [string, outcome_cursor_bind] at h
  obtain ⟨_, s₁, hchar, h⟩ := outcome_bind_eq_some.mp h
  rw [outcome_cursor_bind] at h
  generalize hq : quoted s₁.cursor.offset [] s₁.cursor.rest = q at h
  obtain ⟨v?, after⟩ := q
  obtain ⟨_, s₂, hmove, h⟩ := outcome_bind_eq_some.mp h
  obtain ⟨-, rfl⟩ := Prod.mk.inj hmove
  cases v? with
  | none => cases h
  | some v =>
    obtain ⟨inner, value, quoted, hrest, hoffset, rfl⟩ := took_of_quoted hq
    have took : s.cursor.Took ('"' :: (inner ++ ['"'])) after := by
      apply (took_of_char hchar).trans (t := inner ++ ['"'])
      constructor
      · rw [hrest, List.append_assoc]
        rfl
      · rw [hoffset, textSize_append]
        rfl
    dsimp only at h
    rw [outcome_bind, outcome_tokenFrom took] at h
    obtain ⟨he, rfl⟩ := Prod.mk.inj h
    use inner, value, quoted, took
    apply (Option.some.inj he).symm

/-- A literal of the grammar is taken whole. -/
theorem Takes.string (file : Nat) {inner value : List Char} (h : Quoted inner value)
    (offset : Nat) (rest : List Char) :
  Takes (Parser.string file) offset ('"' :: (inner ++ ['"']))
    (.string (tokenOf file offset ('"' :: (inner ++ ['"']))) (String.ofList value)) rest
  := by
  have behind : offset + textSize ['"'] + textSize inner + 1
      = offset + textSize ['"'] + textSize (inner ++ ['"']) := by
    rw [textSize_append, show textSize ['"'] = 1 by decide, Nat.add_assoc (offset + 1)]
  have inside : quoted (offset + textSize ['"']) [] (inner ++ ['"'] ++ rest)
      = (some (String.ofList value),
        ⟨offset + textSize ['"'] + textSize (inner ++ ['"']), rest⟩) := by
    rw [List.append_assoc, ← behind]
    apply quoted_append h
  refine Takes.cursor_bind ((Takes.char '"' offset (inner ++ ['"'] ++ rest)).bind ?_)
  apply Takes.cursor_bind
  dsimp only
  rw [inside]
  apply (Takes.moveTo (offset + textSize ['"']) (inner ++ ['"']) rest).bind_nil
  have token := (Takes.tokenFrom file offset ('"' :: (inner ++ ['"'])) rest).map fun token =>
    Expr.string token (String.ofList value)
  rw [← List.singleton_append, textSize_append, ← Nat.add_assoc] at token
  apply token

end Parser

end PoolGraph
