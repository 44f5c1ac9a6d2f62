import PoolGraph.Proofs.Expr.Parse
import PoolGraph.Proofs.Source.Lookahead

/-!
# What the grammar looks at

All parsers of the grammar are local: whether and how a file is read depends on no character behind
the one at which the reading gets stuck (`Parser.local_value`).
-/

namespace PoolGraph

open Grammar

namespace Parser

/-! ### Tokens -/

/-- An opening bracket is that character, with the span of one character. -/
theorem outcome_opening (file : Nat) (bracket : Char) (s : Progress) :
  outcome (opening file bracket) s
    = outcome (do
      char bracket
      return spanOf file s.cursor.offset [bracket]) s
  := by
  rw [opening, outcome_cursor_bind, outcome_bind, outcome_bind]
  rcases hrun : outcome (char bracket) s with ⟨_ | _, s₁⟩
  · rfl
  · dsimp only
    rw [outcome_cursor_bind, (took_of_char hrun).2]
    rfl

/-- Reading an opening bracket looks at one character. -/
theorem local_opening (file : Nat) (bracket : Char) :
  Local (opening file bracket)
  := by
  apply Local.congr (q := do
    let start ← cursor
    char bracket
    return spanOf file start.offset [bracket])
  · intro s
    rw [outcome_opening, outcome_cursor_bind]
  · apply Local.peek_bind
    · intro start
      exact (local_char bracket).bind fun _ => .pure _
    · intro c d offset _
      rw [offset]

/-- The token of the characters that satisfy `p`. -/
theorem outcome_tokenOfRun (file : Nat) (p : Char → Bool) (g : Token → α) (s : Progress) :
  outcome (do
      let _ ← takeWhile p
      return g (← tokenFrom file s.cursor)) s
    = outcome (do
      let taken ← takeWhile p
      return g (tokenOf file s.cursor.offset taken)) s
  := by
  rw [outcome_bind, outcome_bind, outcome_takeWhile]
  dsimp only
  rw [outcome_bind, outcome_tokenFrom (.span s.cursor p)]

/-- A name is the longest run of its characters, where one may begin. -/
theorem outcome_name (file : Nat) (s : Progress) :
  outcome (name file) s
    = outcome (if s.cursor.peek?.any isNameStart then do
        let taken ← takeWhile isNamePart
        return tokenOf file s.cursor.offset taken
      else failure) s
  := by
  rw [name, outcome_cursor_bind]
  split
  · have run := outcome_tokenOfRun file isNamePart id s
    simp only [id, bind_pure] at run
    apply run
  · rfl

/-- Reading a name looks at no more than the character behind it. -/
theorem local_name (file : Nat) :
  Local (name file)
  := by
  apply Local.congr (q := do
    let start ← cursor
    if start.peek?.any isNameStart then
      let taken ← takeWhile isNamePart
      return tokenOf file start.offset taken
    else failure)
  · intro s
    rw [outcome_name, outcome_cursor_bind]
  · apply Local.peek_bind
    · intro start
      apply Local.ite
      · exact (local_takeWhile _).bind fun _ => .pure _
      · exact .failure
    · intro c d offset peek
      rw [offset, peek]

/-- Reading digits looks at no more than the character behind them. -/
theorem local_digits (file : Nat) :
  Local (digits file)
  := by
  apply Local.congr (q := do
    let start ← cursor
    let taken ← takeWhile isDigit
    return .integer (tokenOf file start.offset taken))
  · intro s
    rw [digits, outcome_cursor_bind, outcome_cursor_bind]
    apply outcome_tokenOfRun
  · apply Local.peek_bind
    · intro start
      exact (local_takeWhile _).bind fun _ => .pure _
    · intro c d offset _
      rw [offset]

/-- Reading a truth value looks at no more than the character behind the word. -/
theorem local_truthValue (file : Nat) :
  Local (truthValue file)
  := by
  apply (local_name file).bind
  intro token
  exact .ite (.pure _) (.ite (.pure _) .failure)

/-! ### Strings -/

/-- What is read between quotes is a part of the text. -/
theorem quoted_took (offset : Nat) (before text : List Char) :
  ∃ taken, Cursor.Took ⟨offset, text⟩ taken (quoted offset before text).2
  := by
  have small : ('"').utf8Size = 1 := by decide
  have small' : ('\\').utf8Size = 1 := by decide
  fun_induction quoted offset before text with
  | case1 offset before =>
    use []
    exact .nil _
  | case2 offset before rest => exact ⟨['"'], rfl, by simp [small]⟩
  | case3 offset before => exact ⟨['\\'], rfl, by simp [small']⟩
  | case4 offset before escaped rest c _ ih =>
    obtain ⟨taken, hrest, size⟩ := ih
    refine ⟨'\\' :: escaped :: taken, congrArg ('\\' :: escaped :: ·) hrest, ?_⟩
    rw [size]
    simp only [textSize_cons, small']
    omega
  | case5 offset before escaped rest => exact ⟨['\\', escaped], rfl, by simp [small']; omega⟩
  | case6 offset before c rest _ _ _ ih =>
    obtain ⟨taken, hrest, size⟩ := ih
    refine ⟨c :: taken, congrArg (c :: ·) hrest, ?_⟩
    rw [size, textSize_cons, Nat.add_assoc]

/-- A character that is neither a quote nor a backslash stands for itself. -/
theorem quoted_plain {c : Char} (quote : c ≠ '"') (backslash : c ≠ '\\') {offset : Nat}
    {before rest : List Char} :
  quoted offset before (c :: rest) = quoted (offset + c.utf8Size) (c :: before) rest
  := by
  rw [quoted.eq_5 _ _ _ _ quote]
  · rintro rfl
    exact absurd rfl backslash
  · rintro escaped rest rfl
    exact absurd rfl backslash

/-- The last equation of `quoted` is about characters that are no backslash. -/
theorem ne_backslash {c : Char} {rest : List Char} (notLast : c = '\\' → rest = [] → False)
    (notEscape : ∀ escaped more, c = '\\' → rest = escaped :: more → False) :
  c ≠ '\\'
  := by
  intro backslash
  cases rest with
  | nil => apply notLast backslash rfl
  | cons escaped more => apply notEscape escaped more backslash rfl

/-- A string is read in the same way as far as the texts are the same. -/
theorem quoted_alike {offset : Nat} {before shared x y : List Char}
    (early : (quoted offset before (shared ++ x)).2.offset < offset + textSize shared) :
  (quoted offset before (shared ++ y)).1 = (quoted offset before (shared ++ x)).1
    ∧ ∃ taken left, shared = taken ++ left
      ∧ (quoted offset before (shared ++ x)).2 = ⟨offset + textSize taken, left ++ x⟩
      ∧ (quoted offset before (shared ++ y)).2 = ⟨offset + textSize taken, left ++ y⟩
  := by
  have small : ('"').utf8Size = 1 := by decide
  have small' : ('\\').utf8Size = 1 := by decide
  have behind (offset : Nat) (before text : List Char) :
      offset ≤ (quoted offset before text).2.offset := by
    obtain ⟨taken, -, size⟩ := quoted_took offset before text
    dsimp only at size
    omega
  fun_induction quoted offset before shared with
  | case1 offset before =>
    have := behind offset before ([] ++ x)
    simp only [textSize_nil] at early
    omega
  | case2 offset before rest =>
    constructor
    · rfl
    use ['"'], rest, rfl
    constructor
    · simp [quoted, small]
    · simp [quoted, small]
  | case3 offset before =>
    rw [textSize_cons, textSize_nil, small'] at early
    cases x with
    | nil => simp [quoted] at early
    | cons escaped rest =>
      have big := escaped.utf8Size_pos
      simp only [List.cons_append, List.nil_append, quoted] at early
      cases known : unescape? escaped with
      | none =>
        simp only [known] at early
        omega
      | some c =>
        have := behind (offset + 1 + escaped.utf8Size) (c :: before) rest
        simp only [known] at early
        omega
  | case4 offset before escaped rest c known ih =>
    simp only [List.cons_append, quoted, known, textSize_cons, small'] at early ⊢
    obtain ⟨same, taken, left, rfl, hx, hy⟩ := ih (by omega)
    constructor
    · apply same
    use '\\' :: escaped :: taken, left, rfl
    constructor
    · rw [hx]
      simp [Nat.add_assoc, small']
    · rw [hy]
      simp [Nat.add_assoc, small']
  | case5 offset before escaped rest unknown =>
    simp only [List.cons_append, quoted, unknown, textSize_cons, small'] at early ⊢
    refine ⟨trivial, ['\\', escaped], rest, rfl, ?_, ?_⟩ <;>
    · simp [small', Nat.add_assoc]
  | case6 offset before c rest notQuote notLast notEscape ih =>
    have notBackslash := ne_backslash notLast notEscape
    simp only [List.cons_append, quoted_plain notQuote notBackslash, textSize_cons] at early ⊢
    obtain ⟨same, taken, left, rfl, hx, hy⟩ := ih (by omega)
    constructor
    · apply same
    use c :: taken, left, rfl
    constructor
    · rw [hx, textSize_cons, Nat.add_assoc]
    · rw [hy, textSize_cons, Nat.add_assoc]

/-- A string is read between quotes, and covers both of them. -/
theorem outcome_string (file : Nat) (s : Progress) :
  outcome (string file) s =
    if s.cursor.peek? = some '"' then
      let inside := s.cursor.advance
      let (value?, after) := quoted inside.offset [] inside.rest
      (value?.map fun value =>
          .string ⟨⟨file, s.cursor.offset, after.offset⟩, s.cursor.textUntil after⟩ value,
        { s with cursor := after })
    else (none, s)
  := by
  rw [string, outcome_cursor_bind, outcome_bind, outcome_char]
  by_cases quote : s.cursor.peek? = some '"'
  · rw [if_pos quote, if_pos quote]
    dsimp only
    rw [outcome_cursor_bind]
    rcases quoted s.cursor.advance.offset [] s.cursor.advance.rest with ⟨_ | value, after⟩ <;> rfl
  · rw [if_neg quote, if_neg quote]

/-- Reading a string looks at no more than the character it stops at. -/
theorem local_string (file : Nat) :
  Local (string file)
  := by
  apply Local.of_before
  · intro s
    rw [outcome_string]
    split
    · next quote =>
      obtain ⟨taken, took⟩ := quoted_took s.cursor.advance.offset [] s.cursor.advance.rest
      exact .moveTo ((Cursor.Took.advance quote).trans took)
    · exact .refl s
  · intro stop x y s t alike early r? s' hrun before
    rw [outcome_string] at hrun ⊢
    rw [alike.peek?_eq early]
    split at hrun
    · next quote =>
      obtain ⟨rfl, rfl⟩ := Prod.mk.inj hrun
      rw [if_pos quote]
      obtain ⟨shared, ⟨rest, size⟩, rest', size'⟩ := (alike.advance early).cursors
      have stays := Nat.lt_of_le_of_lt (Nat.le_max_right _ _) before
      dsimp only at rest rest' size size' stays ⊢
      rw [rest, size] at stays
      obtain ⟨same, taken, left, rfl, hx, hy⟩ := quoted_alike (y := y) stays
      have inside : t.cursor.advance.offset = s.cursor.advance.offset :=
        (alike.advance early).offset
      have quote' := (alike.peek?_eq early).trans quote
      rw [List.append_assoc] at rest rest'
      have tookx : s.cursor.advance.Took taken ⟨_, left ++ x⟩ := ⟨rest, rfl⟩
      have tooky : t.cursor.advance.Took taken ⟨_, left ++ y⟩ := ⟨rest', rfl⟩
      have hs := (Cursor.Took.advance quote).trans tookx
      have ht := (Cursor.Took.advance quote').trans tooky
      rw [inside] at ht size'
      rw [rest, rest', inside, ← List.append_assoc, ← List.append_assoc, same, hx, hy,
        hs.textUntil, ht.textUntil, alike.offset]
      have behind (z : List Char) : Cursor.Took
          ⟨s.cursor.advance.offset + textSize taken, left ++ z⟩ left ⟨stop, z⟩ := by
        refine ⟨rfl, ?_⟩
        rw [size, textSize_append, Nat.add_assoc]
      exact ⟨_, rfl, alike.moveTo (behind x) (behind y)⟩
    · next other =>
      obtain ⟨rfl, rfl⟩ := Prod.mk.inj hrun
      use t
      constructor
      · apply if_neg other
      · apply alike

/-! ### Items -/

section

variable {item : Parser α}

/-- Reading what follows a comma looks at no more than the item does. -/
theorem local_following (h : Local item) :
  Local (do blanks; char ','; blanks; item)
  := local_blanks.bind fun _ => (local_char ',').bind fun _ => local_blanks.bind fun _ => h

/-- What follows a comma takes the comma at least. -/
theorem consumes_following (h : Local item) :
  Consumes (do blanks; char ','; blanks; item)
  := local_blanks.bind_consumes fun _ =>
    (consumes_char ',').bind fun _ => local_blanks.bind fun _ => h

/-- Reading items between commas looks no further than where they stop. -/
theorem local_commaSeparated (h : Local item) :
  Local (commaSeparated item)
  := by
  have comma : Local (do blanks; char ',') := local_blanks.bind fun _ => local_char ','
  have rest := local_many (local_following h) (consumes_following h)
  have items := h.bind fun first => rest.bind fun rest => comma.attempt.bind fun _ =>
    Local.pure (first :: rest)
  exact items.attempt.bind fun _ => .pure _

/-- Reading a block looks no further than where it stops. -/
theorem local_block (h : Local item) (file : Nat) (first last : Char) (g : Span → List α → β) :
  Local (do
      let bracket ← opening file first
      blanks
      let xs ← commaSeparated item
      blanks
      char last
      return g bracket xs)
  := by
  apply (local_opening file first).bind
  intro bracket
  apply local_blanks.bind
  intro _
  apply (local_commaSeparated h).bind
  intro xs
  exact local_blanks.bind fun _ => (local_char last).bind fun _ => .pure _

/-- Reading an argument looks no further than where it stops. -/
theorem local_argument {value : Parser Expr} (h : Local value) (file : Nat) :
  Local (argument file value)
  := by
  apply (local_name file).bind
  intro key
  apply local_blanks.bind
  intro _
  apply (local_char ':').bind
  intro _
  exact local_blanks.bind fun _ => h.bind fun _ => .pure _

/-- Reading a struct literal looks no further than where it stops. -/
theorem local_struct {value : Parser Expr} (h : Local value) (file : Nat) :
  Local (struct file value)
  := by
  have block (type? : Option Token) := local_block (local_argument h file) file '{' '}'
    (Expr.struct type?)
  apply Local.peek_bind
  · intro here
    apply Local.ite
    · exact (local_name file).bind fun type => local_blanks.bind fun _ => block (some type)
    · apply block none
  · intro c d _ peek
    rw [peek]

end

/-! ### Expressions -/

theorem local_refuse :
  Local (refuse : Parser α)
  := by
  constructor
  · intro s
    refine ⟨⟨[], .nil _⟩, Nat.le_refl _, ?_⟩
    intro kept
    obtain ⟨cursor, furthest, _ | offset⟩ := s <;> cases kept
  · intro stop x y s t alike r? s' hrun before
    obtain ⟨rfl, rfl⟩ := Prod.mk.inj hrun
    use t.refuse, rfl
    apply alike.refuse

/-- Reading an expression looks no further than where it stops, if its literals do. -/
theorem local_expression {struct list : Parser Expr} (hstruct : Local struct) (hlist : Local list)
    (file : Nat) :
  Local (expression file struct list)
  := by
  apply Local.peek_bind
  · intro start
    split
    · exact .failure
    · apply Local.ite (local_digits file)
      apply Local.ite
      · apply (local_truthValue file).attempt.bind
        rintro (_ | e)
        · apply hstruct
        · exact .pure e
      · exact .ite hstruct (.ite (local_string file) (.ite hlist .failure))
  · intro c d _ peek
    rw [peek]

/-- Reading a value looks no further than where it stops, at any depth. -/
theorem local_value (file room : Nat) :
  Local (value file room)
  := by
  induction room with
  | zero => apply local_expression local_refuse local_refuse file
  | succ room ih =>
    apply local_expression
    · apply local_struct ih
    · apply local_block ih file '[' ']' Expr.list

/-- Reading a file looks no further than where it stops. -/
theorem local_document (file room : Nat) :
  Local (document file room)
  := by
  apply local_blanks.bind
  intro _
  exact (local_value file room).bind fun _ => local_blanks.bind fun _ => .pure _

end Parser

end PoolGraph
