import PoolGraph.Proofs.Expr.Stuck

/-!
# How the grammar explores its language

Each parser of the grammar explores the texts from which the grammar derives something.  The proofs
follow the parsers; `explores_value` is by induction on the levels that may be opened.  A word for a
truth value is tried before a struct, and the name that was read in vain is one that a struct may
have (`explores_named`).
-/

namespace PoolGraph

open Grammar PoolGraph.Language

namespace Parser

variable {file : Nat} {L M : Language} {s : Progress}

/-! ### Items -/

section

variable {α : Type} {item : Parser α} {R : List Char → Nat → α → Prop} {view : α → List Token}

/-- Items read one after another, up to a number of them, explore rows of items. -/
theorem explores_manyWithin (rows : Rows file R view)
    (explores : ∀ s, Explores file item (Language.of R) s) (n : Nat) (found : List α) :
  Explores file (manyWithin item n found) (Language.of (Star R)) s
  := by
  induction n generalizing found s with
  | zero => exact .pure _ ⟨[], .nil⟩
  | succ n ih =>
    refine Explores.mono (L := Then (optional (Language.of R)) (Language.of (Star R))) ?_ ?_
    · apply (explores s).attempt.bind (whole_of_rows rows).optional
      · exact fun _ => ⟨[], [], .nil⟩
      · rintro (_ | x) s₁ -
        · exact .pure _ ⟨[], .nil⟩
        · apply ih
    · rintro _ ⟨rfl | ⟨x, first⟩, xs, more⟩
      · exact ⟨xs, more⟩
      · exact ⟨x :: xs, .cons first more⟩

/-- Items read one after another explore rows of items. -/
theorem explores_many (rows : Rows file R view)
    (explores : ∀ s, Explores file item (Language.of R) s) :
  Explores file (many item) (Language.of (Star R)) s
  := by
  apply (explores_manyWithin rows explores (s.cursor.rest.length + 1) []).congr
  rw [many, outcome_cursor_bind]

/-- A comma without an item behind it explores trailing commas. -/
theorem explores_comma :
  Explores file (do blanks; char ',') (Language.of fun text _ (_ : Unit) => Trailing text) s
  := by
  have run := (explores_blanks (s := s)).bind (whole_blanks file) (anywhere_single ',')
    fun _ _ _ => explores_char ','
  apply run.mono
  rintro _ ⟨hbefore, rfl⟩
  exact ⟨(), .comma hbefore⟩

/-- A comma with an item behind it explores what may follow an item. -/
theorem explores_following (anywhere : (Language.of R).Anywhere)
    (explores : ∀ s, Explores file item (Language.of R) s) :
  Explores file (do blanks; char ','; blanks; item) (Language.of (Following R)) s
  := by
  refine Explores.mono (L := Then Language.blanks (Then (single ',')
    (Then Language.blanks (Language.of R)))) ?_ ?_
  · apply explores_blanks.bind (whole_blanks file)
    · apply (anywhere_single ',').then (anywhere_blanks.then anywhere)
    intro _ s₁ _
    apply (explores_char ',').bind (whole_single separates_comma file)
    · apply anywhere_blanks.then anywhere
    intro _ s₂ _
    exact explores_blanks.bind (whole_blanks file) anywhere fun _ s₃ _ => explores s₃
  · rintro _ ⟨hbefore, ⟨rfl, ⟨hafter, x, hx⟩⟩⟩
    next before after text =>
    have following : Following R (before ++ ',' :: (after ++ text)) s.cursor.offset x := by
      refine .mk hbefore hafter ?_
      simpa [Nat.add_assoc] using hx
    exact ⟨x, following⟩

/-- Items between commas explore what may stand in brackets. -/
theorem explores_commaSeparated (rows : Rows file R view) (anywhere : (Language.of R).Anywhere)
    (explores : ∀ s, Explores file item (Language.of R) s) :
  Explores file (commaSeparated item) (Language.of (Items R)) s
  := by
  refine Explores.mono (L := optional (Then (Language.of R) (Then (Language.of (Star (Following R)))
    (optional (Language.of fun text _ (_ : Unit) => Trailing text))))) ?_ ?_
  · apply Explores.map
    apply Explores.attempt
    apply (explores s).bind (whole_of_rows rows)
    · exact Anywhere.then (fun _ => ⟨[], [], .nil⟩) (anywhere_optional _)
    intro first s₁ _
    apply (explores_many rows.following fun _ => explores_following anywhere explores).bind
    · apply whole_of_rows rows.following.star
    · apply anywhere_optional _
    intro rest s₂ _
    apply explores_comma.attempt.map _
  · rintro _ (rfl | ⟨⟨x, first⟩, ⟨⟨xs, more⟩, last⟩⟩)
    · exact ⟨[], .nil⟩
    · refine ⟨x :: xs, ?_⟩
      rw [← List.append_assoc]
      refine .cons first more ?_
      rcases last with rfl | ⟨-, trailing⟩
      · exact .none
      · apply trailing

/-- Items between brackets explore blocks. -/
theorem explores_block (rows : Rows file R view) (anywhere : (Language.of R).Anywhere)
    (explores : ∀ s, Explores file item (Language.of R) s) (opening closing : Char)
    (word : Word [opening]) (g : Span → List α → β) :
  Explores file (do
      let bracket ← Parser.opening file opening
      blanks
      let xs ← commaSeparated item
      blanks
      char closing
      return g bracket xs) (Language.of (Block opening closing R)) s
  := by
  have items : (Language.of (Items R)).Anywhere := fun _ => ⟨[], [], .nil⟩
  have closes := anywhere_blanks.then (anywhere_single closing)
  have opens : (single opening).Whole file := by
    rintro _ offset rfl
    use [tokenOf file offset [opening]], .word word
  refine Explores.mono (L := Then (single opening) (Then Language.blanks
    (Then (Language.of (Items R)) (Then Language.blanks (single closing))))) ?_ ?_
  · apply (explores_opening opening).bind opens
    · apply anywhere_blanks.then (items.then closes)
    intro bracket s₁ _
    apply explores_blanks.bind (whole_blanks file)
    · apply items.then closes
    intro _ s₂ _
    apply (explores_commaSeparated rows anywhere explores).bind (whole_of_rows rows.items) closes
    intro xs s₃ _
    apply explores_blanks.bind (whole_blanks file)
    · apply anywhere_single closing
    intro _ s₄ _
    apply (explores_char closing).map _
  · rintro _ ⟨rfl, ⟨hbefore, ⟨⟨xs, items⟩, ⟨hafter, rfl⟩⟩⟩⟩
    next before text after =>
    have block : Block opening closing R (opening :: (before ++ text ++ after ++ [closing]))
        s.cursor.offset xs := by
      refine .mk hbefore ?_ hafter
      simpa [Nat.add_assoc] using items
    rw [List.append_assoc, List.append_assoc] at block
    exact ⟨xs, block⟩

end

/-! ### Expressions -/

section

variable {value : Parser Expr} {R : List Char → Nat → Expr → Prop} {view : Expr → List Token}

theorem identifier_single :
  Identifier ['a']
  := ⟨'a', [], rfl, rfl, List.forall_mem_nil _⟩

/-- An argument may begin wherever its value may. -/
theorem anywhere_argument (anywhere : (Language.of R).Anywhere) (file : Nat) :
  (Language.of (Argument file R)).Anywhere
  := by
  intro offset
  obtain ⟨text, x, hx⟩ := anywhere (offset + textSize (['a'] ++ [] ++ ':' :: []))
  exact ⟨_, _, .mk identifier_single (List.forall_mem_nil _) (List.forall_mem_nil _) hx⟩

/-- A name, a colon and a value explore arguments. -/
theorem explores_argument (anywhere : (Language.of R).Anywhere)
    (explores : ∀ s, Explores file value (Language.of R) s) :
  Explores file (argument file value) (Language.of (Argument file R)) s
  := by
  have behind := anywhere_blanks.then anywhere
  have identifiers : Language.Anywhere fun text _ => Identifier text := fun _ =>
    ⟨['a'], identifier_single⟩
  have names : Language.Whole file fun text _ => Identifier text := fun _ _ h =>
    ⟨_, .word (word_of_identifier h)⟩
  refine Explores.mono (L := Then (fun text _ => Identifier text) (Then Language.blanks
    (Then (single ':') (Then Language.blanks (Language.of R))))) ?_ ?_
  · apply Explores.bind (explores_name identifiers fun _ _ _ h _ => h) names
    · apply anywhere_blanks.then ((anywhere_single ':').then behind)
    intro key s₁ _
    apply explores_blanks.bind (whole_blanks file)
    · apply (anywhere_single ':').then behind
    intro _ s₂ _
    apply (explores_char ':').bind (whole_single (.inr (by decide)) file) behind
    intro _ s₃ _
    apply explores_blanks.bind (whole_blanks file) anywhere
    intro _ s₄ _
    apply (explores s₄).map _
  · rintro _ ⟨identifier, ⟨hbefore, ⟨rfl, ⟨hafter, x, hx⟩⟩⟩⟩
    next name before after text =>
    have argument : Argument file R (name ++ before ++ ':' :: (after ++ text)) s.cursor.offset
        (tokenOf file s.cursor.offset name, x) := by
      refine .mk identifier hbefore hafter ?_
      simpa [Nat.add_assoc] using hx
    rw [List.append_assoc] at argument
    exact ⟨_, argument⟩

end

/-- The names that a struct may have. -/
def freeNames : Language :=
  fun text _ => Identifier text ∧ ∀ b, text ≠ truthWord b

/-- A name that is no keyword may stand anywhere. -/
theorem anywhere_freeNames :
  freeNames.Anywhere
  := fun _ => ⟨['a'], identifier_single, by rintro (_ | _) <;> decide⟩

/-- A name is one token. -/
theorem whole_freeNames (file : Nat) :
  freeNames.Whole file
  := fun _ _ h => ⟨_, .word (word_of_identifier h.1)⟩

/-- The expressions that open at most `room` levels. -/
def expressions (file room : Nat) : Language :=
  Language.of (Bounded file room)

/-- Expressions of a bounded depth are made of their tokens. -/
theorem rows_bounded (file room : Nat) :
  Rows file (Bounded file room) Expr.tokens
  := fun text offset e h => Expr.rows_tokens (room + 1) text offset e ⟨h.1, Nat.lt_succ_of_le h.2⟩

/-- An expression of a bounded depth may stand anywhere. -/
theorem anywhere_expressions (file room : Nat) :
  (expressions file room).Anywhere
  := by
  intro offset
  have zero : Expression file ['0'] offset (.integer (tokenOf file offset ['0'])) :=
    .integer (List.cons_ne_nil _ _) (List.all_eq_true.mp rfl)
  exact ⟨_, _, zero, Nat.zero_le room⟩

/-- Whether no word for a truth value stands under a cursor. -/
def Free (c : Cursor) : Prop :=
  ∀ b rest, (∀ c ∈ rest.head?, isNamePart c = false) → c.rest ≠ truthWord b ++ rest

/-- A struct is explored where its name is no word for a truth value. -/
theorem explores_struct {value : Parser Expr} {room : Nat}
    (explores : ∀ s, Explores file value (expressions file room) s) (free : Free s.cursor) :
  Explores file (struct file value) (expressions file (room + 1)) s
  := by
  have anywhere := anywhere_expressions file room
  have blocks : (Language.of (Block '{' '}' (Argument file (Bounded file room)))).Anywhere :=
    fun _ => ⟨_, [], .mk (List.forall_mem_nil _) .nil (List.forall_mem_nil _)⟩
  have rows := (rows_bounded file room).argument
  have argument (s : Progress) := explores_argument (s := s) anywhere explores
  have block (type? : Option Token) (s : Progress) := explores_block (s := s) rows
    (anywhere_argument anywhere file) argument '{' '}' .brace (Expr.struct type?)
  intro r? s' hrun kept
  rw [struct, outcome_cursor_bind] at hrun
  dsimp only at hrun
  split at hrun
  · have names : ∀ text later, s.cursor.Took text later → Identifier text →
        (∀ c ∈ later.rest.head?, isNamePart c = false) → freeNames text s.cursor.offset := by
      intro text later took identifier stops
      refine ⟨identifier, ?_⟩
      rintro b rfl
      apply free b _ stops took.1
    have named := (explores_name anywhere_freeNames names).bind (whole_freeNames file)
      (anywhere_blanks.then blocks) fun type s₁ _ =>
        explores_blanks.bind (whole_blanks file) blocks fun _ s₂ _ => block (some type) s₂
    refine named.mono ?_ r? s' hrun kept
    rintro _ ⟨⟨identifier, reserved⟩, ⟨hblanks, ⟨arguments, hblock⟩⟩⟩
    rw [Nat.add_assoc, ← textSize_append] at hblock
    obtain ⟨hblock, depth⟩ := block_arguments_iff.mp hblock
    rw [← List.append_assoc]
    exact ⟨_, .struct identifier reserved hblanks hblock, Nat.succ_le_succ depth⟩
  · refine (block none s).mono ?_ r? s' hrun kept
    rintro _ ⟨arguments, hblock⟩
    obtain ⟨hblock, depth⟩ := block_arguments_iff.mp hblock
    exact ⟨_, .untyped hblock, Nat.succ_le_succ depth⟩

/-- A list literal explores the expressions of one more level. -/
theorem explores_list {value : Parser Expr} {room : Nat}
    (explores : ∀ s, Explores file value (expressions file room) s) :
  Explores file (list file value) (expressions file (room + 1)) s
  := by
  have block := explores_block (s := s) (rows_bounded file room) (anywhere_expressions file room)
    explores '[' ']' .bracket Expr.list
  apply block.mono
  rintro _ ⟨items, hblock⟩
  obtain ⟨hblock, depth⟩ := block_items_iff.mp hblock
  exact ⟨_, .list hblock, Nat.succ_le_succ depth⟩

/-- A name that is not taken for a truth value is no keyword. -/
theorem took_of_no_truthValue {s' : Progress} (start : s.cursor.peek?.any isNameStart = true)
    (h : outcome (truthValue file) s = (none, s')) :
  ∃ text, freeNames text s.cursor.offset ∧ s.cursor.Took text s'.cursor
  := by
  rw [truthValue, outcome_bind] at h
  rcases hname : outcome (name file) s with ⟨_ | token, s₁⟩
  · rw [outcome_name, if_pos start] at hname
    cases hname
  · obtain ⟨text, identifier, took, rfl, -⟩ := took_of_name hname
    rw [hname] at h
    simp only [tokenOf_text_eq_iff] at h
    split at h
    · cases h
    split at h
    · cases h
    next no yes =>
    obtain ⟨-, rfl⟩ := Prod.mk.inj h
    use text
    constructor
    · refine ⟨identifier, ?_⟩
      rintro (_ | _) rfl
      · apply yes rfl
      · apply no rfl
    · apply took

/-- What follows where no word for a truth value was read explores a language in which every other
name can go on. -/
theorem explores_named {p : Parser Expr} (start : s.cursor.peek?.any isNameStart = true)
    (truth : ∀ b, L (truthWord b) s.cursor.offset)
    (explores : ∀ s₁ : Progress, s₁.cursor = s.cursor → Free s₁.cursor → Explores file p L s₁)
    (names : (∃ s₁ r? s', outcome p s₁ = (r?, s') ∧ s'.refused = none) →
      ∀ text, freeNames text s.cursor.offset → ∃ rest, L (text ++ rest) s.cursor.offset) :
  Explores file (do
      match ← attempt (truthValue file) with
      | some e => return e
      | none => p) L s
  := by
  intro r? s' hrun kept
  obtain ⟨furthest, refused⟩ := Quiet.truthValue file s
  rw [outcome_bind, outcome_attempt] at hrun
  rcases htruth : outcome (truthValue file) s with ⟨_ | e, s₁⟩
  · rw [htruth] at hrun furthest refused
    dsimp only at hrun furthest refused
    have free : Free s.cursor := by
      intro b rest stops hrest
      apply (Takes.truthValue file b stops s.cursor.offset).not_none _ htruth
      rw [← hrest]
    obtain ⟨text, name, took⟩ := took_of_no_truthValue start htruth
    have stuck : Stuck file L text s.cursor.offset := .inl (names ⟨_, r?, s', hrun, kept⟩ text name)
    obtain ⟨refused', went, marked⟩ := explores (s₁.recover s.cursor) rfl free r? s' hrun kept
    refine ⟨refused.symm.trans refused', went, ?_⟩
    -- Either nothing was given up behind the name, which a struct may have, or all that counts is
    -- what was given up in the struct.
    rcases marked with same | marked
    · have quiet : Marked file L s s₁.furthest := .inl furthest
      rw [same]
      apply quiet.recover took stuck s.cursor
    · exact .inr marked
  · rw [htruth] at hrun furthest refused
    obtain ⟨rfl, rfl⟩ := Prod.mk.inj hrun
    obtain ⟨b, took, -⟩ := took_of_truthValue htruth
    exact ⟨refused.symm.trans kept, ⟨_, took, truth b⟩, .inl furthest⟩

/-- A literal is an expression whatever may be opened; how structs and lists are read is left
open. -/
theorem explores_expression {struct list : Parser Expr} {room : Nat}
    (hstruct : ∀ s : Progress, Free s.cursor → Explores file struct (expressions file room) s)
    (hlist : ∀ s, Explores file list (expressions file room) s)
    (names : ∀ s₁ r? s', outcome struct s₁ = (r?, s') → s'.refused = none →
      ∀ text offset, freeNames text offset → ∃ rest, expressions file room (text ++ rest) offset) :
  Explores file (expression file struct list) (expressions file room) s
  := by
  intro r? s' hrun kept
  rw [expression, outcome_cursor_bind] at hrun
  split at hrun
  · apply Explores.failure (anywhere_expressions file room) r? s' hrun kept
  next first hfirst =>
  split at hrun
  · next digit =>
    refine (explores_digits hfirst digit).mono ?_ r? s' hrun kept
    rintro text ⟨nonempty, all⟩
    exact ⟨_, .integer nonempty all, Nat.zero_le room⟩
  split at hrun
  · next letter =>
    refine explores_named ?_ ?_ ?_ ?_ r? s' hrun kept
    · rw [hfirst]
      apply letter
    · intro b
      exact ⟨_, .bool b, Nat.zero_le room⟩
    · intro s₁ _ free
      apply hstruct s₁ free
    · rintro ⟨s₁, r?, s', hrun, kept⟩ text name
      apply names s₁ r? s' hrun kept text _ name
  split at hrun
  · next brace =>
    refine hstruct s ?_ r? s' hrun kept
    intro b rest _ hrest
    rw [Cursor.peek?, hrest] at hfirst
    subst brace
    cases b <;> cases hfirst
  split at hrun
  · refine explores_string.mono ?_ r? s' hrun kept
    rintro text ⟨inner, value, hquoted, rfl⟩
    exact ⟨_, .string hquoted, Nat.zero_le room⟩
  split at hrun
  · apply hlist s r? s' hrun kept
  · apply Explores.failure (anywhere_expressions file room) r? s' hrun kept

/-- Values explore the expressions of their depth. -/
theorem explores_value (file room : Nat) (s : Progress) :
  Explores file (value file room) (expressions file room) s
  := by
  induction room generalizing s with
  | zero =>
    have refuses {s s' : Progress} {r? : Option Expr} (hrun : outcome refuse s = (r?, s'))
        (kept : s'.refused = none) : False := by
      obtain ⟨rfl, rfl⟩ := Prod.mk.inj hrun
      obtain ⟨cursor, furthest, _ | offset⟩ := s <;> cases kept
    apply explores_expression
    · intro s _ r? s' hrun kept
      apply (refuses hrun kept).elim
    · intro s r? s' hrun kept
      apply (refuses hrun kept).elim
    · intro s r? s' hrun kept
      apply (refuses hrun kept).elim
  | succ room ih =>
    apply explores_expression
    · intro s free
      apply explores_struct ih free
    · intro s
      apply explores_list ih
    · intro s r? s' _ _ text offset name
      have none : Blanks [] := List.forall_mem_nil _
      have empty : Expression file (text ++ [] ++ '{' :: ([] ++ [] ++ [] ++ ['}'])) offset _ :=
        .struct name.1 name.2 none (.mk none .nil none)
      rw [List.append_assoc] at empty
      exact ⟨_, _, empty, Nat.succ_le_succ (Nat.zero_le room)⟩

/-- The files with at most `room` levels. -/
def documents (file room : Nat) : Language :=
  Then Language.blanks (Then (expressions file room) Language.blanks)

/-- A file may begin with any blanks. -/
theorem anywhere_documents (file room : Nat) :
  (documents file room).Anywhere
  := anywhere_blanks.then ((anywhere_expressions file room).then anywhere_blanks)

/-- A file explores the texts of files. -/
theorem explores_document (file room : Nat) (s : Progress) :
  Explores file (document file room) (documents file room) s
  := by
  have anywhere := anywhere_expressions file room
  apply explores_blanks.bind (whole_blanks file)
  · apply anywhere.then anywhere_blanks
  intro _ s₁ _
  apply (explores_value file room s₁).bind (whole_of_rows (rows_bounded file room)) anywhere_blanks
  intro e s₂ _
  apply explores_blanks.map _

end Parser

end PoolGraph
