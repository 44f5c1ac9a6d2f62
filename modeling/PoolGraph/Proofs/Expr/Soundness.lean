import Mathlib.Data.List.Basic
import PoolGraph.Proofs.Expr.Tokens

/-!
# What the parser takes is derivable

`Sound p R` says that whatever `p` gives is derived by `R` from the text that `p` took.  The
proofs follow the parsers; `sound_value` is by induction on the levels that may be opened.
-/

namespace PoolGraph

open Grammar

namespace Parser

/-- Whether a parser gives only what is derived from the text it takes. -/
def Sound (p : Parser α) (R : List Char → Nat → α → Prop) : Prop :=
  ∀ s s' x, outcome p s = (some x, s') →
    ∃ text, s.cursor.Took text s'.cursor ∧ R text s.cursor.offset x

section

variable {item : Parser α} {R : List Char → Nat → α → Prop}

theorem sound_manyWithin (h : Sound item R) (n : Nat) (found : List α) :
  Sound (manyWithin item n found) fun text offset xs =>
    ∃ ys, xs = found.reverse ++ ys ∧ Star R text offset ys
  := by
  induction n generalizing found with
  | zero =>
    intro s s' xs hrun
    obtain ⟨hxs, rfl⟩ := Prod.mk.inj hrun
    obtain rfl := Option.some.inj hxs
    use [], .nil _, [], (List.append_nil _).symm, .nil
  | succ n ih =>
    intro s s' xs hrun
    obtain ⟨x?, s₁, hitem, hrun⟩ := outcome_bind_eq_some.mp hrun
    rcases outcome_attempt_eq_some hitem with ⟨x, rfl, hx⟩ | ⟨rfl, here, -⟩
    · obtain ⟨text, took, hx⟩ := h _ _ _ hx
      obtain ⟨rest, took', ys, rfl, more⟩ := ih _ _ _ _ hrun
      rw [took.2] at more
      use text ++ rest, took.trans took', x :: ys
      constructor
      · rw [List.reverse_cons, List.append_assoc]
        rfl
      · exact .cons hx more
    · obtain ⟨hxs, rfl⟩ := Prod.mk.inj hrun
      obtain rfl := Option.some.inj hxs
      rw [← here]
      use [], .nil _, [], (List.append_nil _).symm, .nil

theorem sound_many (h : Sound item R) :
  Sound (many item) (Star R)
  := by
  intro s s' xs hrun
  rw [many, outcome_cursor_bind] at hrun
  obtain ⟨text, took, ys, rfl, more⟩ := sound_manyWithin h _ _ _ _ _ hrun
  use text, took, more

theorem took_of_comma {s s' : Progress} {x : Unit}
    (h : outcome (do blanks; char ',') s = (some x, s')) :
  ∃ before, Blanks before ∧ s.cursor.Took (before ++ [',']) s'.cursor
  := by
  obtain ⟨_, s₁, hblanks, hchar⟩ := outcome_bind_eq_some.mp h
  obtain ⟨before, hbefore, took⟩ := took_of_blanks hblanks
  use before, hbefore
  apply took.trans (took_of_char hchar)

theorem sound_following (h : Sound item R) :
  Sound (do blanks; char ','; blanks; item) (Following R)
  := by
  intro s s' x hrun
  obtain ⟨_, s₁, hblanks, hrun⟩ := outcome_bind_eq_some.mp hrun
  obtain ⟨_, s₂, hchar, hrun⟩ := outcome_bind_eq_some.mp hrun
  obtain ⟨_, s₃, hblanks', hrun⟩ := outcome_bind_eq_some.mp hrun
  obtain ⟨before, hbefore, took₁⟩ := took_of_blanks hblanks
  obtain ⟨after, hafter, took₃⟩ := took_of_blanks hblanks'
  obtain ⟨text, took₄, hx⟩ := h _ _ _ hrun
  have comma := took₁.trans ((took_of_char hchar).trans took₃)
  rw [comma.2] at hx
  have took := comma.trans took₄
  rw [List.append_assoc] at took
  use before ++ ([','] ++ after ++ text), took
  exact .mk hbefore hafter hx

theorem sound_commaSeparated (h : Sound item R) :
  Sound (commaSeparated item) (Items R)
  := by
  intro s s' xs hrun
  obtain ⟨items?, s₁, hitems, hrun⟩ := outcome_bind_eq_some.mp hrun
  obtain ⟨hxs, rfl⟩ := Prod.mk.inj hrun
  obtain rfl := Option.some.inj hxs
  rcases outcome_attempt_eq_some hitems with ⟨xs, rfl, hsome⟩ | ⟨rfl, here, -⟩
  · obtain ⟨first, s₂, hfirst, hsome⟩ := outcome_bind_eq_some.mp hsome
    obtain ⟨rest, s₃, hrest, hsome⟩ := outcome_bind_eq_some.mp hsome
    obtain ⟨_, s₄, hlast, hsome⟩ := outcome_bind_eq_some.mp hsome
    obtain ⟨hxs, rfl⟩ := Prod.mk.inj hsome
    obtain rfl := Option.some.inj hxs
    obtain ⟨text, took₁, hfirst⟩ := h _ _ _ hfirst
    obtain ⟨more, took₂, hmore⟩ := sound_many (sound_following h) _ _ _ hrest
    rw [took₁.2] at hmore
    have trailing : ∃ trailing, s₃.cursor.Took trailing s₄.cursor ∧ Trailing trailing := by
      rcases outcome_attempt_eq_some hlast with ⟨_, -, hcomma⟩ | ⟨-, here, -⟩
      · obtain ⟨before, hbefore, took⟩ := took_of_comma hcomma
        use before ++ [','], took, .comma hbefore
      · rw [here]
        use [], .nil _, .none
    obtain ⟨trailing, took₃, hlast⟩ := trailing
    use text ++ more ++ trailing
    constructor
    · apply (took₁.trans took₂).trans took₃
    · exact .cons hfirst hmore hlast
  · rw [here]
    use [], .nil _, .nil

/-- A block of items, of which `g` makes a tree. -/
theorem sound_block (h : Sound item R) (file : Nat) (first last : Char)
    (g : Span → List α → β) :
  Sound (do
      let bracket ← opening file first
      blanks
      let xs ← commaSeparated item
      blanks
      char last
      return g bracket xs) fun text offset y =>
    ∃ xs, Block first last R text offset xs ∧ y = g (spanOf file offset [first]) xs
  := by
  intro s s' y hrun
  obtain ⟨bracket, s₁, hopening, hrun⟩ := outcome_bind_eq_some.mp hrun
  obtain ⟨_, s₂, hblanks, hrun⟩ := outcome_bind_eq_some.mp hrun
  obtain ⟨xs, s₃, hxs, hrun⟩ := outcome_bind_eq_some.mp hrun
  obtain ⟨_, s₄, hblanks', hrun⟩ := outcome_bind_eq_some.mp hrun
  obtain ⟨_, s₅, hchar, hrun⟩ := outcome_bind_eq_some.mp hrun
  obtain ⟨hy, rfl⟩ := Prod.mk.inj hrun
  obtain ⟨took₁, rfl⟩ := took_of_opening hopening
  obtain ⟨before, hbefore, took₂⟩ := took_of_blanks hblanks
  obtain ⟨text, took₃, hxs⟩ := sound_commaSeparated h _ _ _ hxs
  obtain ⟨after, hafter, took₄⟩ := took_of_blanks hblanks'
  rw [(took₁.trans took₂).2] at hxs
  have took := took₁.trans ((took₂.trans took₃).trans took₄ |>.trans (took_of_char hchar))
  use [first] ++ (before ++ text ++ after ++ [last]), took, xs, .mk hbefore hxs hafter
  apply (Option.some.inj hy).symm

theorem sound_argument (h : Sound item R) (file : Nat) :
  Sound (do
      let key ← name file
      blanks
      char ':'
      blanks
      return (key, ← item)) (Argument file R)
  := by
  intro s s' y hrun
  obtain ⟨key, s₁, hname, hrun⟩ := outcome_bind_eq_some.mp hrun
  obtain ⟨_, s₂, hblanks, hrun⟩ := outcome_bind_eq_some.mp hrun
  obtain ⟨_, s₃, hchar, hrun⟩ := outcome_bind_eq_some.mp hrun
  obtain ⟨_, s₄, hblanks', hrun⟩ := outcome_bind_eq_some.mp hrun
  obtain ⟨x, s₅, hx, hrun⟩ := outcome_bind_eq_some.mp hrun
  obtain ⟨hy, rfl⟩ := Prod.mk.inj hrun
  obtain rfl := Option.some.inj hy
  obtain ⟨text, identifier, took₁, rfl, -⟩ := took_of_name hname
  obtain ⟨before, hbefore, took₂⟩ := took_of_blanks hblanks
  obtain ⟨after, hafter, took₄⟩ := took_of_blanks hblanks'
  obtain ⟨value, took₅, hx⟩ := h _ _ _ hx
  have colon := (took₁.trans took₂).trans ((took_of_char hchar).trans took₄)
  rw [colon.2] at hx
  have took := colon.trans took₅
  rw [List.append_assoc] at took
  use text ++ before ++ ([':'] ++ after ++ value), took
  exact .mk identifier hbefore hafter hx

/-- A struct takes an optional name and a block.  What follows the name does not go on with it. -/
theorem sound_struct {value : Parser Expr} {R : List Char → Nat → Expr → Prop}
    (h : Sound value R) (file : Nat) :
  Sound (struct file value) fun text offset e =>
    (∃ name blanks block arguments, Identifier name ∧ Blanks blanks
      ∧ text = name ++ blanks ++ block
      ∧ Block '{' '}' (Argument file R) block (offset + textSize (name ++ blanks)) arguments
      ∧ e = .struct (some (tokenOf file offset name))
          (spanOf file (offset + textSize (name ++ blanks)) ['{']) arguments
      ∧ ∀ c ∈ (blanks ++ block).head?, isNamePart c = false)
    ∨ ∃ arguments, Block '{' '}' (Argument file R) text offset arguments
      ∧ e = .struct none (spanOf file offset ['{']) arguments
  := by
  intro s s' e hrun
  have block (type? : Option Token) := sound_block (sound_argument h file) file
    '{' '}' (Expr.struct type?)
  rw [struct, outcome_cursor_bind] at hrun
  dsimp only at hrun
  split at hrun
  · obtain ⟨type, s₁, hname, hrun⟩ := outcome_bind_eq_some.mp hrun
    obtain ⟨_, s₂, hblanks, hrun⟩ := outcome_bind_eq_some.mp hrun
    obtain ⟨name, identifier, took₁, rfl, stops⟩ := took_of_name hname
    obtain ⟨blanks, hblanks, took₂⟩ := took_of_blanks hblanks
    have took := took₁.trans took₂
    obtain ⟨text, took', arguments, hblock, rfl⟩ := block _ _ _ _ hrun
    rw [took.2] at hblock ⊢
    use name ++ blanks ++ text, took.trans took'
    refine .inl ?_
    use name, blanks, text, arguments, identifier, hblanks, rfl, hblock, rfl
    intro c hc
    apply stops
    rw [(took₂.trans took').1, List.head?_append, hc]
    rfl
  · obtain ⟨text, took, arguments, hblock, rfl⟩ := block _ _ _ _ hrun
    use text, took
    right
    use arguments, hblock

end

/-! ### Expressions -/

/-- An expression in which at most `room` levels are opened. -/
def Bounded (file room : Nat) (text : List Char) (offset : Nat) (e : Expr) : Prop :=
  Expression file text offset e ∧ e.depth ≤ room

/-- The arguments of a struct open no more levels than the deepest of them. -/
theorem block_arguments_iff {file room offset : Nat} {text : List Char}
    {arguments : List (Token × Expr)} :
  Block '{' '}' (Argument file (Bounded file room)) text offset arguments
    ↔ Block '{' '}' (Argument file (Expression file)) text offset arguments
      ∧ argumentsDepth arguments ≤ room
  := by
  unfold Bounded
  rw [argument_and_iff, argumentsDepth_le_iff]
  apply block_and_iff

theorem block_items_iff {file room offset : Nat} {text : List Char} {items : List Expr} :
  Block '[' ']' (Bounded file room) text offset items
    ↔ Block '[' ']' (Expression file) text offset items ∧ itemsDepth items ≤ room
  := by
  unfold Bounded
  rw [itemsDepth_le_iff]
  apply block_and_iff

/-- An expression is a literal, or what opens a level was read: a struct only where no word for a
truth value stands. -/
theorem outcome_expression {file : Nat} {struct list : Parser Expr} {s s' : Progress} {e : Expr}
    (h : outcome (expression file struct list) s = (some e, s')) :
  (∃ text, s.cursor.Took text s'.cursor ∧ Expression file text s.cursor.offset e ∧ e.depth = 0)
    ∨ (∃ s₁, s₁.cursor = s.cursor ∧ outcome struct s₁ = (some e, s')
      ∧ ∀ b rest, (∀ c ∈ rest.head?, isNamePart c = false) →
        s.cursor.rest ≠ truthWord b ++ rest)
    ∨ outcome list s = (some e, s')
  := by
  rw [expression, outcome_cursor_bind] at h
  split at h
  · cases h
  next first hfirst =>
  split at h
  · next digit =>
    obtain ⟨text, all, took, rfl, stops⟩ := took_of_digits h
    refine .inl ⟨text, took, .integer ?_ all, rfl⟩
    rintro rfl
    rw [Cursor.peek?, took.1] at hfirst
    rw [stops first hfirst] at digit
    cases digit
  split at h
  · obtain ⟨truth?, s₁, htruth, h⟩ := outcome_bind_eq_some.mp h
    rcases outcome_attempt_eq_some htruth with ⟨truth, rfl, hsome⟩ | ⟨rfl, here, s₂, hnone⟩
    · obtain ⟨he, rfl⟩ := Prod.mk.inj h
      obtain rfl := Option.some.inj he
      obtain ⟨b, took, rfl⟩ := took_of_truthValue hsome
      exact .inl ⟨_, took, .bool b, rfl⟩
    · refine .inr (.inl ⟨s₁, here, h, ?_⟩)
      intro b rest stops hrest
      apply (Takes.truthValue file b stops s.cursor.offset).not_none _ hnone
      rw [← hrest]
  split at h
  · next brace =>
    refine .inr (.inl ⟨s, rfl, h, ?_⟩)
    intro b rest _ hrest
    rw [Cursor.peek?, hrest] at hfirst
    subst brace
    cases b <;> cases hfirst
  split at h
  · obtain ⟨inner, value, quoted, took, rfl⟩ := took_of_string h
    exact .inl ⟨_, took, .string quoted, rfl⟩
  split at h
  · exact .inr (.inr h)
  · cases h

/-- Whatever is read with `room` levels left is an expression that opens no more. -/
theorem sound_value (file room : Nat) :
  Sound (value file room) (Bounded file room)
  := by
  induction room with
  | zero =>
    intro s s' e hrun
    rcases outcome_expression hrun with ⟨text, took, he, depth⟩ | ⟨s₁, -, hstruct, -⟩ | hlist
    · exact ⟨text, took, he, Nat.le_of_eq depth⟩
    · cases hstruct
    · cases hlist
  | succ room ih =>
    intro s s' e hrun
    rcases outcome_expression hrun with ⟨text, took, he, depth⟩ | ⟨s₁, here, hstruct, free⟩ | hlist
    · exact ⟨text, took, he, by omega⟩
    · obtain ⟨text, took, he⟩ := sound_struct ih file _ _ _ hstruct
      rw [here] at took he
      use text, took
      rcases he with ⟨name, blanks, block, arguments, identifier, hblanks, rfl, hblock, rfl, stops⟩
        | ⟨arguments, hblock, rfl⟩
      · obtain ⟨hblock, depth⟩ := block_arguments_iff.mp hblock
        refine ⟨.struct identifier ?_ hblanks hblock, ?_⟩
        · rintro b rfl
          have nonempty : blanks ++ block ≠ [] := by
            apply List.append_ne_nil_of_right_ne_nil
            rintro rfl
            cases hblock
          refine free b (blanks ++ block ++ s'.cursor.rest) ?_ ?_
          · rw [List.head?_append_of_ne_nil _ nonempty]
            apply stops
          · rw [took.1, List.append_assoc, List.append_assoc, List.append_assoc]
        · apply Nat.succ_le_succ depth
      · obtain ⟨hblock, depth⟩ := block_arguments_iff.mp hblock
        exact ⟨.untyped hblock, Nat.succ_le_succ depth⟩
    · have block := sound_block ih file '[' ']' Expr.list
      obtain ⟨text, took, items, hblock, rfl⟩ := block _ _ _ hlist
      obtain ⟨hblock, depth⟩ := block_items_iff.mp hblock
      exact ⟨text, took, .list hblock, Nat.succ_le_succ depth⟩

end Parser

end PoolGraph
