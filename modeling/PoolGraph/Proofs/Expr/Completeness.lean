import PoolGraph.Proofs.Expr.Soundness

/-!
# What is derivable the parser takes

`Complete p R` says that `p` takes every text that `R` derives, where nothing follows that goes
on with a name or a number.  Blanks and loops take as much as they can, so each proof says at
which character they stop; `complete_value` is by induction on the levels that may be opened.
-/

namespace PoolGraph

open Grammar

/-! ### Where tokens end -/

/-- Whether a text does not begin with a character that names go on with. -/
def Ends (text : List Char) : Prop :=
  ∀ c ∈ text.head?, isNamePart c = false

/-- Whether a text begins with a character that is no white space. -/
def Starts (text : List Char) : Prop :=
  ∃ c rest, text = c :: rest ∧ Text.isBlank c = false

/-- No character of a name is a blank. -/
theorem isBlank_of_isNamePart {c : Char} (h : isNamePart c = true) :
  Text.isBlank c = false
  := by
  have range : 48 ≤ c.toNat ∧ c.toNat ≤ 122 := by
    unfold isNamePart isLetter isDigit Char.isAlpha Char.isUpper Char.isLower Char.isDigit at h
    simp only [UInt32.le_iff_toNat_le, ge_iff_le, Bool.or_eq_true, Bool.and_eq_true,
      decide_eq_true_eq, beq_iff_eq] at h
    rcases h with ((h | h) | h) | rfl
    · constructor
      · apply Nat.le_trans (by decide) h.1
      · apply Nat.le_trans h.2 (by decide)
    · constructor
      · apply Nat.le_trans (by decide) h.1
      · apply Nat.le_trans h.2 (by decide)
    · constructor
      · apply Nat.le_trans (by decide) h.1
      · apply Nat.le_trans h.2 (by decide)
    · decide
  simp [Text.isBlank, Text.inRanges, Text.blankRanges]
  omega

/-- No name starts with a digit. -/
theorem isDigit_of_isNameStart {c : Char} (h : isNameStart c = true) :
  isDigit c = false
  := by
  have range : 65 ≤ c.toNat := by
    unfold isNameStart isLetter Char.isAlpha Char.isUpper Char.isLower at h
    simp only [UInt32.le_iff_toNat_le, ge_iff_le, Bool.or_eq_true, Bool.and_eq_true,
      decide_eq_true_eq, beq_iff_eq] at h
    rcases h with (h | h) | rfl
    · apply h.1
    · apply Nat.le_trans (by decide) h.1
    · decide
  apply Bool.eq_false_iff.mpr
  intro digit
  simp only [isDigit, Char.isDigit, UInt32.le_iff_toNat_le, Bool.and_eq_true,
    decide_eq_true_eq] at digit
  have top : ('9').val.toNat = 57 := by decide
  have same : c.toNat = c.val.toNat := rfl
  omega

/-- A token ends before a character that is no part of a name. -/
theorem Ends.cons {c : Char} (h : isNamePart c = false) (text : List Char) :
  Ends (c :: text)
  := by
  rintro _ ⟨⟩
  apply h

/-- A token ends before blanks behind which a token could end. -/
theorem Ends.blanks {before text : List Char} (hbefore : Blanks before) (h : Ends text) :
  Ends (before ++ text)
  := by
  cases before with
  | nil => apply h
  | cons c before =>
    apply Ends.cons
    apply Bool.eq_false_iff.mpr
    intro part
    have blank := hbefore c List.mem_cons_self
    rw [isBlank_of_isNamePart part] at blank
    cases blank

/-- Blanks end where an item starts. -/
theorem Starts.stops {text : List Char} (h : Starts text) (rest : List Char) :
  ∀ c ∈ (text ++ rest).head?, Text.isBlank c = false
  := by
  obtain ⟨first, others, rfl, solid⟩ := h
  rintro _ ⟨⟩
  apply solid

/-- A name is no blank at its start. -/
theorem starts_of_identifier {name : List Char} (h : Identifier name) (rest : List Char) :
  Starts (name ++ rest)
  := by
  obtain ⟨first, others, rfl, letter, -⟩ := h
  exact ⟨first, others ++ rest, rfl,
    isBlank_of_isNamePart (Parser.isNamePart_of_isNameStart letter)⟩

/-- A block starts with its bracket. -/
theorem starts_of_block {first last : Char} {R : List Char → Nat → α → Prop} {text : List Char}
    {offset : Nat} {xs : List α} (h : Block first last R text offset xs)
    (solid : Text.isBlank first = false) :
  Starts text
  := by
  obtain ⟨-, -, -⟩ := h
  exact ⟨first, _, rfl, solid⟩

/-- The bracket that opens a block ends the name before it. -/
theorem ends_of_block {first last : Char} {R : List Char → Nat → α → Prop}
    {blanks text : List Char} {offset : Nat} {xs : List α} (hblanks : Blanks blanks)
    (h : Block first last R text offset xs) (closes : isNamePart first = false)
    (rest : List Char) :
  Ends (blanks ++ text ++ rest)
  := by
  rw [List.append_assoc]
  apply Ends.blanks hblanks
  obtain ⟨-, -, -⟩ := h
  apply Ends.cons closes

/-- An argument starts with its name. -/
theorem starts_of_argument {file : Nat} {R : List Char → Nat → α → Prop} {text : List Char}
    {offset : Nat} {argument : Token × α} (h : Argument file R text offset argument) :
  Starts text
  := by
  obtain ⟨hname, -, -, -⟩ := h
  rw [List.append_assoc]
  apply starts_of_identifier hname

/-- No expression starts with a blank. -/
theorem starts_of_expression {file : Nat} {text : List Char} {offset : Nat} {e : Expr}
    (h : Expression file text offset e) :
  Starts text
  := by
  cases h with
  | integer nonempty all =>
    obtain ⟨first, others, rfl⟩ := List.exists_cons_of_ne_nil nonempty
    have part : isNamePart first = true := by
      simp [isNamePart, all first List.mem_cons_self]
    exact ⟨first, others, rfl, isBlank_of_isNamePart part⟩
  | bool b =>
    cases b with
    | false => exact ⟨'f', _, rfl, by decide⟩
    | true => exact ⟨'t', _, rfl, by decide⟩
  | string quoted => exact ⟨'"', _, rfl, by decide⟩
  | struct hname _ _ _ =>
    rw [List.append_assoc]
    apply starts_of_identifier hname
  | untyped block => apply starts_of_block block (by decide)
  | list block => apply starts_of_block block (by decide)

/-- A comma with blanks around it ends a token. -/
theorem ends_of_following {R : List Char → Nat → α → Prop} {text : List Char} {offset : Nat}
    {x : α} (h : Following R text offset x) (rest : List Char) :
  Ends (text ++ rest)
  := by
  obtain ⟨hbefore, -, -⟩ := h
  rw [List.append_assoc]
  apply Ends.blanks hbefore
  apply Ends.cons (by decide)

/-- A token ends before a trailing comma. -/
theorem ends_of_trailing {text rest : List Char} (h : Trailing text) (hrest : Ends rest) :
  Ends (text ++ rest)
  := by
  cases h with
  | none => apply hrest
  | comma hbefore =>
    rw [List.append_assoc]
    apply Ends.blanks hbefore
    apply Ends.cons (by decide)

/-- A token ends before further items. -/
theorem ends_of_star {R : List Char → Nat → α → Prop} {text rest : List Char} {offset : Nat}
    {xs : List α} (h : Star (Following R) text offset xs) (hrest : Ends rest) :
  Ends (text ++ rest)
  := by
  cases h with
  | nil => apply hrest
  | cons first _ =>
    rw [List.append_assoc]
    apply ends_of_following first

/-- There are no more items than characters, so as many rounds are enough for a loop. -/
theorem length_le_of_star {R : List Char → Nat → α → Prop} {text : List Char} {offset : Nat}
    {xs : List α} (h : Star (Following R) text offset xs) :
  xs.length ≤ text.length
  := by
  induction h with
  | nil => apply Nat.le_refl
  | cons first _ ih =>
    obtain ⟨-, -, -⟩ := first
    simp only [List.length_append, List.length_cons]
    omega

/-- A row of items starts as its first item does. -/
theorem starts_of_items {R : List Char → Nat → α → Prop}
    (starts : ∀ text offset x, R text offset x → Starts text) {text : List Char} {offset : Nat}
    {x : α} {xs : List α} (h : Items R text offset (x :: xs)) :
  Starts text
  := by
  obtain _ | ⟨first, -, -⟩ := h
  obtain ⟨c, others, rfl, solid⟩ := starts _ _ _ first
  exact ⟨c, _, rfl, solid⟩

namespace Parser

/-- Whether a parser takes every text that is derived, where no name goes on. -/
def Complete (p : Parser α) (R : List Char → Nat → α → Prop) : Prop :=
  ∀ text offset x rest, R text offset x → Ends rest → Takes p offset text x rest

section

variable {item : Parser α} {R : List Char → Nat → α → Prop}

/-- A comma behind blanks is taken with them. -/
theorem takes_comma {before : List Char} (hbefore : Blanks before) (offset : Nat)
    (rest : List Char) :
  Takes (do blanks; char ',') offset (before ++ [',']) () rest
  := by
  refine (Takes.blanks hbefore ?_ offset).bind (Takes.char ',' _ rest)
  rintro _ ⟨⟩
  decide

/-- An item behind a comma is taken whenever the item is. -/
theorem complete_following (h : Complete item R)
    (starts : ∀ text offset x, R text offset x → Starts text) :
  Complete (do blanks; char ','; blanks; item) (Following R)
  := by
  rintro _ offset x rest ⟨hbefore, hafter, hx⟩ hrest
  next before after text =>
  have solid := (starts _ _ _ hx).stops rest
  have place : offset + textSize (before ++ ',' :: after)
      = offset + textSize before + textSize [','] + textSize after := by
    simp [Nat.add_assoc]
  rw [place] at hx
  refine (Takes.blanks hbefore ?_ offset).bind ?_
  · rintro _ ⟨⟩
    decide
  · apply (Takes.char ',' _ _).bind (t := after ++ text)
    apply (Takes.blanks hafter solid _).bind (h _ _ _ _ hx hrest)

/-- The reader of a comma gives up where another character follows the blanks. -/
theorem fails_comma {after rest : List Char} {last : Char} (hafter : Blanks after)
    (solid : Text.isBlank last = false) (other : last ≠ ',') (offset : Nat) :
  Fails (do blanks; char ',') offset (after ++ last :: rest)
  := by
  refine Fails.bind (Takes.blanks hafter ?_ offset) (Fails.char ?_ _)
  · rintro _ ⟨⟩
    apply solid
  · intro h
    apply other (Option.some.inj h)

/-- Where a comma is the last, or none is left, there is no further item. -/
theorem fails_following {trailing after rest : List Char} {last : Char}
    (htrailing : Trailing trailing) (hafter : Blanks after) (solid : Text.isBlank last = false)
    (other : last ≠ ',') (hitem : ∀ offset, Fails item offset (last :: rest)) (offset : Nat) :
  Fails (do blanks; char ','; blanks; item) offset (trailing ++ (after ++ last :: rest))
  := by
  have stops : ∀ c ∈ (last :: rest).head?, Text.isBlank c = false := by
    rintro _ ⟨⟩
    apply solid
  cases htrailing with
  | none =>
    rw [List.nil_append]
    refine Fails.bind (Takes.blanks hafter stops offset) (Fails.bind_left (Fails.char ?_ _) _)
    intro h
    apply other (Option.some.inj h)
  | @comma before hbefore =>
    rw [List.append_assoc]
    refine Fails.bind (Takes.blanks hbefore ?_ offset) ?_
    · rintro _ ⟨⟩
      decide
    · apply Fails.bind (Takes.char ',' _ _)
      apply Fails.bind (Takes.blanks hafter stops _) (hitem _)

/-- The loop takes the items of a row one by one, by induction on the row. -/
theorem takes_manyWithin (h : Complete item R)
    (starts : ∀ text offset x, R text offset x → Starts text) {text rest : List Char}
    {offset : Nat} {xs : List α} (hxs : Star (Following R) text offset xs) (hrest : Ends rest)
    (stops : ∀ offset, Fails (do blanks; char ','; blanks; item) offset rest) {n : Nat}
    (hn : xs.length ≤ n) (found : List α) :
  Takes (manyWithin (do blanks; char ','; blanks; item) n found) offset text
    (found.reverse ++ xs) rest
  := by
  induction hxs generalizing n found with
  | nil =>
    rw [List.append_nil]
    cases n with
    | zero => apply Takes.pure
    | succ n =>
      apply Takes.bind_nil (stops _).attempt
      apply Takes.pure
  | @cons offset text more x xs first hmore ih =>
    obtain ⟨n, rfl⟩ : ∃ m, n = m + 1 := ⟨n - 1, by rw [List.length_cons] at hn; omega⟩
    have next := complete_following h starts _ _ _ _ first (ends_of_star hmore hrest)
    apply next.attempt.bind
    have others := ih (Nat.le_of_succ_le_succ hn) (x :: found)
    rw [List.reverse_cons, List.append_assoc] at others
    apply others

/-- The loop takes the whole row: it has one round for each character. -/
theorem takes_many (h : Complete item R)
    (starts : ∀ text offset x, R text offset x → Starts text) {text rest : List Char}
    {offset : Nat} {xs : List α} (hxs : Star (Following R) text offset xs) (hrest : Ends rest)
    (stops : ∀ offset, Fails (do blanks; char ','; blanks; item) offset rest) :
  Takes (many do blanks; char ','; blanks; item) offset text xs rest
  := by
  refine Takes.cursor_bind (takes_manyWithin h starts hxs hrest stops ?_ [])
  have fewer := length_le_of_star hxs
  rw [List.length_append]
  omega

/-- Items are taken together with the comma behind the last, up to a closing bracket. -/
theorem takes_commaSeparated (h : Complete item R)
    (starts : ∀ text offset x, R text offset x → Starts text) {text after rest : List Char}
    {offset : Nat} {x : α} {xs : List α} {last : Char} (hxs : Items R text offset (x :: xs))
    (hafter : Blanks after) (solid : Text.isBlank last = false) (other : last ≠ ',')
    (closes : isNamePart last = false) (hitem : ∀ offset, Fails item offset (last :: rest)) :
  Takes (commaSeparated item) offset text (x :: xs) (after ++ last :: rest)
  := by
  have hrest : Ends (after ++ last :: rest) := Ends.blanks hafter (Ends.cons closes rest)
  obtain _ | ⟨first, more, hlast⟩ := hxs
  next text more' trailing =>
  have stops := fails_following hlast hafter solid other hitem
  have hmore := takes_many h starts more (ends_of_trailing hlast hrest) stops
  have next : Ends (more' ++ trailing ++ (after ++ last :: rest)) := by
    rw [List.append_assoc]
    apply ends_of_star more (ends_of_trailing hlast hrest)
  refine Takes.map (Takes.attempt ?_) fun items? => items?.getD []
  rw [List.append_assoc]
  refine (h _ _ _ _ first next).bind (hmore.bind ?_)
  cases hlast with
  | none =>
    apply Takes.bind_nil (fails_comma hafter solid other _).attempt
    apply Takes.pure
  | comma hbefore =>
    apply Takes.bind_nil (takes_comma hbefore _ _).attempt
    apply Takes.pure

/-- Where no item can be read, an empty row is. -/
theorem takes_commaSeparated_nil {offset : Nat} {rest : List Char} (h : Fails item offset rest) :
  Takes (commaSeparated item) offset [] [] rest
  := (Fails.attempt (h.bind_left _)).map fun items? => items?.getD []

/-- A block of items, of which `g` makes a tree. -/
theorem takes_block (h : Complete item R)
    (starts : ∀ text offset x, R text offset x → Starts text) (file : Nat)
    (g : Span → List α → β) {first last : Char} {text rest : List Char} {offset : Nat}
    {xs : List α} (hxs : Block first last R text offset xs) (solid : Text.isBlank last = false)
    (other : last ≠ ',') (closes : isNamePart last = false)
    (hitem : ∀ offset, Fails item offset (last :: rest)) :
  Takes (do
      let bracket ← opening file first
      blanks
      let xs ← commaSeparated item
      blanks
      char last
      return g bracket xs) offset text (g (spanOf file offset [first]) xs) rest
  := by
  obtain ⟨hbefore, items, hafter⟩ := hxs
  next before text after =>
  have stops : ∀ c ∈ (last :: rest).head?, Text.isBlank c = false := by
    rintro _ ⟨⟩
    apply solid
  have place : offset + textSize (first :: before)
      = offset + textSize [first] + textSize before := by
    simp [Nat.add_assoc]
  rw [place] at items
  apply (Takes.opening file first offset _).bind (t := before ++ text ++ after ++ [last])
  have close {w : List Char} (hw : Blanks w) (offset : Nat) (y : β) :
      Takes (do blanks; char last; return y) offset (w ++ [last]) y rest :=
    (Takes.blanks hw stops offset).bind ((Takes.char last _ rest).map fun _ => y)
  cases xs with
  | nil =>
    cases items
    rw [List.append_nil]
    refine (Takes.blanks ?_ stops _).bind ?_
    · intro c hc
      rcases List.mem_append.mp hc with hc | hc
      · apply hbefore c hc
      · apply hafter c hc
    · apply Takes.bind (t := [last]) (takes_commaSeparated_nil (hitem _))
      apply close (List.forall_mem_nil _) _ _
  | cons x xs =>
    rw [List.append_assoc, List.append_assoc]
    have solid' := (starts_of_items starts items).stops (after ++ [last] ++ rest)
    rw [← List.append_assoc] at solid'
    apply (Takes.blanks hbefore solid' _).bind
    have taken := takes_commaSeparated h starts items hafter solid other closes hitem
    rw [show after ++ last :: rest = after ++ [last] ++ rest by simp] at taken
    apply taken.bind (close hafter _ _)

/-- An argument is taken whenever its value is. -/
theorem complete_argument (h : Complete item R)
    (starts : ∀ text offset x, R text offset x → Starts text) (file : Nat) :
  Complete (do
      let key ← name file
      blanks
      char ':'
      blanks
      return (key, ← item)) (Argument file R)
  := by
  rintro _ offset _ rest ⟨hname, hbefore, hafter, hx⟩ hrest
  next name before after text x =>
  have solid := (starts _ _ _ hx).stops rest
  have place : offset + textSize (name ++ before ++ ':' :: after)
      = offset + textSize name + textSize before + textSize [':'] + textSize after := by
    simp [Nat.add_assoc]
  rw [place] at hx
  have colon : Ends (before ++ ':' :: (after ++ text) ++ rest) := by
    rw [List.append_assoc]
    apply Ends.blanks hbefore (Ends.cons (by decide) _)
  rw [List.append_assoc]
  apply (Takes.name file hname colon offset).bind
  refine (Takes.blanks hbefore ?_ _).bind ?_
  · rintro _ ⟨⟩
    decide
  · apply (Takes.char ':' _ _).bind (t := after ++ text)
    apply (Takes.blanks hafter solid _).bind
    apply (h _ _ _ _ hx hrest).map fun x => (tokenOf file offset name, x)

end

/-! ### Structs -/

section

variable {value : Parser Expr} {R : List Char → Nat → Expr → Prop}

/-- No argument is read where no name starts. -/
theorem fails_argument (file : Nat) {rest : List Char}
    (h : ∀ c ∈ rest.head?, isNameStart c = false) (offset : Nat) :
  Fails (argument file value) offset rest
  := (Fails.name file h offset).bind_left _

/-- The arguments of a struct are taken with the braces around them. -/
theorem takes_arguments (h : Complete value R)
    (starts : ∀ text offset x, R text offset x → Starts text) (file : Nat) (type? : Option Token)
    {text : List Char} {offset : Nat} {arguments : List (Token × Expr)}
    (block : Block '{' '}' (Argument file R) text offset arguments) (rest : List Char) :
  Takes (do
      let brace ← opening file '{'
      blanks
      let arguments ← commaSeparated (argument file value)
      blanks
      char '}'
      return Expr.struct type? brace arguments) offset text
    (Expr.struct type? (spanOf file offset ['{']) arguments) rest
  := by
  apply takes_block (complete_argument h starts file) (fun _ _ _ => starts_of_argument) file
    (Expr.struct type?) block (by decide) (by decide) (by decide)
  apply fails_argument file
  rintro _ ⟨⟩
  decide

/-- A struct with a name is taken whole. -/
theorem takes_struct (h : Complete value R)
    (starts : ∀ text offset x, R text offset x → Starts text) {file offset : Nat}
    {name blanks text : List Char} {arguments : List (Token × Expr)} (hname : Identifier name)
    (hblanks : Blanks blanks) (block : Block '{' '}' (Argument file R) text
      (offset + textSize (name ++ blanks)) arguments) (rest : List Char) :
  Takes (struct file value) offset (name ++ blanks ++ text)
    (.struct (some (tokenOf file offset name))
      (spanOf file (offset + textSize (name ++ blanks)) ['{']) arguments) rest
  := by
  have inside := takes_arguments h starts file (some (tokenOf file offset name)) block rest
  have first := starts_of_block block (by decide)
  rw [textSize_append, ← Nat.add_assoc] at inside ⊢
  rw [List.append_assoc]
  apply Takes.cursor_bind
  dsimp only
  have start : (Cursor.peek? ⟨offset, name ++ (blanks ++ text) ++ rest⟩).any isNameStart
      = true := by
    obtain ⟨letter, others, rfl, hletter, -⟩ := hname
    apply hletter
  rw [if_pos start]
  have ends := ends_of_block hblanks block (by decide) rest
  apply (Takes.name file hname ends offset).bind
  apply (Takes.blanks hblanks (first.stops rest) _).bind
  apply (Takes.pure (some (tokenOf file offset name)) _ _).bind inside

/-- A struct without a name is taken whole. -/
theorem takes_struct_untyped (h : Complete value R)
    (starts : ∀ text offset x, R text offset x → Starts text) {file offset : Nat}
    {text : List Char} {arguments : List (Token × Expr)}
    (block : Block '{' '}' (Argument file R) text offset arguments) (rest : List Char) :
  Takes (struct file value) offset text (.struct none (spanOf file offset ['{']) arguments) rest
  := by
  have inside := takes_arguments h starts file none block rest
  apply Takes.cursor_bind
  obtain ⟨-, -, -⟩ := block
  apply (Takes.pure (none : Option Token) offset _).bind inside

end

/-! ### Expressions -/

section

variable {file : Nat} {struct list : Parser Expr} {offset : Nat} {text rest : List Char} {e : Expr}

/-- What starts with a name is a truth value or a struct. -/
theorem takes_expression_of_name {name : List Char} (hname : Identifier name)
    (h : Takes (do
      match ← attempt (truthValue file) with
      | some e => return e
      | none => struct) offset (name ++ text) e rest) :
  Takes (expression file struct list) offset (name ++ text) e rest
  := by
  obtain ⟨first, others, rfl, letter, parts⟩ := hname
  have notDigit := isDigit_of_isNameStart letter
  apply Takes.cursor_bind
  dsimp only [Cursor.peek?, List.cons_append, List.head?_cons]
  rw [if_neg (Bool.eq_false_iff.mp notDigit), if_pos letter]
  apply h

/-- An expression without parts is taken whatever structs and lists are. -/
theorem takes_expression_of_atom (h : Expression file text offset e) (flat : e.depth = 0)
    (hrest : Ends rest) :
  Takes (expression file struct list) offset text e rest
  := by
  cases h with
  | integer nonempty all =>
    obtain ⟨first, others, rfl⟩ := List.exists_cons_of_ne_nil nonempty
    have stops : ∀ c ∈ rest.head?, isDigit c = false := by
      intro c hc
      have apart := hrest c hc
      simp only [isNamePart, Bool.or_eq_false_iff] at apart
      apply apart.1.2
    apply Takes.cursor_bind
    dsimp only [Cursor.peek?, List.cons_append, List.head?_cons]
    rw [if_pos (all first List.mem_cons_self)]
    apply Takes.digits file all stops
  | bool b =>
    rw [← List.append_nil (truthWord b)]
    apply takes_expression_of_name (identifier_truthWord b)
    rw [List.append_nil]
    exact (Takes.truthValue file b hrest offset).attempt.bind_nil (Takes.pure _ _ _)
  | string quoted =>
    apply Takes.cursor_bind
    dsimp only [Cursor.peek?, List.cons_append, List.head?_cons]
    rw [if_neg (by decide), if_neg (by decide), if_neg (by decide), if_pos rfl]
    apply Takes.string file quoted
  | struct hname reserved hblanks block => cases flat
  | untyped block => cases flat
  | list block => cases flat

end

/-- No value is read before a closing bracket. -/
theorem fails_value (file room : Nat) (offset : Nat) (rest : List Char) :
  Fails (value file room) offset (']' :: rest)
  := by
  cases room <;> exact Fails.bind (Takes.cursor offset _) (Fails.failure _ _)

/-- Every expression that opens at most `room` levels is read with that many left. -/
theorem complete_value (file room : Nat) :
  Complete (value file room) (Bounded file room)
  := by
  induction room with
  | zero =>
    rintro text offset e rest ⟨he, depth⟩ hrest
    apply takes_expression_of_atom he (Nat.le_zero.mp depth) hrest
  | succ room ih =>
    rintro text offset e rest ⟨he, depth⟩ hrest
    have starts : ∀ text offset e, Bounded file room text offset e → Starts text :=
      fun _ _ _ h => starts_of_expression h.1
    cases he with
    | integer nonempty all => exact takes_expression_of_atom (.integer nonempty all) rfl hrest
    | bool b => exact takes_expression_of_atom (.bool b) rfl hrest
    | string quoted => exact takes_expression_of_atom (.string quoted) rfl hrest
    | struct hname reserved hblanks block =>
      next name blanks text arguments =>
      have taken := takes_struct ih starts hname hblanks
        (block_arguments_iff.mpr ⟨block, Nat.le_of_succ_le_succ depth⟩) rest
      have ends := ends_of_block hblanks block (by decide) rest
      have word := (Fails.truthValue file hname reserved ends offset).attempt
      rw [List.append_assoc] at taken ⊢
      rw [← List.append_assoc name] at word
      apply takes_expression_of_name hname (word.bind taken)
    | untyped block =>
      have taken := takes_struct_untyped ih starts
        (block_arguments_iff.mpr ⟨block, Nat.le_of_succ_le_succ depth⟩) rest
      obtain ⟨-, -, -⟩ := block
      apply Takes.cursor_bind
      dsimp only [Cursor.peek?, List.cons_append, List.head?_cons]
      rw [if_neg (by decide), if_neg (by decide), if_pos rfl]
      apply taken
    | list block =>
      have bounded := block_items_iff.mpr ⟨block, Nat.le_of_succ_le_succ depth⟩
      have taken := takes_block ih starts file Expr.list bounded (by decide) (by decide)
        (by decide) (fun offset => fails_value file room offset rest)
      obtain ⟨-, -, -⟩ := block
      apply Takes.cursor_bind
      dsimp only [Cursor.peek?, List.cons_append, List.head?_cons]
      rw [if_neg (by decide), if_neg (by decide), if_neg (by decide), if_neg (by decide),
        if_pos rfl]
      apply taken

end Parser

end PoolGraph
