import Mathlib.Tactic.Use
import PoolGraph.Proofs.Source.Characters
import PoolGraph.Source.Parser
import PoolGraph.Expr.Basic

/-!
# The grammar of data files, declaratively

`Grammar.Expression` derives trees from texts.  A derivation knows the offset at which its text
begins, so that it determines the spans of the tree.  There is no order among the alternatives
and no bound on nesting; `Expr.depth` measures how deep lists and structs are nested.
-/

namespace PoolGraph

namespace Grammar

/-! ### Words -/

/-- A run of white space. -/
def Blanks (text : List Char) : Prop :=
  ∀ c ∈ text, Text.isBlank c = true

/-- A letter or an underscore, then letters, digits and underscores. -/
def Identifier (text : List Char) : Prop :=
  ∃ first rest, text = first :: rest ∧ isNameStart first = true ∧ ∀ c ∈ rest, isNamePart c = true

/-- The word for a truth value. -/
def truthWord (b : Bool) : List Char :=
  if b then "true".toList else "false".toList

/-- What may stand behind a backslash, and the character that it stands for. -/
inductive Escape : Char → Char → Prop where
  | quote : Escape '"' '"'
  | backslash : Escape '\\' '\\'
  | newline : Escape 'n' '\n'
  | tab : Escape 't' '\t'

/-- What may stand between quotes, and the text that it stands for. -/
inductive Quoted : List Char → List Char → Prop where
  | nil : Quoted [] []
  | plain {c : Char} {inner value : List Char} (quote : c ≠ '"') (backslash : c ≠ '\\')
      (rest : Quoted inner value) : Quoted (c :: inner) (c :: value)
  | escape {e c : Char} {inner value : List Char} (stands : Escape e c)
      (rest : Quoted inner value) : Quoted ('\\' :: e :: inner) (c :: value)

/-- The span of a text that begins at an offset. -/
def spanOf (file offset : Nat) (text : List Char) : Span :=
  ⟨file, offset, offset + textSize text⟩

/-- The token of a text that begins at an offset. -/
def tokenOf (file offset : Nat) (text : List Char) : Token :=
  ⟨spanOf file offset text, String.ofList text⟩

theorem tokenOf_text_eq_iff {file offset : Nat} {text : List Char} {s : String} :
  (tokenOf file offset text).text = s ↔ text = s.toList
  := by
  simp only [tokenOf, ← String.toList_inj, String.toList_ofList]

/-! ### Repetition -/

/-- Any number of texts, one behind the other. -/
inductive Star (R : List Char → Nat → α → Prop) : List Char → Nat → List α → Prop where
  | nil {offset : Nat} : Star R [] offset []
  | cons {offset : Nat} {text rest : List Char} {x : α} {xs : List α} (first : R text offset x)
      (more : Star R rest (offset + textSize text) xs) : Star R (text ++ rest) offset (x :: xs)

/-- A comma with an item behind it. -/
inductive Following (R : List Char → Nat → α → Prop) : List Char → Nat → α → Prop where
  | mk {offset : Nat} {before after text : List Char} {x : α} (hbefore : Blanks before)
      (hafter : Blanks after)
      (item : R text (offset + textSize (before ++ ',' :: after)) x) :
      Following R (before ++ ',' :: (after ++ text)) offset x

/-- A comma with nothing behind it, or nothing. -/
inductive Trailing : List Char → Prop where
  | none : Trailing []
  | comma {before : List Char} (hbefore : Blanks before) : Trailing (before ++ [','])

/-- Items with commas between them; there may be one more comma behind the last. -/
inductive Items (R : List Char → Nat → α → Prop) : List Char → Nat → List α → Prop where
  | nil {offset : Nat} : Items R [] offset []
  | cons {offset : Nat} {text rest trailing : List Char} {x : α} {xs : List α}
      (first : R text offset x) (more : Star (Following R) rest (offset + textSize text) xs)
      (last : Trailing trailing) : Items R (text ++ rest ++ trailing) offset (x :: xs)

/-- Items between brackets. -/
inductive Block (opening closing : Char) (R : List Char → Nat → α → Prop) :
    List Char → Nat → List α → Prop where
  | mk {offset : Nat} {before text after : List Char} {xs : List α} (hbefore : Blanks before)
      (items : Items R text (offset + textSize (opening :: before)) xs) (hafter : Blanks after) :
      Block opening closing R (opening :: (before ++ text ++ after ++ [closing])) offset xs

section

variable {R : List Char → Nat → α → Prop} {P : α → Prop} {text : List Char} {offset : Nat}

/-- A row whose items all have a property is a row of items that have it. -/
theorem star_and_iff {xs : List α} :
  Star (fun text offset x => R text offset x ∧ P x) text offset xs
    ↔ Star R text offset xs ∧ ∀ x ∈ xs, P x
  := by
  constructor
  · intro h
    induction h with
    | nil =>
      constructor
      · exact .nil
      · apply List.forall_mem_nil P
    | cons first _ ih =>
      constructor
      · exact .cons first.1 ih.1
      · apply List.forall_mem_cons.mpr ⟨first.2, ih.2⟩
  · rintro ⟨h, all⟩
    induction h with
    | nil => exact .nil
    | cons first _ ih =>
      obtain ⟨hx, rest⟩ := List.forall_mem_cons.mp all
      exact .cons ⟨first, hx⟩ (ih rest)

/-- What follows a comma has a property if the item does. -/
theorem following_and_iff {x : α} :
  Following (fun text offset x => R text offset x ∧ P x) text offset x
    ↔ Following R text offset x ∧ P x
  := by
  constructor
  · rintro ⟨hbefore, hafter, item, hx⟩
    constructor
    · exact .mk hbefore hafter item
    · apply hx
  · rintro ⟨⟨hbefore, hafter, item⟩, hx⟩
    exact .mk hbefore hafter ⟨item, hx⟩

/-- Items between commas all have a property if the items do. -/
theorem items_and_iff {xs : List α} :
  Items (fun text offset x => R text offset x ∧ P x) text offset xs
    ↔ Items R text offset xs ∧ ∀ x ∈ xs, P x
  := by
  have same : Following (fun text offset x => R text offset x ∧ P x)
      = fun text offset x => Following R text offset x ∧ P x := by
    funext text offset x
    apply propext following_and_iff
  constructor
  · rintro (_ | ⟨first, more, last⟩)
    · constructor
      · exact .nil
      · apply List.forall_mem_nil P
    · rw [same, star_and_iff] at more
      constructor
      · exact .cons first.1 more.1 last
      · apply List.forall_mem_cons.mpr ⟨first.2, more.2⟩
  · rintro ⟨_ | ⟨first, more, last⟩, all⟩
    · exact .nil
    · obtain ⟨hx, rest⟩ := List.forall_mem_cons.mp all
      refine .cons ⟨first, hx⟩ ?_ last
      rw [same, star_and_iff]
      exact ⟨more, rest⟩

/-- A condition on the items of a block can be asked of each item where it is derived. -/
theorem block_and_iff {opening closing : Char} {xs : List α} :
  Block opening closing (fun text offset x => R text offset x ∧ P x) text offset xs
    ↔ Block opening closing R text offset xs ∧ ∀ x ∈ xs, P x
  := by
  constructor
  · rintro ⟨hbefore, items, hafter⟩
    obtain ⟨items, all⟩ := items_and_iff.mp items
    constructor
    · exact .mk hbefore items hafter
    · apply all
  · rintro ⟨⟨hbefore, items, hafter⟩, all⟩
    exact .mk hbefore (items_and_iff.mpr ⟨items, all⟩) hafter

end

/-! ### Expressions -/

/-- A named argument. -/
inductive Argument (file : Nat) (R : List Char → Nat → α → Prop) :
    List Char → Nat → Token × α → Prop where
  | mk {offset : Nat} {name before after text : List Char} {x : α} (hname : Identifier name)
      (hbefore : Blanks before) (hafter : Blanks after)
      (value : R text (offset + textSize (name ++ before ++ ':' :: after)) x) :
      Argument file R (name ++ before ++ ':' :: (after ++ text)) offset
        (tokenOf file offset name, x)

/-- An argument whose value has a property is an argument, and its value has it. -/
theorem argument_and_iff {file : Nat} {R : List Char → Nat → α → Prop} {P : α → Prop} :
  Argument file (fun text offset x => R text offset x ∧ P x)
    = fun text offset argument => Argument file R text offset argument ∧ P argument.2
  := by
  funext text offset argument
  apply propext
  constructor
  · rintro ⟨hname, hbefore, hafter, value, hx⟩
    constructor
    · exact .mk hname hbefore hafter value
    · apply hx
  · rintro ⟨⟨hname, hbefore, hafter, value⟩, hx⟩
    exact .mk hname hbefore hafter ⟨value, hx⟩

/-- The texts of expressions and the trees that they stand for. -/
inductive Expression (file : Nat) : List Char → Nat → Expr → Prop where
  | integer {offset : Nat} {digits : List Char} (nonempty : digits ≠ [])
      (all : ∀ c ∈ digits, isDigit c = true) :
      Expression file digits offset (.integer (tokenOf file offset digits))
  | bool {offset : Nat} (b : Bool) :
      Expression file (truthWord b) offset (.bool (spanOf file offset (truthWord b)) b)
  | string {offset : Nat} {inner value : List Char} (quoted : Quoted inner value) :
      Expression file ('"' :: (inner ++ ['"'])) offset
        (.string (tokenOf file offset ('"' :: (inner ++ ['"']))) (String.ofList value))
  | struct {offset : Nat} {name blanks text : List Char} {arguments : List (Token × Expr)}
      (hname : Identifier name) (reserved : ∀ b, name ≠ truthWord b) (hblanks : Blanks blanks)
      (block : Block '{' '}' (Argument file (Expression file)) text
        (offset + textSize (name ++ blanks)) arguments) :
      Expression file (name ++ blanks ++ text) offset
        (.struct (some (tokenOf file offset name))
          (spanOf file (offset + textSize (name ++ blanks)) ['{']) arguments)
  | untyped {offset : Nat} {text : List Char} {arguments : List (Token × Expr)}
      (block : Block '{' '}' (Argument file (Expression file)) text offset arguments) :
      Expression file text offset (.struct none (spanOf file offset ['{']) arguments)
  | list {offset : Nat} {text : List Char} {items : List Expr}
      (block : Block '[' ']' (Expression file) text offset items) :
      Expression file text offset (.list (spanOf file offset ['[']) items)

/-- A whole file: an expression with white space around it. -/
inductive File (file : Nat) : List Char → Expr → Prop where
  | mk {before text after : List Char} {e : Expr} (hbefore : Blanks before)
      (expression : Expression file text (textSize before) e) (hafter : Blanks after) :
      File file (before ++ text ++ after) e

end Grammar

/-! ### Trees -/

namespace Expr

/-- What holds of a tree when it holds of its arguments and items holds of all trees. -/
@[elab_as_elim]
theorem induction {motive : Expr → Prop} (integer : ∀ raw, motive (.integer raw))
    (string : ∀ raw value, motive (.string raw value))
    (bool : ∀ span value, motive (.bool span value))
    (struct : ∀ type? brace arguments, (∀ argument ∈ arguments, motive argument.2) →
      motive (.struct type? brace arguments))
    (list : ∀ bracket items, (∀ item ∈ items, motive item) → motive (.list bracket items)) :
    ∀ e, motive e
  | .integer raw => integer raw
  | .string raw value => string raw value
  | .bool span value => bool span value
  | .struct type? brace arguments => struct type? brace arguments fun argument _ =>
    induction integer string bool struct list argument.2
  | .list bracket items => list bracket items fun item _ =>
    induction integer string bool struct list item
  termination_by e => sizeOf e
  decreasing_by
    · have inside := List.sizeOf_lt_of_mem ‹_›
      obtain ⟨name, value⟩ := argument
      simp only [Expr.struct.sizeOf_spec, Prod.mk.sizeOf_spec] at inside ⊢
      omega
    · have inside := List.sizeOf_lt_of_mem ‹_›
      simp only [Expr.list.sizeOf_spec]
      omega

end Expr

/-! ### Depth -/

mutual

/-- How many lists and structs are nested in each other. -/
def Expr.depth : Expr → Nat
  | .integer _ => 0
  | .string _ _ => 0
  | .bool _ _ => 0
  | .struct _ _ arguments => argumentsDepth arguments + 1
  | .list _ items => itemsDepth items + 1

/-- The depth of the deepest argument. -/
def argumentsDepth : List (Token × Expr) → Nat
  | [] => 0
  | (_, value) :: rest => max value.depth (argumentsDepth rest)

/-- The depth of the deepest item. -/
def itemsDepth : List Expr → Nat
  | [] => 0
  | item :: rest => max item.depth (itemsDepth rest)

end

/-- Arguments are as deep as the deepest of their values. -/
theorem argumentsDepth_le_iff {arguments : List (Token × Expr)} {n : Nat} :
  argumentsDepth arguments ≤ n ↔ ∀ argument ∈ arguments, argument.2.depth ≤ n
  := by
  induction arguments with
  | nil => simp [argumentsDepth]
  | cons argument rest ih => simp only [argumentsDepth, Nat.max_le, ih, List.forall_mem_cons]

/-- Items are as deep as the deepest of them. -/
theorem itemsDepth_le_iff {items : List Expr} {n : Nat} :
  itemsDepth items ≤ n ↔ ∀ item ∈ items, item.depth ≤ n
  := by
  induction items with
  | nil => simp [itemsDepth]
  | cons item rest ih => simp only [itemsDepth, Nat.max_le, ih, List.forall_mem_cons]

end PoolGraph
