import Mathlib.Data.List.Basic
import PoolGraph.Proofs.Expr.Parse

/-!
# The places of tokens

`Expr.spans` lists the spans of a tree in the order of its file: in the tree of a text every token
begins inside the text, and behind the one that is listed before it (`Expr.places_spans`,
`Expr.pairwise_spans_of_parse`).
-/

namespace PoolGraph

open Grammar

namespace Expr

/-! ### Lists of spans -/

/-- The spans of all tokens of an argument. -/
def argumentSpans (argument : Token × Expr) : List Span :=
  argument.1.span :: argument.2.spans

/-- Collecting the spans of arguments puts them, reversed, in front of those collected before. -/
theorem argumentSpansOnto_eq {arguments : List (Token × Expr)}
    (each : ∀ argument ∈ arguments, ∀ found,
      argument.2.spansOnto found = argument.2.spans.reverse ++ found) (found : List Span) :
  argumentSpansOnto found arguments = (arguments.flatMap argumentSpans).reverse ++ found
  := by
  induction arguments generalizing found with
  | nil => rfl
  | cons argument rest ih =>
    obtain ⟨first, others⟩ := List.forall_mem_cons.mp each
    rw [argumentSpansOnto, first, ih others, List.flatMap_cons, argumentSpans]
    simp

/-- Collecting the spans of items puts them, reversed, in front of those collected before. -/
theorem itemSpansOnto_eq {items : List Expr}
    (each : ∀ item ∈ items, ∀ found, item.spansOnto found = item.spans.reverse ++ found)
    (found : List Span) :
  itemSpansOnto found items = (items.flatMap spans).reverse ++ found
  := by
  induction items generalizing found with
  | nil => rfl
  | cons item rest ih =>
    obtain ⟨first, others⟩ := List.forall_mem_cons.mp each
    rw [itemSpansOnto, first, ih others, List.flatMap_cons]
    simp

/-- What was found before stays behind the spans of an expression. -/
theorem spansOnto_eq (e : Expr) (found : List Span) :
  e.spansOnto found = e.spans.reverse ++ found
  := by
  induction e using Expr.induction generalizing found with
  | integer raw => rfl
  | string raw value => rfl
  | bool span value => rfl
  | struct type? brace arguments ih =>
    cases type? with
    | none =>
      rw [spans, spansOnto, spansOnto, argumentSpansOnto_eq ih, argumentSpansOnto_eq ih]
      simp
    | some type =>
      rw [spans, spansOnto, spansOnto, argumentSpansOnto_eq ih, argumentSpansOnto_eq ih]
      simp
  | list bracket items ih =>
    rw [spans, spansOnto, spansOnto, itemSpansOnto_eq ih, itemSpansOnto_eq ih]
    simp

/-- The spans of a struct are those of its name, its brace and its arguments. -/
theorem spans_struct (type? : Option Token) (brace : Span) (arguments : List (Token × Expr)) :
  (Expr.struct type? brace arguments).spans
    = (type?.map Token.span).toList ++ brace :: arguments.flatMap argumentSpans
  := by
  have all : ∀ found, argumentSpansOnto found arguments
      = (arguments.flatMap argumentSpans).reverse ++ found :=
    argumentSpansOnto_eq fun argument _ => spansOnto_eq argument.2
  cases type? with
  | none =>
    rw [spans, spansOnto, all]
    simp
  | some type =>
    rw [spans, spansOnto, all]
    simp

/-- The spans of a list are those of its bracket and its items. -/
theorem spans_list (bracket : Span) (items : List Expr) :
  (Expr.list bracket items).spans = bracket :: items.flatMap spans
  := by
  rw [spans, spansOnto, itemSpansOnto_eq fun item _ => spansOnto_eq item]
  simp

/-- An error about an expression points at one of its tokens. -/
theorem errorSpan_mem_spans (e : Expr) :
  e.errorSpan ∈ e.spans
  := by
  cases e with
  | integer raw => exact .head _
  | string raw value => exact .head _
  | bool span value => exact .head _
  | struct type? brace arguments =>
    rw [spans_struct]
    cases type? <;> exact .head _
  | list bracket items =>
    rw [spans_list]
    exact .head _

end Expr

/-! ### Spans one behind the other -/

/-- Whether spans begin one behind the other, between two offsets. -/
structure Within (low high : Nat) (spans : List Span) : Prop where
  sorted : spans.Pairwise fun a b => a.start < b.start
  bounds : ∀ span ∈ spans, low ≤ span.start ∧ span.start < high

namespace Within

variable {low high : Nat} {spans : List Span}

theorem nil : Within low high []
  := ⟨.nil, List.forall_mem_nil _⟩

theorem singleton {span : Span} (hlow : low ≤ span.start) (hhigh : span.start < high) :
  Within low high [span]
  := ⟨List.pairwise_singleton _ _, List.forall_mem_singleton.mpr ⟨hlow, hhigh⟩⟩

/-- What starts within a stretch starts within a longer one. -/
theorem mono {low' high' : Nat} (h : Within low high spans) (hlow : low' ≤ low)
    (hhigh : high ≤ high') :
  Within low' high' spans
  := ⟨h.sorted, fun span hspan => ⟨hlow.trans (h.bounds span hspan).1,
    (h.bounds span hspan).2.trans_le hhigh⟩⟩

/-- Spans of one stretch, then spans of the next one. -/
theorem append {mid : Nat} {others : List Span} (h : Within low mid spans)
    (h' : Within mid high others) (hlow : low ≤ mid) (hhigh : mid ≤ high) :
  Within low high (spans ++ others)
  := by
  refine ⟨List.pairwise_append.mpr ⟨h.sorted, h'.sorted, ?_⟩, List.forall_mem_append.mpr
    ⟨(h.mono (Nat.le_refl _) hhigh).bounds, (h'.mono hlow (Nat.le_refl _)).bounds⟩⟩
  intro a ha b hb
  apply (h.bounds a ha).2.trans_le (h'.bounds b hb).1

/-- A span in front of others starts before them. -/
theorem cons {mid : Nat} {span : Span} (hlow : low ≤ span.start) (hmid : span.start < mid)
    (h : Within mid high spans) (hhigh : mid ≤ high) :
  Within low high (span :: spans)
  := (singleton hlow hmid).append h (hlow.trans hmid.le) hhigh

end Within

/-! ### Texts and their spans -/

section

variable {α : Type} {R : List Char → Nat → α → Prop} {view : α → List Span}

/-- Whether the spans of what a text derives begin inside the text. -/
def Places (R : List Char → Nat → α → Prop) (view : α → List Span) : Prop :=
  ∀ text offset x, R text offset x → Within offset (offset + textSize text) (view x)

/-- The comma before an item has no span. -/
theorem Places.following (h : Places R view) : Places (Following R) view
  := by
  rintro _ offset x ⟨-, -, item⟩
  apply (h _ _ _ item).mono
  · omega
  · simp only [textSize_append, textSize_cons]
    omega

/-- A row of items has their spans in order. -/
theorem Places.star (h : Places R view) : Places (Star R) (List.flatMap view)
  := by
  intro text offset xs star
  induction star with
  | nil => exact .nil
  | cons first _ ih =>
    rw [List.flatMap_cons, textSize_append, ← Nat.add_assoc]
    apply (h _ _ _ first).append ih <;> omega

/-- Items between commas have their spans in order. -/
theorem Places.items (h : Places R view) : Places (Items R) (List.flatMap view)
  := by
  rintro _ offset _ (_ | ⟨first, more, -⟩)
  · exact .nil
  · have both := (h _ _ _ first).append (h.following.star _ _ _ more) (Nat.le_add_right _ _)
      (Nat.le_add_right _ _)
    apply both.mono (Nat.le_refl _)
    simp only [textSize_append]
    omega

/-- The items of a block stand behind its opening bracket. -/
theorem Places.block (h : Places R view) (file : Nat) {opening closing : Char} {text : List Char}
    {offset : Nat} {xs : List α} (block : Block opening closing R text offset xs) :
  Within offset (offset + textSize text) (spanOf file offset [opening] :: xs.flatMap view)
  := by
  obtain ⟨-, items, -⟩ := block
  have positive := opening.utf8Size_pos
  apply ((h.items _ _ _ items).cons (Nat.le_refl offset) _ (Nat.le_add_right _ _)).mono
    (Nat.le_refl _)
  · simp only [textSize_append, textSize_cons]
    omega
  · show offset < _
    rw [textSize_cons]
    omega

/-- The name of an argument starts before its value. -/
theorem Places.argument (h : Places R view) (file : Nat) :
  Places (Argument file R) fun argument => argument.1.span :: view argument.2
  := by
  rintro _ offset _ ⟨-, -, -, value⟩
  have positive := Char.utf8Size_pos ':'
  apply ((h _ _ _ value).cons (Nat.le_refl offset) _ (Nat.le_add_right _ _)).mono (Nat.le_refl _)
  · simp only [textSize_append, textSize_cons]
    omega
  · show offset < _
    simp only [textSize_append, textSize_cons]
    omega

end

/-- A text that is not empty has a byte. -/
theorem textSize_pos {text : List Char} (h : text ≠ []) :
  0 < textSize text
  := by
  cases text with
  | nil => contradiction
  | cons c text =>
    have positive := c.utf8Size_pos
    rw [textSize_cons]
    omega

namespace Expr

variable {file : Nat}

/-- The tokens of the tree of a text begin inside the text, one behind the other.  The induction is
on a bound for the depth, as in `wellFormed_of_expression`. -/
theorem places_spans (n : Nat) :
  Places (fun text offset e => Expression file text offset e ∧ e.depth < n) spans
  := by
  induction n with
  | zero =>
    rintro text offset e ⟨-, depth⟩
    cases depth
  | succ n ih =>
    have inside : ∀ {text offset arguments},
        Block '{' '}' (Argument file (Expression file)) text offset arguments →
        argumentsDepth arguments < n →
        Within offset (offset + textSize text)
          (spanOf file offset ['{'] :: arguments.flatMap argumentSpans) := by
      intro text offset arguments block depth
      apply (ih.argument file).block
      rw [argument_and_iff]
      apply block_and_iff.mpr
      constructor
      · apply block
      intro argument hargument
      apply (argumentsDepth_le_iff.mp (Nat.le_refl _) argument hargument).trans_lt depth
    rintro text offset e ⟨expression, depth⟩
    cases expression with
    | integer nonempty all =>
      exact .singleton (Nat.le_refl _) (Nat.lt_add_of_pos_right (textSize_pos nonempty))
    | bool b =>
      refine .singleton (Nat.le_refl _) (Nat.lt_add_of_pos_right (textSize_pos ?_))
      cases b <;> decide
    | string quoted =>
      refine .singleton (Nat.le_refl _) (Nat.lt_add_of_pos_right (textSize_pos ?_))
      apply List.cons_ne_nil
    | struct hname _ _ block =>
      have arguments := inside block (Nat.lt_of_succ_lt_succ depth)
      obtain ⟨first, rest, rfl, -⟩ := hname
      have positive := first.utf8Size_pos
      rw [spans_struct, textSize_append, ← Nat.add_assoc]
      apply arguments.cons (Nat.le_refl offset) _ (Nat.le_add_right _ _)
      show offset < _
      rw [List.cons_append, textSize_cons]
      omega
    | untyped block =>
      rw [spans_struct]
      apply inside block (Nat.lt_of_succ_lt_succ depth)
    | list block =>
      rw [spans_list]
      apply ih.block
      apply block_and_iff.mpr
      constructor
      · apply block
      intro item hitem
      apply (itemsDepth_le_iff.mp (Nat.le_refl _) item hitem).trans_lt
      apply Nat.lt_of_succ_lt_succ depth

/-- In a tree that was parsed every token begins behind the one before it. -/
theorem pairwise_spans_of_parse {source : Source} {e : Expr} (h : parse file source = .ok e) :
  e.spans.Pairwise fun a b => a.start < b.start
  := by
  obtain ⟨text, -, ⟨-, expression, -⟩, depth⟩ := file_of_parse h
  apply (places_spans (maxDepth + 1) _ _ _ ⟨expression, Nat.lt_succ_of_le depth⟩).sorted

end Expr

end PoolGraph
