import PoolGraph.Proofs.Expr.Completeness

/-!
# The parser takes exactly the grammar

A file is parsed as a tree if and only if the grammar derives the tree from its text, without
nesting more than `maxDepth` levels.  As the parser takes whatever is derived, no text stands for
two trees.
-/

namespace PoolGraph

open Grammar

namespace Parser

/-- An expression with white space around it. -/
def document (file room : Nat) : Parser Expr := do
  blanks
  let e ← value file room
  blanks
  return e

theorem sound_document (file room : Nat) :
  Sound (document file room) fun text offset e =>
    ∃ before inner after, text = before ++ inner ++ after ∧ Blanks before ∧ Blanks after
      ∧ Bounded file room inner (offset + textSize before) e
  := by
  intro s s' e hrun
  obtain ⟨_, s₁, hblanks, hrun⟩ := outcome_bind_eq_some.mp hrun
  obtain ⟨e', s₂, hvalue, hrun⟩ := outcome_bind_eq_some.mp hrun
  obtain ⟨_, s₃, hblanks', hrun⟩ := outcome_bind_eq_some.mp hrun
  obtain ⟨he, rfl⟩ := Prod.mk.inj hrun
  obtain rfl := Option.some.inj he
  obtain ⟨before, hbefore, took₁⟩ := took_of_blanks hblanks
  obtain ⟨inner, took₂, bounded⟩ := sound_value file room _ _ _ hvalue
  obtain ⟨after, hafter, took₃⟩ := took_of_blanks hblanks'
  rw [took₁.2] at bounded
  refine ⟨_, (took₁.trans took₂).trans took₃, before, inner, after, rfl, hbefore, hafter, ?_⟩
  apply bounded

theorem takes_document {file room : Nat} {text : List Char} {e : Expr} (h : File file text e)
    (depth : e.depth ≤ room) :
  Takes (document file room) 0 text e []
  := by
  obtain ⟨hbefore, expression, hafter⟩ := h
  next before inner after =>
  have stops := (starts_of_expression expression).stops (after ++ [])
  have ends : Ends (after ++ []) := Ends.blanks hafter (by rintro _ ⟨⟩)
  rw [← Nat.zero_add (textSize before)] at expression
  rw [List.append_assoc]
  rw [← List.append_assoc] at stops
  apply (Takes.blanks hbefore stops 0).bind
  refine (complete_value file room _ _ _ _ ⟨expression, depth⟩ ends).bind ?_
  refine (Takes.blanks hafter ?_ _).map fun _ => e
  rintro _ ⟨⟩

end Parser

/-- No text stands for two trees. -/
theorem Grammar.File.unique {file : Nat} {text : List Char} {e e' : Expr} (h : File file text e)
    (h' : File file text e') :
  e = e'
  := by
  have takes := Parser.takes_document h (Nat.le_max_left e.depth e'.depth)
  have takes' := Parser.takes_document h' (Nat.le_max_right e.depth e'.depth)
  have here : (Progress.mk ⟨0, text ++ []⟩ 0 none).cursor = ⟨0, text ++ []⟩ := rfl
  obtain ⟨s, hs, -⟩ := takes _ here
  obtain ⟨s', hs', -⟩ := takes' _ here
  obtain ⟨same, -⟩ := Prod.mk.inj (hs.symm.trans hs')
  apply Option.some.inj same

namespace Expr

/-- A file is parsed by a run over its characters. -/
theorem parse_eq_document (file : Nat) (source : Source) :
  parse file source
    = match Parser.outcome (Parser.document file maxDepth) (Progress.start source) with
      | (some e, s) =>
        if s.cursor.isEnd && s.cursor.offset = source.data.size then .ok e
        else .error (parse.complaint file s)
      | (none, s) => .error (parse.complaint file s)
  := rfl

theorem parse_eq_ok {file : Nat} {source : Source} {e : Expr} :
  parse file source = .ok e
    ↔ ∃ s, Parser.outcome (Parser.document file maxDepth) (Progress.start source) = (some e, s)
      ∧ s.cursor.rest = [] ∧ s.cursor.offset = source.data.size
  := by
  rw [parse_eq_document]
  obtain ⟨e?, s⟩ := Parser.outcome (Parser.document file maxDepth) (Progress.start source)
  cases e? with
  | none => simp
  | some e' =>
    simp only [Cursor.isEnd, Bool.and_eq_true, List.isEmpty_iff, decide_eq_true_eq]
    constructor
    · intro h
      split at h
      · next atEnd =>
        obtain rfl := Except.ok.inj h
        exact ⟨s, rfl, atEnd⟩
      · cases h
    · rintro ⟨s', same, atEnd⟩
      obtain ⟨he, rfl⟩ := Prod.mk.inj same
      obtain rfl := Option.some.inj he
      rw [if_pos atEnd]

/-- A well-formed file is parsed by a run over its text. -/
theorem parse_of_text {source : Source} {text : List Char} (h : source.data = text.utf8Encode)
    (file : Nat) :
  parse file source
    = match Parser.outcome (Parser.document file maxDepth) ⟨⟨0, text⟩, 0, none⟩ with
      | (some e, s) =>
        if s.cursor.isEnd && s.cursor.offset = textSize text then .ok e
        else .error (parse.complaint file s)
      | (none, s) => .error (parse.complaint file s)
  := by
  obtain ⟨characters, size⟩ := charactersFrom_zero_eq_iff.mpr h
  rw [size, ← characters]
  rfl

theorem file_of_parse {file : Nat} {source : Source} {e : Expr}
    (h : parse file source = .ok e) :
  ∃ text, source.data = text.utf8Encode ∧ File file text e ∧ e.depth ≤ maxDepth
  := by
  obtain ⟨s, hrun, hrest, hoffset⟩ := parse_eq_ok.mp h
  obtain ⟨text, took, before, inner, after, rfl, hbefore, hafter, expression, depth⟩ :=
    Parser.sound_document file maxDepth _ _ _ hrun
  have characters : charactersFrom source.data 0 = before ++ inner ++ after := by
    have whole := took.1
    rw [hrest, List.append_nil] at whole
    apply whole
  have size : textSize (before ++ inner ++ after) = source.data.size := by
    have offset := took.2
    rw [hoffset, show (Progress.start source).cursor.offset = 0 from rfl, Nat.zero_add] at offset
    apply offset.symm
  rw [show (Progress.start source).cursor.offset = 0 from rfl, Nat.zero_add] at expression
  use before ++ inner ++ after
  constructor
  · apply charactersFrom_zero_eq_iff.mp ⟨characters, size⟩
  constructor
  · exact .mk hbefore expression hafter
  · apply depth

theorem parse_of_file {file : Nat} {source : Source} {text : List Char} {e : Expr}
    (hdata : source.data = text.utf8Encode) (h : File file text e) (depth : e.depth ≤ maxDepth) :
  parse file source = .ok e
  := by
  obtain ⟨characters, size⟩ := charactersFrom_zero_eq_iff.mpr hdata
  have here : (Progress.start source).cursor = ⟨0, text ++ []⟩ := by
    rw [List.append_nil, ← characters]
    rfl
  obtain ⟨s, hrun, hs⟩ := Parser.takes_document h depth _ here
  refine parse_eq_ok.mpr ⟨s, hrun, ?_, ?_⟩
  · rw [hs]
  · rw [hs, ← size, Nat.zero_add]

/-- A file is parsed as a tree exactly when it is the UTF-8 encoding of a text from which the
grammar derives the tree, nested at most as deep as is allowed.  The text decides the tree. -/
theorem parse_eq_ok_iff (file : Nat) (source : Source) :
  (∀ e, parse file source = .ok e
      ↔ ∃ text, source.data = text.utf8Encode ∧ File file text e ∧ e.depth ≤ maxDepth)
    ∧ ∀ text e e', File file text e → File file text e' → e = e'
  := by
  constructor
  · intro e
    constructor
    · intro h
      apply file_of_parse h
    · rintro ⟨text, hdata, h, depth⟩
      apply parse_of_file hdata h depth
  · intro text e e' h h'
    apply h.unique h'

end Expr

end PoolGraph
