import PoolGraph.Proofs.Compile.Refusal
import PoolGraph.Proofs.Compile.Success
import PoolGraph.Proofs.Expr.Bare
import PoolGraph.Proofs.Expr.Layout
import PoolGraph.Proofs.Expr.Parse
import PoolGraph.Proofs.SideBySide

/-!
# Printing and parsing

`Prints` says that a text derives the same thing wherever it stands.  The forms that the printer
writes do so for every well-formed tree (`Expr.prints_written`), whichever layout is chosen at
each level, so that the parser gives back what was printed (`Expr.parseExpr_toSource`).
-/

namespace PoolGraph

open Grammar

/-! ### Derivations -/

/-- Whether a text derives, wherever it stands, something that looks like this. -/
def Prints (R : List Char → Nat → α → Prop) (view : α → β) (text : List Char) (y : β) : Prop :=
  ∀ offset, ∃ x, R text offset x ∧ view x = y

namespace Prints

variable {R : List Char → Nat → α → Prop} {view : α → β} {parts : List (List Char)} {ys : List β}

/-- Indentation is blank. -/
theorem blanks_indentation (level : Nat) :
  Blanks (Expr.indentation level).toList
  := by
  intro c hc
  rw [Expr.indentation, String.toList_ofList] at hc
  rw [List.eq_of_mem_replicate hc]
  decide

/-- Parts behind commas print rows of items. -/
theorem behindCommas (h : List.Forall₂ (Prints R view) parts ys) {gap : List Char}
    (hgap : Blanks gap) :
  Prints (Star (Following R)) (List.map view) (Layout.behindCommas gap parts) ys
  := by
  induction h with
  | nil =>
    intro offset
    use [], .nil
    rfl
  | @cons part y parts ys hpart _ ih =>
    intro offset
    obtain ⟨x, hx, rfl⟩ := hpart (offset + textSize ([] ++ ',' :: gap))
    have nothing : Blanks [] := List.forall_mem_nil _
    have first : Following R (',' :: (gap ++ part)) offset x := .mk nothing hgap hx
    obtain ⟨xs, hxs, rfl⟩ := ih (offset + textSize (',' :: (gap ++ part)))
    use x :: xs, .cons first hxs
    rfl

/-- A first part and parts behind commas print items. -/
theorem items {part : List Char} {y : β} (first : Prints R view part y)
    (more : List.Forall₂ (Prints R view) parts ys) {gap trailing : List Char} (hgap : Blanks gap)
    (last : Trailing trailing) :
  Prints (Items R) (List.map view) (part ++ Layout.behindCommas gap parts ++ trailing) (y :: ys)
  := by
  intro offset
  obtain ⟨x, hx, rfl⟩ := first offset
  obtain ⟨xs, hxs, rfl⟩ := behindCommas more hgap (offset + textSize part)
  use x :: xs, .cons hx hxs last
  rfl

/-- Items between brackets print a block. -/
theorem between {text before after : List Char} (h : Prints (Items R) (List.map view) text ys)
    (hbefore : Blanks before) (hafter : Blanks after) (opening closing : Char) :
  Prints (Block opening closing R) (List.map view)
    (opening :: (before ++ text ++ after ++ [closing])) ys
  := by
  intro offset
  obtain ⟨xs, hxs, rfl⟩ := h (offset + textSize (opening :: before))
  use xs, .mk hbefore hxs hafter

/-- Parts on one line print items. -/
theorem onLine (h : List.Forall₂ (Prints R view) parts ys) :
  Prints (Items R) (List.map view) (Layout.onLine [] parts) ys
  := by
  cases h with
  | nil =>
    intro offset
    use [], .nil
    rfl
  | cons first more =>
    have blank : Blanks [' '] := List.forall_mem_singleton.mpr (by decide)
    have h := items first more blank .none
    rw [List.append_nil] at h
    rw [Layout.onLine, Layout.onLine_eq_behindCommas]
    apply h

/-- In a block with a line for each item the line ends are blanks around the items, and the comma
of the last line is the trailing one. -/
theorem lines (h : List.Forall₂ (Prints R view) parts ys) {indent after : List Char}
    (hindent : Blanks indent) (hafter : Blanks after) (opening closing : Char) :
  Prints (Block opening closing R) (List.map view)
    (opening :: '\n' :: (Layout.lines indent parts ++ after ++ [closing])) ys
  := by
  have newline : Text.isBlank '\n' = true := by decide
  have hgap : Blanks ('\n' :: indent) := List.forall_mem_cons.mpr ⟨newline, hindent⟩
  have hend : Blanks ('\n' :: after) := List.forall_mem_cons.mpr ⟨newline, hafter⟩
  cases h with
  | nil =>
    have none : Prints (Items R) (List.map view) [] [] := fun offset => ⟨[], .nil, rfl⟩
    apply none.between (List.forall_mem_nil _) hend
  | @cons part y parts ys first more =>
    have comma : Trailing [','] := .comma (List.forall_mem_nil _)
    have h := (items first more hgap comma).between hgap hend opening closing
    have text : Layout.lines indent (part :: parts)
        = indent ++ (part ++ Layout.behindCommas ('\n' :: indent) parts) ++ [',', '\n'] := by
      rw [Layout.lines, List.append_assoc _ [',', '\n'], Layout.comma_lines_eq_behindCommas]
      simp only [List.append_assoc]
    rw [text]
    simp only [List.append_assoc, List.cons_append, List.nil_append] at h ⊢
    apply h

/-- A block prints a block of the grammar, on one line or on several. -/
theorem block {parts : Nat → List (List Char)}
    (h : ∀ level, List.Forall₂ (Prints R view) (parts level) ys) (opening closing : Char)
    (fits : Bool) (level : Nat) :
  Prints (Block opening closing R) (List.map view)
    (Layout.block opening closing fits level parts) ys
  := by
  rw [Layout.block]
  split
  · have none : Blanks [] := List.forall_mem_nil _
    have h := (onLine (h level)).between none none opening closing
    rw [List.append_nil, List.nil_append] at h
    apply h
  · apply lines (h (level + 1)) (blanks_indentation _) (blanks_indentation _)

end Prints

/-! ### Strings -/

/-- Escaped text spells the text it was made of. -/
theorem quoted_literalEscape (text : List Char) :
  Quoted (text.flatMap Text.literalEscape) text
  := by
  induction text with
  | nil => exact .nil
  | cons c text ih =>
    rw [List.flatMap_cons]
    unfold Text.literalEscape
    split
    · exact .escape .quote ih
    · exact .escape .backslash ih
    · exact .escape .newline ih
    · exact .escape .tab ih
    · next quote backslash _ _ => exact .plain quote backslash ih

/-! ### Trees -/

namespace Expr

/-- Whether the digits, the names and the type names of a tree are such. -/
inductive WellFormed : Expr → Prop where
  | integer {raw : Token} (nonempty : raw.text.toList ≠ [])
      (digits : ∀ c ∈ raw.text.toList, isDigit c = true) : WellFormed (.integer raw)
  | string (raw : Token) (value : String) : WellFormed (.string raw value)
  | bool (span : Span) (value : Bool) : WellFormed (.bool span value)
  | struct {type? : Option Token} {brace : Span} {arguments : List (Token × Expr)}
      (type : ∀ t ∈ type?, Identifier t.text.toList ∧ ∀ b, t.text.toList ≠ truthWord b)
      (names : ∀ argument ∈ arguments, Identifier argument.1.text.toList)
      (values : ∀ argument ∈ arguments, WellFormed argument.2) :
      WellFormed (.struct type? brace arguments)
  | list {bracket : Span} {items : List Expr} (all : ∀ item ∈ items, WellFormed item) :
      WellFormed (.list bracket items)

/-- The digits of an integer are printed as they are. -/
theorem prints_integer (file : Nat) {raw : Token} (nonempty : raw.text.toList ≠ [])
    (digits : ∀ c ∈ raw.text.toList, isDigit c = true) (level : Nat) :
  Prints (Expression file) bare (written level (.integer raw)) (bare (.integer raw))
  := by
  intro offset
  rw [written, append, String.empty_append]
  use integer (tokenOf file offset raw.text.toList), .integer nonempty digits
  rw [bare, bare, Token.bare, Token.bare, tokenOf, String.ofList_toList]

/-- A string is printed with its escapes. -/
theorem prints_string (file : Nat) (raw : Token) (value : String) (level : Nat) :
  Prints (Expression file) bare (written level (.string raw value)) (bare (.string raw value))
  := by
  intro offset
  rw [written, append, String.empty_append, Text.literal, Text.quoteWith, String.toList_ofList]
  refine ⟨_, .string (quoted_literalEscape value.toList), ?_⟩
  rw [bare, bare, String.ofList_toList]

/-- A truth value is printed as its keyword. -/
theorem prints_bool (file : Nat) (span : Span) (value : Bool) (level : Nat) :
  Prints (Expression file) bare (written level (.bool span value)) (bare (.bool span value))
  := by
  intro offset
  have word : written level (.bool span value) = truthWord value := by
    cases value <;> rfl
  rw [word]
  exact ⟨_, .bool value, rfl⟩

/-- An argument is printed as its name and its value. -/
theorem prints_argument {R : List Char → Nat → Expr → Prop} (file : Nat)
    {argument : Token × Expr} {level : Nat} (name : Identifier argument.1.text.toList)
    (value : Prints R bare (argument.2.written level) argument.2.bare) :
  Prints (Argument file R) bareArgument (writtenArgument level argument) (bareArgument argument)
  := by
  intro offset
  obtain ⟨x, hx, same⟩ := value (offset + textSize (argument.1.text.toList ++ [] ++ [':', ' ']))
  have none : Blanks [] := List.forall_mem_nil _
  have blank : Blanks [' '] := List.forall_mem_singleton.mpr (by decide)
  have h : Argument file R (argument.1.text.toList ++ [] ++ ':' :: ([' '] ++ _)) offset _ :=
    .mk name none blank hx
  rw [List.append_nil] at h
  rw [writtenArgument, List.append_assoc]
  refine ⟨_, h, ?_⟩
  rw [bareArgument, bareArgument, same, Token.bare, Token.bare, tokenOf, String.ofList_toList]

/-- The written form of a well-formed tree stands for that tree, up to places. -/
theorem prints_written (file : Nat) {e : Expr} (h : e.WellFormed) (level : Nat) :
  Prints (Expression file) bare (e.written level) e.bare
  := by
  induction h generalizing level with
  | integer nonempty digits => apply prints_integer file nonempty digits
  | string raw value => apply prints_string
  | bool span value => apply prints_bool
  | @struct type? brace arguments type names _ ih =>
    have parts : ∀ level, List.Forall₂ (Prints (Argument file (Expression file)) bareArgument)
        (arguments.map (writtenArgument level)) (arguments.map bareArgument) := fun level =>
      forall₂_map_map fun argument ha => prints_argument file (names argument ha)
        (ih argument ha level)
    have block := Prints.block parts '{' '}' (fitsOnLine (.struct type? brace arguments)) level
    rw [written_struct]
    intro offset
    cases type? with
    | none =>
      obtain ⟨xs, hxs, same⟩ := block offset
      use struct none (spanOf file offset ['{']) xs, .untyped hxs
      rw [bare, bare, bareArguments_eq_map, bareArguments_eq_map, same]
    | some t =>
      obtain ⟨name, reserved⟩ := type t rfl
      obtain ⟨xs, hxs, same⟩ := block (offset + textSize (t.text.toList ++ []))
      have h : Expression file (t.text.toList ++ [] ++ _) offset _ :=
        .struct name reserved (List.forall_mem_nil _) hxs
      rw [List.append_nil] at h
      refine ⟨_, h, ?_⟩
      rw [bare, bare, bareArguments_eq_map, bareArguments_eq_map, same, Option.map_some,
        Option.map_some, Token.bare, Token.bare, tokenOf, String.ofList_toList]
  | @list bracket items _ ih =>
    have parts : ∀ level, List.Forall₂ (Prints (Expression file) bare) (items.map (written level))
        (items.map bare) := fun level => forall₂_map_map fun item hitem => ih item hitem level
    have block := Prints.block parts '[' ']' (fitsOnLine (.list bracket items)) level
    rw [written_list]
    intro offset
    obtain ⟨xs, hxs, same⟩ := block offset
    use list (spanOf file offset ['[']) xs, .list hxs
    rw [bare, bare, bareItems_eq_map, bareItems_eq_map, same]

/-! ### Trees of the grammar -/

/-- Every item of a block was derived at some place. -/
theorem derived_of_block {R : List Char → Nat → α → Prop} {opening closing : Char}
    {text : List Char} {offset : Nat} {xs : List α} (h : Block opening closing R text offset xs) :
  ∀ x ∈ xs, ∃ t o, R t o x
  := by
  have same : R = fun t o x => R t o x ∧ ∃ t o, R t o x := by
    funext t o x
    exact propext ⟨fun hx => ⟨hx, t, o, hx⟩, And.left⟩
  rw [same] at h
  apply (block_and_iff.mp h).2

/-- A token keeps the text it was cut from. -/
theorem toList_tokenOf (file offset : Nat) (text : List Char) :
  (tokenOf file offset text).text.toList = text
  := String.toList_ofList

/-- The trees of the grammar are well formed.  The induction is on a bound for the depth, since a
derivation has those of its arguments and items inside blocks. -/
theorem wellFormed_of_expression {file : Nat} {text : List Char} {offset : Nat} {e : Expr}
    (h : Expression file text offset e) {n : Nat} (depth : e.depth < n) :
  e.WellFormed
  := by
  induction n generalizing text offset e with
  | zero => cases depth
  | succ n ih =>
    have ofArguments : ∀ {text : List Char} {offset : Nat} {arguments : List (Token × Expr)},
        Block '{' '}' (Argument file (Expression file)) text offset arguments →
        argumentsDepth arguments < n → ∀ argument ∈ arguments,
        Identifier argument.1.text.toList ∧ argument.2.WellFormed := by
      intro text offset arguments block depth argument ha
      have inner := argumentsDepth_le_iff.mp (Nat.le_refl _) argument ha
      obtain ⟨t, o, hname, -, -, value⟩ := derived_of_block block argument ha
      constructor
      · rw [toList_tokenOf]
        apply hname
      · apply ih value (Nat.lt_of_le_of_lt inner depth)
    cases h with
    | integer nonempty all =>
      apply WellFormed.integer <;> rw [toList_tokenOf]
      · apply nonempty
      · apply all
    | bool b => exact .bool _ b
    | string quoted => exact .string _ _
    | struct hname reserved _ block =>
      have all := ofArguments block (Nat.lt_of_succ_lt_succ depth)
      refine .struct ?_ (fun argument ha => (all argument ha).1)
        fun argument ha => (all argument ha).2
      rintro _ ⟨⟩
      rw [toList_tokenOf]
      exact ⟨hname, reserved⟩
    | untyped block =>
      have all := ofArguments block (Nat.lt_of_succ_lt_succ depth)
      refine .struct ?_ (fun argument ha => (all argument ha).1)
        fun argument ha => (all argument ha).2
      rintro _ ⟨⟩
    | list block =>
      refine .list fun item hitem => ?_
      have inner := itemsDepth_le_iff.mp (Nat.le_refl _) item hitem
      obtain ⟨t, o, value⟩ := derived_of_block block item hitem
      apply ih value (Nat.lt_of_le_of_lt inner (Nat.lt_of_succ_lt_succ depth))

/-- A parsed tree is well formed and no deeper than the parser allows. -/
theorem wellFormed_of_parse {file : Nat} {source : Source} {e : Expr}
    (h : parse file source = .ok e) :
  e.WellFormed ∧ e.depth ≤ maxDepth
  := by
  obtain ⟨text, -, ⟨-, expression, -⟩, depth⟩ := file_of_parse h
  constructor
  · apply wellFormed_of_expression expression (Nat.lt_succ_of_le depth)
  · apply depth

/-! ### Printing, then parsing -/

/-- A file that holds what the printer wrote. -/
def toSource (e : Expr) (name : String) : Source :=
  ⟨name, e.text.toByteArray⟩

/-- A printed tree is parsed back, up to places and raw texts. -/
theorem parse_toSource (file : Nat) (name : String) {e : Expr} (h : e.WellFormed)
    (depth : e.depth ≤ maxDepth) :
  ∃ e', parse file (e.toSource name) = .ok e' ∧ e'.bare = e.bare
  := by
  obtain ⟨e', expression, same⟩ := prints_written file h 0 0
  have none : Blanks [] := List.forall_mem_nil _
  have whole := File.mk none expression none
  rw [List.append_nil, List.nil_append] at whole
  refine ⟨e', parse_of_file ?_ whole ?_, same⟩
  · rw [toSource, text, written, ← String.toByteArray_ofList, String.ofList_toList]
  · rw [← depth_bare, same, depth_bare]
    apply depth

/-- A file is parsed to the tree that the grammar gives it. -/
theorem parseExpr_eq_ok {source : Source} {e : Expr} :
  (parseExpr source).run = .ok (.ok e) ↔ parse 0 source = .ok e
  := by
  rw [parseExpr_run, Except.ok.injEq, Except.mapError_eq_ok]

/-- Formatting a file goes through when the file is parsed, and prints its expression. -/
theorem formatData_eq_ok {source : Source} {text : String} :
  (formatData source).run = .ok (.ok text)
    ↔ ∃ e, (parseExpr source).run = .ok (.ok e) ∧ e.text = text
  := by
  rw [formatData, Compile.bind_eq_ok]
  apply exists_congr
  intro e
  apply and_congr_right
  intro _
  constructor
  · intro h
    apply Except.ok.inj (Except.ok.inj h)
  · rintro rfl
    rfl

/-- The written form of a well-formed tree is parsed as that tree, up to places, and so is written
alike once more.  Every tree that is parsed is well formed, so that formatting twice is formatting
once. -/
theorem parseExpr_toSource :
  (∀ (e : Expr) (name : String), e.WellFormed → e.depth ≤ maxDepth →
      ∃ e', (parseExpr (e.toSource name)).run = .ok (.ok e') ∧ e'.bare = e.bare ∧ e'.text = e.text)
    ∧ (∀ source e, (parseExpr source).run = .ok (.ok e) → e.WellFormed ∧ e.depth ≤ maxDepth)
    ∧ ∀ source text name, (formatData source).run = .ok (.ok text) →
      (formatData ⟨name, text.toByteArray⟩).run = .ok (.ok text)
  := by
  have again : ∀ (e : Expr) (name : String), e.WellFormed → e.depth ≤ maxDepth →
      ∃ e', (parseExpr (e.toSource name)).run = .ok (.ok e') ∧ e'.bare = e.bare ∧ e'.text = e.text := by
    intro e name h depth
    obtain ⟨e', hparse, same⟩ := parse_toSource 0 name h depth
    use e'
    constructor
    · apply parseExpr_eq_ok.mpr hparse
    use same, text_eq_of_bare_eq same
  have parsed : ∀ source e, (parseExpr source).run = .ok (.ok e) → e.WellFormed ∧ e.depth ≤ maxDepth :=
    fun source e h => wellFormed_of_parse (parseExpr_eq_ok.mp h)
  constructor
  · apply again
  constructor
  · apply parsed
  intro source text name h
  obtain ⟨e, hparse, rfl⟩ := formatData_eq_ok.mp h
  obtain ⟨wf, depth⟩ := parsed source e hparse
  obtain ⟨e', hparse', -, same⟩ := again e name wf depth
  apply formatData_eq_ok.mpr
  use e', hparse', same

/-- A tree that is too long for one line, with an escape in a string. -/
def point : Expr :=
  .struct (some ⟨default, "Point"⟩) default
    [(⟨default, "xs"⟩, .list default [.integer ⟨default, "07"⟩, .string default "a\"b"]),
      (⟨default, "on"⟩, .bool default true)]

example : point.text = "Point\x7b\n  xs: [\n    07,\n    \"a\\\"b\",\n  ],\n  on: true,\n\x7d" := by
  decide

theorem wellFormed_point :
  point.WellFormed
  := by
  have digits : ∀ c ∈ ['0', '7'], isDigit c = true := List.all_eq_true.mp rfl
  have items : ∀ item ∈ [integer ⟨default, "07"⟩, string default "a\"b"], item.WellFormed := by
    simp only [List.forall_mem_cons]
    constructor
    · exact .integer (List.cons_ne_nil _ _) digits
    use .string _ _, List.forall_mem_nil _
  refine .struct ?_ ?_ ?_
  · rintro _ ⟨⟩
    constructor
    · exact ⟨'P', _, rfl, rfl, List.all_eq_true.mp rfl⟩
    · decide
  · simp only [List.forall_mem_cons]
    constructor
    · exact ⟨'x', _, rfl, rfl, List.all_eq_true.mp rfl⟩
    constructor
    · exact ⟨'o', _, rfl, rfl, List.all_eq_true.mp rfl⟩
    · exact List.forall_mem_nil _
  · simp only [List.forall_mem_cons]
    constructor
    · exact .list items
    use .bool _ _, List.forall_mem_nil _

theorem parseExpr_toSource_point :
  point.WellFormed ∧ point.depth ≤ maxDepth
    ∧ ∃ e', (parseExpr (point.toSource "p")).run = .ok (.ok e') ∧ e'.bare = point.bare
      ∧ e'.text = point.text
  := by
  have depth : point.depth ≤ maxDepth := by decide
  constructor
  · apply wellFormed_point
  constructor
  · apply depth
  · apply parseExpr_toSource.1 point "p" wellFormed_point depth

end Expr

end PoolGraph
