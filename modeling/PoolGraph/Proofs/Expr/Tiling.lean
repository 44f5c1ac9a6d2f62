import PoolGraph.Proofs.Expr.Places
import PoolGraph.Proofs.Source.Slices

/-!
# Files as rows of tokens

`Expr.tokens` lists the tokens of a tree, each with its text.  `Tiles` says that a text is made of
tokens with nothing but white space and separators around them; so is every text that has a tree
(`Expr.tiles_of_file`).  From this row the spans of the tokens can be read off: they do not overlap,
each covers the bytes of its token, and what they leave uncovered separates tokens
(`Expr.spans_tile`).
-/

namespace PoolGraph

open Grammar

/-! ### Tokens -/

mutual

/-- The tokens of a tree in the order of the file: its numbers, strings and names as they are kept,
and the words and brackets of which only the span is kept. -/
def Expr.tokens : Expr → List Token
  | .integer raw => [raw]
  | .string raw _ => [raw]
  | .bool span value => [⟨span, String.ofList (truthWord value)⟩]
  | .struct type? brace arguments =>
    type?.toList ++ ⟨brace, String.ofList ['{']⟩ :: argumentsTokens arguments
  | .list bracket items => ⟨bracket, String.ofList ['[']⟩ :: itemsTokens items

/-- The tokens of arguments. -/
def argumentsTokens : List (Token × Expr) → List Token
  | [] => []
  | (name, value) :: rest => name :: value.tokens ++ argumentsTokens rest

/-- The tokens of items. -/
def itemsTokens : List Expr → List Token
  | [] => []
  | item :: rest => item.tokens ++ itemsTokens rest

end

/-- The tokens of an argument. -/
def argumentTokens (argument : Token × Expr) : List Token :=
  argument.1 :: argument.2.tokens

/-- The tokens of arguments are those of each argument in turn. -/
theorem argumentsTokens_eq_flatMap (arguments : List (Token × Expr)) :
  argumentsTokens arguments = arguments.flatMap argumentTokens
  := by
  induction arguments with
  | nil => rfl
  | cons argument rest ih =>
    rw [argumentsTokens, ih, List.flatMap_cons]
    rfl

/-- The tokens of items are those of each item in turn. -/
theorem itemsTokens_eq_flatMap (items : List Expr) :
  itemsTokens items = items.flatMap Expr.tokens
  := by
  induction items with
  | nil => rfl
  | cons item rest ih => rw [itemsTokens, ih, List.flatMap_cons]

theorem map_flatMap_of_mem {f : β → γ} {g : α → List β} {h : α → List γ} {xs : List α}
    (same : ∀ x ∈ xs, (g x).map f = h x) :
  (xs.flatMap g).map f = xs.flatMap h
  := by
  rw [List.map_flatMap]
  apply List.flatMap_congr
  apply same

/-- The spans of a tree are those of its tokens. -/
theorem Expr.map_span_tokens (e : Expr) :
  e.tokens.map Token.span = e.spans
  := by
  induction e using Expr.induction with
  | integer raw => rfl
  | string raw value => rfl
  | bool span value => rfl
  | struct type? brace arguments ih =>
    have inside : (arguments.flatMap argumentTokens).map Token.span
        = arguments.flatMap argumentSpans := by
      apply map_flatMap_of_mem
      intro argument hargument
      rw [argumentTokens, List.map_cons, ih argument hargument, argumentSpans]
    rw [tokens, argumentsTokens_eq_flatMap, spans_struct, List.map_append, List.map_cons, inside]
    cases type? <;> rfl
  | list bracket items ih =>
    rw [tokens, itemsTokens_eq_flatMap, spans_list, List.map_cons, map_flatMap_of_mem ih]

/-! ### Rows -/

/-- The words that tokens are made of: runs of letters, digits and underscores, string literals and
opening brackets. -/
inductive Word : List Char → Prop where
  | run {word : List Char} (nonempty : word ≠ []) (all : ∀ c ∈ word, isNamePart c = true) :
      Word word
  | literal {inner value : List Char} (quoted : Quoted inner value) :
      Word ('"' :: (inner ++ ['"']))
  | brace : Word ['{']
  | bracket : Word ['[']

/-- Whether a character may stand between tokens: it is white space or a separator. -/
def Separates (c : Char) : Prop :=
  Text.isBlank c = true ∨ c ∈ [':', ',', ']', '}']

/-- Whether a text that begins at an offset is made of tokens, with nothing around them but
characters that separate tokens. -/
inductive Tiles (file : Nat) : List Char → Nat → List Token → Prop where
  | nil {offset : Nat} : Tiles file [] offset []
  | gap {offset : Nat} {c : Char} {text : List Char} {tokens : List Token} (hc : Separates c)
      (rest : Tiles file text (offset + c.utf8Size) tokens) : Tiles file (c :: text) offset tokens
  | token {offset : Nat} {word text : List Char} {tokens : List Token} (hword : Word word)
      (rest : Tiles file text (offset + textSize word) tokens) :
      Tiles file (word ++ text) offset (tokenOf file offset word :: tokens)

/-- A word has a character. -/
theorem Word.ne_nil {word : List Char} (h : Word word) :
  word ≠ []
  := by
  cases h with
  | run nonempty => apply nonempty
  | _ => apply List.cons_ne_nil

/-- A name is a word. -/
theorem word_of_identifier {name : List Char} (h : Identifier name) :
  Word name
  := by
  obtain ⟨first, rest, rfl, start, parts⟩ := h
  exact .run (List.cons_ne_nil _ _)
    (List.forall_mem_cons.mpr ⟨Parser.isNamePart_of_isNameStart start, parts⟩)

/-- A truth value is a word. -/
theorem word_truthWord (b : Bool) :
  Word (truthWord b)
  := word_of_identifier (Parser.identifier_truthWord b)

namespace Tiles

variable {file offset : Nat} {text text' : List Char} {tokens tokens' : List Token}

/-- Two texts that tokens tile are tiled together, the second from where the first ends. -/
theorem append (h : Tiles file text offset tokens)
    (h' : Tiles file text' (offset + textSize text) tokens') :
  Tiles file (text ++ text') offset (tokens ++ tokens')
  := by
  induction h with
  | nil => apply h'
  | gap hc _ ih =>
    apply gap hc
    apply ih
    rw [textSize_cons, ← Nat.add_assoc] at h'
    apply h'
  | token hword _ ih =>
    rw [List.append_assoc]
    apply token hword
    apply ih
    rw [textSize_append, ← Nat.add_assoc] at h'
    apply h'

/-- One word is tiled by its token. -/
theorem word {word : List Char} (h : Word word) :
  Tiles file word offset [tokenOf file offset word]
  := by
  have alone : Tiles file (word ++ []) offset [tokenOf file offset word] := token h nil
  rwa [List.append_nil] at alone

/-- A separator holds no token. -/
theorem separator {c : Char} (h : Separates c) :
  Tiles file [c] offset []
  := gap h nil

/-- Blanks hold no token. -/
theorem blanks {before : List Char} (h : Blanks before) :
  Tiles file before offset []
  := by
  induction before generalizing offset with
  | nil => apply nil
  | cons c before ih =>
    obtain ⟨blank, others⟩ := List.forall_mem_cons.mp h
    exact gap (.inl blank) (ih others)

end Tiles

/-! ### Texts and their rows -/

section

variable {α : Type} {file : Nat} {R : List Char → Nat → α → Prop} {view : α → List Token}

/-- Whether the texts of things are made of their tokens. -/
def Rows (file : Nat) (R : List Char → Nat → α → Prop) (view : α → List Token) : Prop :=
  ∀ text offset x, R text offset x → Tiles file text offset (view x)

theorem separates_comma :
  Separates ','
  := .inr (by decide)

/-- What follows a comma is tiled if items are. -/
theorem Rows.following (h : Rows file R view) :
  Rows file (Following R) view
  := by
  rintro _ offset x ⟨hbefore, hafter, item⟩
  next before after text =>
  have comma : Tiles file (before ++ ',' :: after) offset [] :=
    (Tiles.blanks hbefore).append (.gap separates_comma (.blanks hafter))
  have whole := comma.append (h _ _ _ item)
  rw [List.append_assoc] at whole
  apply whole

/-- A row of texts is tiled if each of them is. -/
theorem Rows.star (h : Rows file R view) :
  Rows file (Star R) (List.flatMap view)
  := by
  intro text offset xs star
  induction star with
  | nil => exact .nil
  | cons first _ ih =>
    rw [List.flatMap_cons]
    apply (h _ _ _ first).append ih

/-- A trailing comma holds no token. -/
theorem tiles_trailing {text : List Char} (h : Trailing text) (offset : Nat) :
  Tiles file text offset []
  := by
  cases h with
  | none => exact .nil
  | comma hbefore => exact (Tiles.blanks hbefore).append (.separator separates_comma)

/-- Items between commas are tiled if each item is. -/
theorem Rows.items (h : Rows file R view) :
  Rows file (Items R) (List.flatMap view)
  := by
  rintro _ offset _ (_ | ⟨first, more, last⟩)
  · exact .nil
  · have items := (h _ _ _ first).append (h.following.star _ _ _ more)
    have whole := items.append (tiles_trailing last _)
    rw [List.append_nil] at whole
    apply whole

/-- A block is tiled by its opening bracket and its items, and its closing bracket separates. -/
theorem Rows.block (h : Rows file R view) {opening closing : Char} (word : Word [opening])
    (closes : Separates closing) {text : List Char} {offset : Nat} {xs : List α}
    (block : Block opening closing R text offset xs) :
  Tiles file text offset (tokenOf file offset [opening] :: xs.flatMap view)
  := by
  obtain ⟨hbefore, items, hafter⟩ := block
  next before text after =>
  have first : Tiles file (opening :: before) offset [tokenOf file offset [opening]] :=
    .token word (.blanks hbefore)
  have inside := first.append (h.items _ _ _ items)
  have whole := (inside.append (.blanks hafter)).append (.separator closes)
  rw [List.append_nil, List.append_nil] at whole
  apply whole

/-- An argument is tiled by its name and the tokens of its value. -/
theorem Rows.argument (h : Rows file R view) :
  Rows file (Argument file R) fun argument => argument.1 :: view argument.2
  := by
  rintro _ offset _ ⟨hname, hbefore, hafter, value⟩
  next name before after text x =>
  have separates : Separates ':' := .inr (by decide)
  have colon : Tiles file (before ++ ':' :: after) (offset + textSize name) [] :=
    (Tiles.blanks hbefore).append (.gap separates (.blanks hafter))
  have key := (Tiles.word (word_of_identifier hname)).append colon
  rw [← List.append_assoc] at key
  have whole := key.append (h _ _ _ value)
  rw [List.append_assoc (name ++ before)] at whole
  apply whole

end

namespace Expr

variable {file : Nat}

/-- The text of a tree is made of its tokens.  The induction is on a bound for the depth, as in
`places_spans`. -/
theorem rows_tokens (n : Nat) :
  Rows file (fun text offset e => Expression file text offset e ∧ e.depth < n) tokens
  := by
  induction n with
  | zero =>
    rintro text offset e ⟨-, depth⟩
    cases depth
  | succ n ih =>
    have inside : ∀ {text offset arguments},
        Block '{' '}' (Argument file (Expression file)) text offset arguments →
        argumentsDepth arguments < n →
        Tiles file text offset
          (tokenOf file offset ['{'] :: arguments.flatMap argumentTokens) := by
      intro text offset arguments block depth
      have closes : Separates '}' := .inr (by decide)
      apply ih.argument.block .brace closes
      rw [argument_and_iff]
      apply block_and_iff.mpr
      constructor
      · apply block
      intro argument hargument
      apply (argumentsDepth_le_iff.mp (Nat.le_refl _) argument hargument).trans_lt depth
    rintro text offset e ⟨expression, depth⟩
    cases expression with
    | integer nonempty all =>
      apply Tiles.word
      apply Word.run nonempty
      intro c hc
      simp [isNamePart, all c hc]
    | bool b => apply Tiles.word (word_truthWord b)
    | string quoted => apply Tiles.word (.literal quoted)
    | struct hname _ hblanks block =>
      next name blanks text arguments _ =>
      have first : Tiles file (name ++ blanks) offset [tokenOf file offset name] :=
        (Tiles.word (word_of_identifier hname)).append (.blanks hblanks)
      rw [tokens, argumentsTokens_eq_flatMap]
      apply first.append (inside block (Nat.lt_of_succ_lt_succ depth))
    | untyped block =>
      rw [tokens, argumentsTokens_eq_flatMap]
      apply inside block (Nat.lt_of_succ_lt_succ depth)
    | list block =>
      have closes : Separates ']' := .inr (by decide)
      rw [tokens, itemsTokens_eq_flatMap]
      apply ih.block .bracket closes
      apply block_and_iff.mpr
      constructor
      · apply block
      intro item hitem
      apply (itemsDepth_le_iff.mp (Nat.le_refl _) item hitem).trans_lt
      apply Nat.lt_of_succ_lt_succ depth

/-- A file is tiled by the tokens of its tree. -/
theorem tiles_of_file {text : List Char} {e : Expr} (h : File file text e) :
  Tiles file text 0 e.tokens
  := by
  obtain ⟨hbefore, expression, hafter⟩ := h
  rw [← Nat.zero_add (textSize _)] at expression
  have tokens := rows_tokens (e.depth + 1) _ _ _ ⟨expression, Nat.lt_succ_self _⟩
  have whole := ((Tiles.blanks hbefore).append tokens).append (.blanks hafter)
  rw [List.append_nil] at whole
  apply whole

end Expr

/-! ### Reading off spans -/

namespace Tiles

variable {file offset : Nat} {text : List Char} {tokens : List Token}

/-- A token lies within its text and is not empty. -/
theorem bounds (h : Tiles file text offset tokens) :
  ∀ token ∈ tokens, token.span.file = file ∧ offset ≤ token.span.start
    ∧ token.span.start < token.span.stop ∧ token.span.stop ≤ offset + textSize text
  := by
  induction h with
  | nil => apply List.forall_mem_nil
  | gap _ _ ih =>
    intro token htoken
    obtain ⟨own, low, some, high⟩ := ih token htoken
    rw [textSize_cons]
    refine ⟨own, ?_, some, ?_⟩ <;> omega
  | token hword _ ih =>
    have positive := textSize_pos hword.ne_nil
    rw [textSize_append]
    rw [List.forall_mem_cons]
    constructor
    · refine ⟨rfl, Nat.le_refl _, ?_, ?_⟩ <;> simp only [tokenOf, spanOf] <;> omega
    · intro token htoken
      obtain ⟨own, low, some, high⟩ := ih token htoken
      refine ⟨own, ?_, some, ?_⟩ <;> omega

/-- Of two tokens the second begins where the first has ended. -/
theorem disjoint (h : Tiles file text offset tokens) :
  tokens.Pairwise fun a b => a.span.stop ≤ b.span.start
  := by
  induction h with
  | nil => exact .nil
  | gap _ _ ih => apply ih
  | token _ rest ih =>
    refine List.pairwise_cons.mpr ⟨?_, ih⟩
    intro token htoken
    apply (rest.bounds token htoken).2.1

/-- A token stands in the text where its span says. -/
theorem exists_split (h : Tiles file text offset tokens) :
  ∀ token ∈ tokens, ∃ before word after, text = before ++ word ++ after
    ∧ token = tokenOf file (offset + textSize before) word
  := by
  induction h with
  | nil => apply List.forall_mem_nil
  | @gap offset c text tokens _ _ ih =>
    intro token htoken
    obtain ⟨before, word, after, rfl, rfl⟩ := ih token htoken
    use c :: before, word, after, rfl
    rw [textSize_cons, Nat.add_assoc]
  | @token offset word text tokens _ _ ih =>
    refine List.forall_mem_cons.mpr ⟨?_, ?_⟩
    · use [], word, text, rfl
      rfl
    · intro token htoken
      obtain ⟨before, word', after, rfl, rfl⟩ := ih token htoken
      use word ++ before, word', after
      constructor
      · simp only [List.append_assoc]
      · rw [textSize_append, Nat.add_assoc]

/-- A byte that no token covers belongs to a character that separates tokens. -/
theorem exists_separator (h : Tiles file text offset tokens) {i : Nat} (low : offset ≤ i)
    (high : i < offset + textSize text)
    (uncovered : ∀ token ∈ tokens, ¬ (token.span.start ≤ i ∧ i < token.span.stop)) :
  ∃ before c after, text = before ++ c :: after ∧ offset + textSize before ≤ i
    ∧ i < offset + textSize before + c.utf8Size ∧ Separates c
  := by
  induction h with
  | nil =>
    rw [textSize_nil] at high
    omega
  | @gap offset c text tokens hc _ ih =>
    by_cases here : i < offset + c.utf8Size
    · use [], c, text, rfl, low, here, hc
    · rw [textSize_cons, ← Nat.add_assoc] at high
      obtain ⟨before, c', after, rfl, low, high, hc'⟩ := ih (by omega) high uncovered
      refine ⟨c :: before, c', after, rfl, ?_, ?_, hc'⟩ <;>
      · rw [textSize_cons]
        omega
  | @token offset word text tokens _ _ ih =>
    obtain ⟨here, others⟩ := List.forall_mem_cons.mp uncovered
    simp only [tokenOf, spanOf] at here
    rw [textSize_append, ← Nat.add_assoc] at high
    obtain ⟨before, c, after, rfl, low, high, hc⟩ := ih (by omega) high others
    refine ⟨word ++ before, c, after, (List.append_assoc _ _ _).symm, ?_, ?_, hc⟩ <;>
    · rw [textSize_append]
      omega

end Tiles

namespace Expr

/-- The spans of a tree that was parsed are in the order of the file, apart from each other and
inside the file; each token covers exactly the bytes of its text, and every byte that no token
covers belongs to white space or is a separator. -/
theorem spans_tile {file : Nat} {source : Source} {e : Expr} (h : parse file source = .ok e) :
  (e.spans.Pairwise fun a b => a.stop ≤ b.start)
    ∧ (∀ span ∈ e.spans,
        span.file = file ∧ span.start < span.stop ∧ span.stop ≤ source.data.size)
    ∧ e.tokens.map Token.span = e.spans
    ∧ (∀ token ∈ e.tokens,
        source.data.extract token.span.start token.span.stop = token.text.toByteArray)
    ∧ ∀ i < source.data.size, (∀ span ∈ e.spans, ¬ (span.start ≤ i ∧ i < span.stop)) →
        ∃ before c after, source.data = (before ++ c :: after).utf8Encode
          ∧ textSize before ≤ i ∧ i < textSize before + c.utf8Size
          ∧ (Text.isBlank c = true ∨ c ∈ [':', ',', ']', '}'])
  := by
  obtain ⟨text, hdata, hfile, -⟩ := file_of_parse h
  obtain ⟨characters, size⟩ := charactersFrom_zero_eq_iff.mpr hdata
  have tiles := tiles_of_file hfile
  rw [← map_span_tokens, List.pairwise_map, List.forall_mem_map, ← size]
  constructor
  · apply tiles.disjoint
  constructor
  · intro token htoken
    obtain ⟨own, -, some, high⟩ := tiles.bounds token htoken
    rw [Nat.zero_add] at high
    exact ⟨own, some, high⟩
  constructor
  · rfl
  constructor
  · intro token htoken
    obtain ⟨before, word, after, rfl, rfl⟩ := tiles.exists_split token htoken
    have split := characters.trans (List.append_assoc _ _ _)
    have front := extract_of_charactersFrom (Nat.zero_le _) split
    obtain ⟨-, inside, behind⟩ := front
    obtain ⟨bytes, -, -⟩ := extract_of_charactersFrom inside behind
    simp only [tokenOf, spanOf]
    rw [bytes, String.toByteArray_ofList]
  · intro i inside uncovered
    rw [List.forall_mem_map] at uncovered
    rw [← Nat.zero_add (textSize text)] at inside
    obtain ⟨before, c, after, rfl, low, high, separates⟩ :=
      tiles.exists_separator (Nat.zero_le i) inside uncovered
    rw [Nat.zero_add] at low high
    use before, c, after, hdata, low, high, separates

/-- A file with a list in a struct, a character of two bytes and a comma behind the last
argument. -/
def accentedFile : Source :=
  ⟨"d",
    (String.ofList
      ['{', 'a', ':', ' ', '[', '1', ',', '"', 'é', '"', ']', ',', '}']).toByteArray⟩

/-- The string in that file. -/
def accentedToken : Token :=
  tokenOf 0 7 ['"', 'é', '"']

/-- The tree of that file. -/
def accentedTree : Expr :=
  .struct none (spanOf 0 0 ['{'])
    [(tokenOf 0 1 ['a'], .list (spanOf 0 4 ['['])
      [.integer (tokenOf 0 5 ['1']), .string accentedToken (String.ofList ['é'])])]

theorem parse_accentedFile :
  parse 0 accentedFile = .ok accentedTree
  := by
  have none : Blanks [] := List.forall_mem_nil _
  have space : Blanks [' '] := List.all_eq_true.mp rfl
  have name : Identifier ['a'] := ⟨'a', _, rfl, rfl, List.all_eq_true.mp rfl⟩
  have number : Expression 0 ['1'] 5 (.integer (tokenOf 0 5 ['1'])) :=
    .integer (List.cons_ne_nil _ _) (List.all_eq_true.mp rfl)
  have quoted : Quoted ['é'] ['é'] := .plain (by decide) (by decide) .nil
  have string : Expression 0 _ 7 (.string accentedToken (String.ofList ['é'])) := .string quoted
  have items : Expression 0 _ 4 _ :=
    .list (.mk none (.cons number (.cons (.mk none none string) .nil) .none) none)
  have argument : Argument 0 (Expression 0) _ 1 _ := .mk name none space items
  have tree : Expression 0 _ 0 accentedTree :=
    .untyped (.mk none (.cons argument .nil (.comma none)) none)
  apply parse_of_file _ (.mk none tree none)
  · decide
  · rw [accentedFile, String.toByteArray_ofList]
    rfl

/-- The string covers its four bytes, and the space in front of the list is no token. -/
theorem spans_tile_accented :
  parse 0 accentedFile = .ok accentedTree
    ∧ accentedFile.data.extract 7 11 = accentedToken.text.toByteArray
    ∧ ∃ before c after, accentedFile.data = (before ++ c :: after).utf8Encode
      ∧ textSize before ≤ 3 ∧ 3 < textSize before + c.utf8Size
      ∧ (Text.isBlank c = true ∨ c ∈ [':', ',', ']', '}'])
  := by
  obtain ⟨-, -, -, covered, between⟩ := spans_tile parse_accentedFile
  have tokens : accentedTree.tokens = [⟨spanOf 0 0 ['{'], String.ofList ['{']⟩, tokenOf 0 1 ['a'],
      ⟨spanOf 0 4 ['['], String.ofList ['[']⟩, tokenOf 0 5 ['1'], accentedToken] := rfl
  have spans : accentedTree.spans = [⟨0, 0, 1⟩, ⟨0, 1, 2⟩, ⟨0, 4, 5⟩, ⟨0, 5, 6⟩, ⟨0, 7, 11⟩] := by
    decide
  constructor
  · apply parse_accentedFile
  constructor
  · apply covered accentedToken
    rw [tokens]
    simp
  · apply between 3
    · rw [accentedFile, String.toByteArray_ofList]
      decide
    · rw [spans]
      decide

end Expr

end PoolGraph
