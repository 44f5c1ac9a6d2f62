import PoolGraph.Expr.Basic
import PoolGraph.Source.Diagnostic
import PoolGraph.Source.Parser

/-!
# The grammar of data files

`Expr.parse` reads a whole file as one expression.  A file that is none gives one diagnostic:
at the furthest offset that any alternative reached, or where lists and structs are nested too
deep.
-/

namespace PoolGraph

namespace Parser

/-- The token between an earlier cursor and the current one. -/
def tokenFrom (file : Nat) (start : Cursor) : Parser Token := do
  let stop ← cursor
  return ⟨⟨file, start.offset, stop.offset⟩, start.textUntil stop⟩

/-- A name: a letter or an underscore, then letters, digits and underscores. -/
def name (file : Nat) : Parser Token := do
  let start ← cursor
  if start.peek?.any isNameStart then
    let _ ← takeWhile isNamePart
    tokenFrom file start
  else failure

/-- One of the given brackets, by its span. -/
def opening (file : Nat) (bracket : Char) : Parser Span := do
  let start ← cursor
  char bracket
  return ⟨file, start.offset, (← cursor).offset⟩

/-- Items between commas, perhaps none; after the last item there may be one more comma. -/
def commaSeparated (item : Parser α) : Parser (List α) := do
  let items? ← attempt do
    let first ← item
    let rest ← many do
      blanks
      char ','
      blanks
      item
    let _ ← attempt do
      blanks
      char ','
    return first :: rest
  return items?.getD []

/-- The character that an escape stands for, by the character after the backslash. -/
def unescape? : Char → Option Char
  | '"' => some '"'
  | '\\' => some '\\'
  | 'n' => some '\n'
  | 't' => some '\t'
  | _ => none

/-- Reads a string up to its closing quote, from the characters that begin at `offset`, behind
those that stand in `before` in reverse.  Without a closing quote the cursor ends behind all
characters, with an unknown escape behind that escape. -/
def quoted (offset : Nat) (before : List Char) : List Char → Option String × Cursor
  | [] => (none, ⟨offset, []⟩)
  | '"' :: rest => (some (String.ofList before.reverse), ⟨offset + 1, rest⟩)
  | ['\\'] => (none, ⟨offset + 1, []⟩)
  | '\\' :: escaped :: rest =>
    match unescape? escaped with
    | some c => quoted (offset + 1 + escaped.utf8Size) (c :: before) rest
    | none => (none, ⟨offset + 1 + escaped.utf8Size, rest⟩)
  | c :: rest => quoted (offset + c.utf8Size) (c :: before) rest

/-- A string literal. -/
def string (file : Nat) : Parser Expr := do
  let start ← cursor
  char '"'
  let inside ← cursor
  let (value?, after) := quoted inside.offset [] inside.rest
  moveTo after
  match value? with
  | some value => return .string (← tokenFrom file start) value
  | none => failure

/-- One of the words for truth values. -/
def truthValue (file : Nat) : Parser Expr := do
  let token ← name file
  if token.text = "true" then return .bool token.span true
  else if token.text = "false" then return .bool token.span false
  else failure

/-- A run of digits, which may be empty. -/
def digits (file : Nat) : Parser Expr := do
  let start ← cursor
  let _ ← takeWhile isDigit
  return .integer (← tokenFrom file start)

/-- A named argument of a struct. -/
def argument (file : Nat) (value : Parser Expr) : Parser (Token × Expr) := do
  let key ← name file
  blanks
  char ':'
  blanks
  return (key, ← value)

/-- A struct, with or without a type name, whose arguments are read by `value`. -/
def struct (file : Nat) (value : Parser Expr) : Parser Expr := do
  let type? ← do
    if (← cursor).peek?.any isNameStart then
      let type ← name file
      blanks
      pure (some type)
    else pure none
  let brace ← opening file '{'
  blanks
  let arguments ← commaSeparated (argument file value)
  blanks
  char '}'
  return .struct type? brace arguments

/-- A list whose items are read by `value`. -/
def list (file : Nat) (value : Parser Expr) : Parser Expr := do
  let bracket ← opening file '['
  blanks
  let items ← commaSeparated value
  blanks
  char ']'
  return .list bracket items

/-- Refuses to open a level here. -/
def refuse : Parser α := do
  modify Progress.refuse
  failure

/-- An expression, chosen by its first character; `struct` and `list` read what opens a
level. -/
def expression (file : Nat) (struct list : Parser Expr) : Parser Expr := do
  let start ← cursor
  match start.peek? with
  | none => failure
  | some c =>
    if isDigit c then digits file
    else if isNameStart c then
      match ← attempt (truthValue file) with
      | some e => return e
      | none => struct
    else if c = '{' then struct
    else if c = '"' then string file
    else if c = '[' then list
    else failure

/-- An expression in which at most `room` levels are opened. -/
def value (file : Nat) : (room : Nat) → Parser Expr
  | 0 => expression file refuse refuse
  | room + 1 =>
    let inner := value file room
    expression file (struct file inner) (list file inner)

end Parser

/-- The expression that the file with the given position consists of. -/
def Expr.parse (file : Nat) (source : Source) : Except Diagnostic Expr :=
  let whole : Parser Expr := do
    Parser.blanks
    let e ← Parser.value file maxDepth
    Parser.blanks
    return e
  match whole.run (Progress.start source) with
  | (some e, s) =>
    if s.cursor.isEnd && s.cursor.offset = source.data.size then .ok e else .error (complaint s)
  | (none, s) => .error (complaint s)
where
  /-- What is wrong with a file that is no expression. -/
  complaint (s : Progress) : Diagnostic :=
    match s.refused with
    | some offset => ⟨⟨file, offset, offset + 1⟩, "nesting too deep"⟩
    | none =>
      let offset := s.giveUp.furthest
      ⟨⟨file, offset, offset + 1⟩, "unexpected character"⟩

end PoolGraph
