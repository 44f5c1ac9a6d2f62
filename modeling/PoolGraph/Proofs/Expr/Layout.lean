import PoolGraph.Expr.Printer

/-!
# What the printer writes

The printer writes behind a text that it leaves alone, so that an expression has one form at each
level, `Expr.written`.  The forms of structs and lists are put together from those of their
arguments and items by `Layout.block`.
-/

namespace PoolGraph

/-! ### Texts in a row -/

namespace Layout

/-- Texts with commas between them; `separator` goes before the first. -/
def onLine (separator : List Char) : List (List Char) → List Char
  | [] => []
  | part :: rest => separator ++ part ++ onLine [',', ' '] rest

/-- Texts with a line for each, behind the given indentation. -/
def lines (indent : List Char) : List (List Char) → List Char
  | [] => []
  | part :: rest => indent ++ part ++ [',', '\n'] ++ lines indent rest

/-- Texts behind commas, with the given gap after each comma. -/
def behindCommas (gap : List Char) : List (List Char) → List Char
  | [] => []
  | part :: rest => ',' :: (gap ++ part) ++ behindCommas gap rest

/-- Parts on one line stand behind commas with a space. -/
theorem onLine_eq_behindCommas (parts : List (List Char)) :
  onLine [',', ' '] parts = behindCommas [' '] parts
  := by
  induction parts with
  | nil => rfl
  | cons part rest ih =>
    rw [onLine, behindCommas, ih]
    rfl

/-- Parts on lines of their own stand behind commas with a line feed and an indentation. -/
theorem comma_lines_eq_behindCommas (indent : List Char) (parts : List (List Char)) :
  [',', '\n'] ++ lines indent parts = behindCommas ('\n' :: indent) parts ++ [',', '\n']
  := by
  induction parts with
  | nil => rfl
  | cons part rest ih =>
    rw [lines, behindCommas, List.append_assoc, List.append_assoc _ _ [',', '\n'], ← ih]
    simp only [List.append_assoc, List.cons_append, List.nil_append]

/-- Items between brackets, on one line or with a line for each; the items may look different on
each level. -/
def block (opening closing : Char) (fits : Bool) (level : Nat)
    (parts : Nat → List (List Char)) : List Char :=
  if fits then opening :: (onLine [] (parts level) ++ [closing])
  else opening :: '\n' :: (lines (Expr.indentation (level + 1)).toList (parts (level + 1))
    ++ (Expr.indentation level).toList ++ [closing])

end Layout

namespace Expr

/-! ### The written form -/

/-- The form of an expression at a level. -/
def written (level : Nat) (e : Expr) : List Char :=
  (append level "" e).toList

/-- The form of an argument at a level. -/
def writtenArgument (level : Nat) (argument : Token × Expr) : List Char :=
  argument.1.text.toList ++ [':', ' '] ++ argument.2.written level

mutual

/-- Printing an expression appends its written form. -/
theorem toList_append (level : Nat) (out : String) (e : Expr) :
  (append level out e).toList = out.toList ++ e.written level
  := by
  rw [written]
  cases e with
  | integer raw => simp only [append, String.toList_append, String.toList_empty, List.nil_append]
  | string raw value =>
    simp only [append, String.toList_append, String.toList_empty, List.nil_append]
  | bool span value =>
    simp only [append, String.toList_append, String.toList_empty, List.nil_append]
  | struct type? brace arguments =>
    rw [append, append]
    split <;>
      simp only [toList_appendArgumentsOnLine, toList_appendArguments, String.toList_append,
        String.toList_empty, List.nil_append, List.append_assoc]
  | list bracket items =>
    rw [append, append]
    split <;>
      simp only [toList_appendItemsOnLine, toList_appendItems, String.toList_append,
        String.toList_empty, List.nil_append, List.append_assoc]

theorem toList_appendArgumentsOnLine (level : Nat) (separator out : String)
    (arguments : List (Token × Expr)) :
  (appendArgumentsOnLine level separator out arguments).toList
    = out.toList ++ Layout.onLine separator.toList (arguments.map (writtenArgument level))
  := by
  cases arguments with
  | nil => rw [appendArgumentsOnLine, List.map_nil, Layout.onLine, List.append_nil]
  | cons argument rest =>
    obtain ⟨name, value⟩ := argument
    rw [appendArgumentsOnLine, toList_appendArgumentsOnLine, toList_append, List.map_cons,
      Layout.onLine, writtenArgument]
    simp only [String.toList_append, List.append_assoc]
    rfl

/-- Printing arguments on lines of their own appends their written forms one below the other. -/
theorem toList_appendArguments (level : Nat) (out : String) (arguments : List (Token × Expr)) :
  (appendArguments level out arguments).toList
    = out.toList ++ Layout.lines (indentation level).toList (arguments.map (writtenArgument level))
  := by
  cases arguments with
  | nil => rw [appendArguments, List.map_nil, Layout.lines, List.append_nil]
  | cons argument rest =>
    obtain ⟨name, value⟩ := argument
    rw [appendArguments, toList_appendArguments, String.toList_append, toList_append, List.map_cons,
      Layout.lines, writtenArgument]
    simp only [String.toList_append, List.append_assoc]
    rfl

theorem toList_appendItemsOnLine (level : Nat) (separator out : String) (items : List Expr) :
  (appendItemsOnLine level separator out items).toList
    = out.toList ++ Layout.onLine separator.toList (items.map (written level))
  := by
  cases items with
  | nil => rw [appendItemsOnLine, List.map_nil, Layout.onLine, List.append_nil]
  | cons item rest =>
    rw [appendItemsOnLine, toList_appendItemsOnLine, toList_append, List.map_cons, Layout.onLine]
    simp only [String.toList_append, List.append_assoc]
    rfl

/-- Printing items on lines of their own appends their written forms one below the other. -/
theorem toList_appendItems (level : Nat) (out : String) (items : List Expr) :
  (appendItems level out items).toList
    = out.toList ++ Layout.lines (indentation level).toList (items.map (written level))
  := by
  cases items with
  | nil => rw [appendItems, List.map_nil, Layout.lines, List.append_nil]
  | cons item rest =>
    rw [appendItems, toList_appendItems, String.toList_append, toList_append, List.map_cons,
      Layout.lines]
    simp only [String.toList_append, List.append_assoc]
    rfl

end

/-- A struct literal is written as its name and a block of its arguments. -/
theorem written_struct (level : Nat) (type? : Option Token) (brace : Span)
    (arguments : List (Token × Expr)) :
  written level (.struct type? brace arguments)
    = ((type?.map Token.text).getD "").toList ++ Layout.block '{' '}'
        (fitsOnLine (.struct type? brace arguments)) level
        fun level => arguments.map (writtenArgument level)
  := by
  rw [written, append, Layout.block]
  split <;>
    · simp only [toList_appendArgumentsOnLine, toList_appendArguments, String.toList_append,
        String.toList_empty, List.nil_append, List.append_assoc]
      rfl

/-- A list literal is written as a block of its items. -/
theorem written_list (level : Nat) (bracket : Span) (items : List Expr) :
  written level (.list bracket items)
    = Layout.block '[' ']' (fitsOnLine (.list bracket items)) level
        fun level => items.map (written level)
  := by
  rw [written, append, Layout.block]
  split <;>
    · simp only [toList_appendItemsOnLine, toList_appendItems, String.toList_append,
        String.toList_empty, List.nil_append, List.append_assoc]
      rfl

end Expr

end PoolGraph
