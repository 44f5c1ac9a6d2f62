import PoolGraph.Expr.Basic
import PoolGraph.Text.Quoted

/-!
# The layout of data files

`Expr.text` writes an expression as a data file.  Small expressions stay on one line; others
have one argument or item a line, each with a comma behind it.
-/

namespace PoolGraph.Expr

mutual

/-- Whether an expression is written on one line: a literal, a struct of fewer than six
one-line arguments or a list of at most one one-line item. -/
def fitsOnLine : Expr → Bool
  | .integer _ => true
  | .string _ _ => true
  | .bool _ _ => true
  | .struct _ _ arguments => arguments.length < 6 && argumentsFitOnLine arguments
  | .list _ items => items.length ≤ 1 && itemsFitOnLine items

/-- Whether the values of all arguments are written on one line. -/
def argumentsFitOnLine : List (Token × Expr) → Bool
  | [] => true
  | (_, value) :: rest => fitsOnLine value && argumentsFitOnLine rest

/-- Whether all items are written on one line. -/
def itemsFitOnLine : List Expr → Bool
  | [] => true
  | item :: rest => fitsOnLine item && itemsFitOnLine rest

end

/-- The indentation of a level. -/
def indentation (level : Nat) : String :=
  String.ofList (List.replicate (2 * level) ' ')

mutual

/-- Appends an expression that stands at the given level. -/
def append (level : Nat) (out : String) : Expr → String
  | .integer raw => out ++ raw.text
  | .string _ value => out ++ Text.literal value
  | .bool _ value => out ++ if value then "true" else "false"
  | .struct type? brace arguments =>
    let out := out ++ (type?.map Token.text).getD "" ++ "\x7b"
    if fitsOnLine (.struct type? brace arguments) then
      appendArgumentsOnLine level "" out arguments ++ "\x7d"
    else
      appendArguments (level + 1) (out ++ "\n") arguments ++ indentation level ++ "\x7d"
  | .list bracket items =>
    if fitsOnLine (.list bracket items) then appendItemsOnLine level "" (out ++ "[") items ++ "]"
    else appendItems (level + 1) (out ++ "[\n") items ++ indentation level ++ "]"

/-- Appends arguments with commas between them; `separator` goes before the first. -/
def appendArgumentsOnLine (level : Nat) (separator out : String) :
    List (Token × Expr) → String
  | [] => out
  | (name, value) :: rest =>
    appendArgumentsOnLine level ", " (append level (out ++ separator ++ name.text ++ ": ") value)
      rest

/-- Appends arguments with a line for each. -/
def appendArguments (level : Nat) (out : String) : List (Token × Expr) → String
  | [] => out
  | (name, value) :: rest =>
    appendArguments level
      (append level (out ++ indentation level ++ name.text ++ ": ") value ++ ",\n") rest

/-- Appends items with commas between them; `separator` goes before the first. -/
def appendItemsOnLine (level : Nat) (separator out : String) : List Expr → String
  | [] => out
  | item :: rest =>
    appendItemsOnLine level ", " (append level (out ++ separator) item) rest

/-- Appends items with a line for each. -/
def appendItems (level : Nat) (out : String) : List Expr → String
  | [] => out
  | item :: rest =>
    appendItems level (append level (out ++ indentation level) item ++ ",\n") rest

end

/-- An expression as a data file. -/
def text (e : Expr) : String :=
  append 0 "" e

end PoolGraph.Expr
