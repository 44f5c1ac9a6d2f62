import PoolGraph.Source.Basic

/-!
# Expressions

An `Expr` is the tree of a data file before any type is known.  It keeps the span of every
token, which `Expr.spans` lists in the order of the file.
-/

namespace PoolGraph

/-- The tree of a data file. -/
inductive Expr where
  /-- An integer by its digits. -/
  | integer (raw : Token)
  /-- A string literal and the text it stands for. -/
  | string (raw : Token) (value : String)
  | bool (span : Span) (value : Bool)
  /-- A struct with its type name, if it has one, the span of its opening brace and its named
  arguments. -/
  | struct (type? : Option Token) (brace : Span) (arguments : List (Token × Expr))
  /-- A list with the span of its opening bracket and its items. -/
  | list (bracket : Span) (items : List Expr)
  deriving Inhabited

namespace Expr

/-- The span that an error about the whole expression points at: the type name of a struct
that has one, the opening bracket of other structs and of lists, and else the literal. -/
def errorSpan : Expr → Span
  | .integer raw => raw.span
  | .string raw _ => raw.span
  | .bool span _ => span
  | .struct (some type) _ _ => type.span
  | .struct none brace _ => brace
  | .list bracket _ => bracket

mutual

/-- The spans of all tokens in reverse, before those in `found`. -/
def spansOnto (found : List Span) : Expr → List Span
  | .integer raw => raw.span :: found
  | .string raw _ => raw.span :: found
  | .bool span _ => span :: found
  | .struct type? brace arguments =>
    let found := match type? with
      | some type => type.span :: found
      | none => found
    argumentSpansOnto (brace :: found) arguments
  | .list bracket items => itemSpansOnto (bracket :: found) items

/-- The spans of all tokens of arguments in reverse, before those in `found`. -/
def argumentSpansOnto (found : List Span) : List (Token × Expr) → List Span
  | [] => found
  | (name, value) :: rest => argumentSpansOnto (spansOnto (name.span :: found) value) rest

/-- The spans of all tokens of items in reverse, before those in `found`. -/
def itemSpansOnto (found : List Span) : List Expr → List Span
  | [] => found
  | item :: rest => itemSpansOnto (spansOnto found item) rest

end

/-- The spans of all tokens in the order of the file. -/
def spans (e : Expr) : List Span :=
  (e.spansOnto []).reverse

end Expr

end PoolGraph
