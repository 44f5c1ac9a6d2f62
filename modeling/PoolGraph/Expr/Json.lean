import PoolGraph.Expr.Basic
import PoolGraph.Json

/-!
# Expressions as JSON

`Expr.toJson` gives every node as an object that begins with its kind.
-/

namespace PoolGraph

def Span.toJson (span : Span) : Json :=
  .object [("file", .int span.file), ("begin", .int span.start), ("end", .int span.stop)]

def Token.toJson (token : Token) : Json :=
  .object [("loc", token.span.toJson), ("text", .string token.text)]

namespace Expr

mutual

/-- An expression as JSON. -/
def toJson : Expr → Json
  | .integer raw => .object [("kind", .string "Integer"), ("raw", raw.toJson)]
  | .string raw value =>
    .object [("kind", .string "String"), ("raw", raw.toJson), ("value", .string value)]
  | .bool span value =>
    .object [("kind", .string "Boolean"), ("loc", span.toJson), ("value", .bool value)]
  | .struct type? brace arguments =>
    let type := match type? with
      | some token => [("type", .object [("raw", token.toJson)])]
      | none => []
    .object ([("kind", .string "Struct")] ++ type ++
      [("loc", brace.toJson), ("args", .array (argumentsJson [] arguments))])
  | .list bracket items =>
    .object [("kind", .string "List"), ("loc", bracket.toJson),
      ("args", .array (itemsJson [] items))]

/-- Arguments as JSON, behind those that stand in `before` in reverse. -/
def argumentsJson (before : List Json) : List (Token × Expr) → List Json
  | [] => before.reverse
  | (name, value) :: rest =>
    argumentsJson (.object [("name", name.toJson), ("value", toJson value)] :: before) rest

/-- Items as JSON, behind those that stand in `before` in reverse. -/
def itemsJson (before : List Json) : List Expr → List Json
  | [] => before.reverse
  | item :: rest => itemsJson (toJson item :: before) rest

end

end Expr

end PoolGraph
