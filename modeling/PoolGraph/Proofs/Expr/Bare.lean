import PoolGraph.Expr.Printer
import PoolGraph.Proofs.Expr.Grammar

/-!
# Trees without places

`Expr.bare` forgets where the tokens of an expression stand and how its strings are spelled.
Neither the depth of an expression nor its layout depends on what is forgotten.
-/

namespace PoolGraph

/-- A token without its place. -/
def Token.bare (token : Token) : Token :=
  ⟨default, token.text⟩

namespace Expr

mutual

/-- An expression without the places of its tokens and the spelling of its strings. -/
def bare : Expr → Expr
  | .integer raw => .integer raw.bare
  | .string _ value => .string default value
  | .bool _ value => .bool default value
  | .struct type? _ arguments => .struct (type?.map Token.bare) default (bareArguments arguments)
  | .list _ items => .list default (bareItems items)

/-- Arguments without places. -/
def bareArguments : List (Token × Expr) → List (Token × Expr)
  | [] => []
  | (name, value) :: rest => (name.bare, bare value) :: bareArguments rest

/-- Items without places. -/
def bareItems : List Expr → List Expr
  | [] => []
  | item :: rest => bare item :: bareItems rest

end

/-- An argument without its place. -/
def bareArgument (argument : Token × Expr) : Token × Expr :=
  (argument.1.bare, argument.2.bare)

/-- Arguments are made bare one by one. -/
theorem bareArguments_eq_map (arguments : List (Token × Expr)) :
  bareArguments arguments = arguments.map bareArgument
  := by
  induction arguments with
  | nil => rfl
  | cons argument rest ih => rw [bareArguments, ih, List.map_cons, bareArgument]

/-- Items are made bare one by one. -/
theorem bareItems_eq_map (items : List Expr) :
  bareItems items = items.map bare
  := by
  induction items with
  | nil => rfl
  | cons item rest ih => rw [bareItems, ih, List.map_cons]

mutual

/-- A bare tree is as deep as the tree. -/
theorem depth_bare (e : Expr) :
  e.bare.depth = e.depth
  := by
  cases e with
  | struct type? brace arguments => rw [bare, depth, depth, argumentsDepth_bareArguments]
  | list bracket items => rw [bare, depth, depth, itemsDepth_bareItems]
  | _ => rfl

theorem argumentsDepth_bareArguments (arguments : List (Token × Expr)) :
  argumentsDepth (bareArguments arguments) = argumentsDepth arguments
  := by
  cases arguments with
  | nil => rfl
  | cons argument rest =>
    obtain ⟨name, value⟩ := argument
    rw [bareArguments, argumentsDepth, argumentsDepth, depth_bare, argumentsDepth_bareArguments]

theorem itemsDepth_bareItems (items : List Expr) :
  itemsDepth (bareItems items) = itemsDepth items
  := by
  cases items with
  | nil => rfl
  | cons item rest =>
    rw [bareItems, itemsDepth, itemsDepth, depth_bare, itemsDepth_bareItems]

end

/-! ### The printer does not look at places -/

mutual

/-- A bare tree fits on one line when the tree does. -/
theorem fitsOnLine_bare (e : Expr) :
  e.bare.fitsOnLine = e.fitsOnLine
  := by
  cases e with
  | struct type? brace arguments =>
    rw [bare, fitsOnLine, fitsOnLine, argumentsFitOnLine_bareArguments, bareArguments_eq_map,
      List.length_map]
  | list bracket items =>
    rw [bare, fitsOnLine, fitsOnLine, itemsFitOnLine_bareItems, bareItems_eq_map, List.length_map]
  | _ => rfl

theorem argumentsFitOnLine_bareArguments (arguments : List (Token × Expr)) :
  argumentsFitOnLine (bareArguments arguments) = argumentsFitOnLine arguments
  := by
  cases arguments with
  | nil => rfl
  | cons argument rest =>
    obtain ⟨name, value⟩ := argument
    rw [bareArguments, argumentsFitOnLine, argumentsFitOnLine, fitsOnLine_bare,
      argumentsFitOnLine_bareArguments]

theorem itemsFitOnLine_bareItems (items : List Expr) :
  itemsFitOnLine (bareItems items) = itemsFitOnLine items
  := by
  cases items with
  | nil => rfl
  | cons item rest =>
    rw [bareItems, itemsFitOnLine, itemsFitOnLine, fitsOnLine_bare, itemsFitOnLine_bareItems]

end

mutual

/-- A bare tree is printed like the tree. -/
theorem append_bare (level : Nat) (out : String) (e : Expr) :
  append level out e.bare = append level out e
  := by
  cases e with
  | struct type? brace arguments =>
    have name : (type?.map Token.bare).map Token.text = type?.map Token.text := by
      cases type? <;> rfl
    have fits := fitsOnLine_bare (.struct type? brace arguments)
    rw [bare] at fits
    rw [bare, append, append, fits, name]
    split
    · rw [appendArgumentsOnLine_bareArguments]
    · rw [appendArguments_bareArguments]
  | list bracket items =>
    have fits := fitsOnLine_bare (.list bracket items)
    rw [bare] at fits
    rw [bare, append, append, fits]
    split
    · rw [appendItemsOnLine_bareItems]
    · rw [appendItems_bareItems]
  | _ => rfl

theorem appendArgumentsOnLine_bareArguments (level : Nat) (separator out : String)
    (arguments : List (Token × Expr)) :
  appendArgumentsOnLine level separator out (bareArguments arguments)
    = appendArgumentsOnLine level separator out arguments
  := by
  cases arguments with
  | nil => rfl
  | cons argument rest =>
    obtain ⟨name, value⟩ := argument
    rw [bareArguments, appendArgumentsOnLine, appendArgumentsOnLine, append_bare,
      appendArgumentsOnLine_bareArguments, Token.bare]

theorem appendArguments_bareArguments (level : Nat) (out : String)
    (arguments : List (Token × Expr)) :
  appendArguments level out (bareArguments arguments) = appendArguments level out arguments
  := by
  cases arguments with
  | nil => rfl
  | cons argument rest =>
    obtain ⟨name, value⟩ := argument
    rw [bareArguments, appendArguments, appendArguments, append_bare,
      appendArguments_bareArguments, Token.bare]

theorem appendItemsOnLine_bareItems (level : Nat) (separator out : String) (items : List Expr) :
  appendItemsOnLine level separator out (bareItems items)
    = appendItemsOnLine level separator out items
  := by
  cases items with
  | nil => rfl
  | cons item rest =>
    rw [bareItems, appendItemsOnLine, appendItemsOnLine, append_bare,
      appendItemsOnLine_bareItems]

theorem appendItems_bareItems (level : Nat) (out : String) (items : List Expr) :
  appendItems level out (bareItems items) = appendItems level out items
  := by
  cases items with
  | nil => rfl
  | cons item rest =>
    rw [bareItems, appendItems, appendItems, append_bare, appendItems_bareItems]

end

/-- Trees that differ in places alone are written alike. -/
theorem text_eq_of_bare_eq {e e' : Expr} (h : e.bare = e'.bare) :
  e.text = e'.text
  := by
  rw [text, text, ← append_bare, h, append_bare]

end Expr

end PoolGraph
