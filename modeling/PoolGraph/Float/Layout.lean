import PoolGraph.Float.Shortest

/-!
# Written forms of numbers

A `NumberLayout` holds the choices of one written form of a double-precision number, and
`NumberLayout.render` writes the shortest digits of a finite number by it.
`NumberLayout.listing` is the form in region listings, `NumberLayout.json` the form in JSON
texts; `Binary64.text` is the listing form extended to every number.
-/

namespace PoolGraph

/-- The choices of a written form: the decimal exponents that are written positionally, the
sign of an exponent that is not negative, and the side that a tie between digits takes. -/
structure NumberLayout where
  lowest : Int
  highest : Int
  plus : String
  tie : Tie

namespace NumberLayout

/-- Positional from 1e-4 to below 1e16. -/
def listing : NumberLayout := ⟨-4, 15, "", .up⟩

/-- Positional from 1e-5 to below 1e16, and exponents always signed. -/
def json : NumberLayout := ⟨-5, 15, "+", .even⟩

/-- The digits `d₀d₁d₂…` of `d₀.d₁d₂… * 10 ^ exponent` with a point and at least one decimal. -/
def positional (digits : List Char) (exponent : Int) : List Char :=
  if exponent < 0 then
    ['0', '.'] ++ List.replicate (-exponent - 1).toNat '0' ++ digits
  else
    let whole := exponent.toNat + 1
    let decimals := digits.drop whole
    (digits ++ List.replicate (whole - digits.length) '0').take whole ++ ['.'] ++
      (if decimals.isEmpty then ['0'] else decimals)

/-- The digits `d₀d₁d₂…` as `d₀.d₁d₂…`, with no point after a single digit, and an exponent. -/
def scientific (L : NumberLayout) (digits : List Char) (exponent : Int) : List Char :=
  let sign := if exponent < 0 then "-" else L.plus
  let decimals := digits.drop 1
  digits.take 1 ++ (if decimals.isEmpty then [] else '.' :: decimals) ++
    ['e'] ++ sign.toList ++ (toString exponent.natAbs).toList

/-- A positive finite magnitude in this form. -/
def magnitude (L : NumberLayout) (pattern : Nat) : List Char :=
  let decimal := Binary64.shortest L.tie pattern
  let all := (toString decimal.digits).toList
  let exponent := decimal.exponent + (all.length - 1 : Nat)
  let digits := (all.reverse.dropWhile (· == '0')).reverse
  if L.lowest ≤ exponent && exponent ≤ L.highest then positional digits exponent
  else L.scientific digits exponent

/-- A finite number in this form. -/
def render (L : NumberLayout) (x : Binary64) : String :=
  let sign := if x.isNegative then "-" else ""
  if x.magnitude = 0 then sign ++ "0.0"
  else sign ++ String.ofList (L.magnitude x.magnitude)

end NumberLayout

/-- A number as region listings show it. -/
def Binary64.text (x : Binary64) : String :=
  if x.isNaN then "NaN"
  else if x.isInfinite then (if x.isNegative then "-inf" else "inf")
  else NumberLayout.listing.render x

end PoolGraph
