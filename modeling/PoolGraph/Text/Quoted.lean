import PoolGraph.Text.Extending
import PoolGraph.Text.Ignorable
import PoolGraph.Text.Printable

/-!
# Quoted text

Three written forms of a text between double quotes, each given by what it writes for one
character: `literal` uses only the escapes that data files know, `json` those of JSON, and
`listing` also spells out every character that cannot be shown as itself.
-/

namespace PoolGraph.Text

/-- The text between double quotes, each character written by `escape`. -/
def quoteWith (escape : Char → List Char) (text : String) : String :=
  String.ofList ('"' :: text.toList.flatMap escape ++ ['"'])

/-- The escapes of data files: quote, backslash, line feed and tab. -/
def literalEscape : Char → List Char
  | '"' => ['\\', '"']
  | '\\' => ['\\', '\\']
  | '\n' => ['\\', 'n']
  | '\t' => ['\\', 't']
  | c => [c]

/-- The text as a string literal of a data file. -/
def literal (text : String) : String :=
  quoteWith literalEscape text

/-- The escapes of JSON, used only where JSON asks for one. -/
def jsonEscape : Char → List Char
  | '"' => ['\\', '"']
  | '\\' => ['\\', '\\']
  | '\x08' => ['\\', 'b']
  | '\x0c' => ['\\', 'f']
  | '\n' => ['\\', 'n']
  | '\r' => ['\\', 'r']
  | '\t' => ['\\', 't']
  | c =>
    if c.toNat < 0x20 then
      ['\\', 'u', '0', '0', Nat.digitChar (c.toNat / 16), Nat.digitChar (c.toNat % 16)]
    else [c]

/-- The text as a JSON string. -/
def json (text : String) : String :=
  quoteWith jsonEscape text

/-- The escapes of region listings: NUL, tab, line ends, quote and backslash have short ones,
and every other character that is drawn onto another one, leaves no mark or is not printable
is written by its code point. -/
def listingEscape : Char → List Char
  | '\x00' => ['\\', '0']
  | '\t' => ['\\', 't']
  | '\r' => ['\\', 'r']
  | '\n' => ['\\', 'n']
  | '"' => ['\\', '"']
  | '\\' => ['\\', '\\']
  | c =>
    if isAttached c || isIgnorable c || !isPrintable c then
      ['\\', 'u', '{'] ++ Nat.toDigits 16 c.toNat ++ ['}']
    else [c]

/-- The text as region listings show it. -/
def listing (text : String) : String :=
  quoteWith listingEscape text

end PoolGraph.Text
