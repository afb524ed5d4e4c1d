import DesignTokens.Decimal.Reader
import DesignTokens.Json.Value

/-!
Writing JSON text: members on lines of their own, indented by two spaces a level, and every
character beyond printable ASCII as an escape. Integers that are too long to be read are too long to
be written.
-/
namespace DesignTokens.Json

/-- A code unit as an escape. -/
def escapeUnit (n : Nat) : List Char := '\\' :: 'u' :: Text.hex 4 n

/-- One character of a string; beyond the first plane it takes two escapes. -/
def escapeChar (c : Char) : List Char :=
  let n := c.toNat
  if c == '"' then ['\\', '"']
  else if c == '\\' then ['\\', '\\']
  else if c == '\n' then ['\\', 'n']
  else if c == '\r' then ['\\', 'r']
  else if c == '\t' then ['\\', 't']
  else if n == 8 then ['\\', 'b']
  else if n == 12 then ['\\', 'f']
  else if 32 ≤ n && n < 127 then [c]
  else if n < 0x10000 then escapeUnit n
  else escapeUnit (0xD800 + (n - 0x10000) / 0x400) ++ escapeUnit (0xDC00 + (n - 0x10000) % 0x400)

def stringText (s : String) : String :=
  String.ofList ('"' :: s.toList.flatMap escapeChar ++ ['"'])

def numberText : Number → String
  | .float x =>
    if x.isNaN then "NaN"
    else if Decimal.isFinite x then Decimal.floatText x
    else if x < 0 then "-Infinity" else "Infinity"
  | n => n.text

def indentation (level : Nat) : String := String.ofList (List.replicate (2 * level) ' ')

/-- Lines between brackets, one level further in. -/
def block (opening closing : String) (level : Nat) (lines : List String) : String :=
  if lines.isEmpty then opening ++ closing
  else
    let separator := ",\n" ++ indentation (level + 1)
    opening ++ "\n" ++ indentation (level + 1) ++ String.intercalate separator lines ++ "\n" ++
      indentation level ++ closing

mutual

/-- A value whose first line stands at `level`. -/
def prettyAt (level : Nat) : Json → String
  | .null => "null"
  | .bool b => if b then "true" else "false"
  | .num n => numberText n
  | .str s => stringText s
  | .arr items => block "[" "]" level (prettyItems (level + 1) items)
  | .obj fields => block "\x7b" "\x7d" level (prettyFields (level + 1) fields)

def prettyItems (level : Nat) : List Json → List String
  | [] => []
  | x :: xs => prettyAt level x :: prettyItems level xs

def prettyFields (level : Nat) : Table Json → List String
  | [] => []
  | (k, x) :: fs => (stringText k ++ ": " ++ prettyAt level x) :: prettyFields level fs

end

/-- The text of a value, without a final line break. -/
def pretty (v : Json) : String := prettyAt 0 v

mutual

/-- The number of digits of the first integer in a value that is too long to be written. -/
def overlong? : Json → Option Nat
  | .num (.int n) =>
    let digits := (toString n.natAbs).length
    if Decimal.integerDigitLimit < digits then some digits else none
  | .arr items => overlongItem? items
  | .obj fields => overlongField? fields
  | .null | .bool _ | .num _ | .str _ => none

def overlongItem? : List Json → Option Nat
  | [] => none
  | x :: xs => (overlong? x).or (overlongItem? xs)

def overlongField? : Table Json → Option Nat
  | [] => none
  | (_, x) :: fs => (overlong? x).or (overlongField? fs)

end

mutual

/-- A value on one line. -/
def compact : Json → String
  | .arr items => "[" ++ String.intercalate ", " (compactItems items) ++ "]"
  | .obj fields => "\x7b" ++ String.intercalate ", " (compactFields fields) ++ "\x7d"
  | v => prettyAt 0 v

def compactItems : List Json → List String
  | [] => []
  | x :: xs => compact x :: compactItems xs

def compactFields : Table Json → List String
  | [] => []
  | (k, x) :: fs => (stringText k ++ ": " ++ compact x) :: compactFields fs

end

end DesignTokens.Json
