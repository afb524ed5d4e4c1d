import DesignTokens.Decimal.Reader
import DesignTokens.Drift.Patterns
import DesignTokens.Drift.Rule

/-!
Values embedded in source text: a number that is assigned to a name, and a map from keys to numbers
that is written out in braces. Inside a string braces do not count, and a quote after a backslash
neither opens nor closes a string.
-/
namespace DesignTokens.Drift

open Text (Pattern Place isBlank isWord isDecimal)

open Text.Pattern

/-! ### Balanced braces -/

def isStringQuote (c : Char) : Bool := c == '"' || c == '\x27' || c == '\x60'

/-- The string that is open after one more quote: a quote of another kind leaves it open. -/
def toggleQuote (c : Char) : Option Char → Option Char
  | none => some c
  | some q => if q == c then none else some q

/-- The characters up to the brace that closes the last of `depth` open ones, inside the string that
`quote` has opened; `escaped` tells whether a backslash stands before them. -/
def closing (depth : Nat) (quote : Option Char) (escaped : Bool) : List Char → Option (List Char)
  | [] => none
  | c :: cs =>
    let go (depth : Nat) (quote : Option Char) : Option (List Char) :=
      (closing depth quote (c == '\\') cs).map (c :: ·)
    if isStringQuote c && !escaped then go depth (toggleQuote c quote)
    else if quote.isSome then go depth quote
    else if c == '\x7b' then go (depth + 1) none
    else if c == '\x7d' then if depth ≤ 1 then some [c] else go (depth - 1) none
    else go depth none

/-- The block at the start of a text, from its brace to the one that closes it. -/
def block? : List Char → Option (List Char)
  | '\x7b' :: cs => (closing 1 none false cs).map ('\x7b' :: ·)
  | _ => none

@[simp] theorem closing_nil (depth : Nat) (quote : Option Char) (escaped : Bool) :
    closing depth quote escaped [] = none := rfl

@[simp] theorem block?_nil : block? [] = none := rfl

/-! ### Assignments -/

/-- A name, its type if it has one, and the sign that gives it a value. -/
def assignment (name : String) : Pattern :=
  all [.notAfter isDotted, literal name, blanks,
    optional (all [char ':', blanks, .few fun c => c != '=' && c != '\n' && c != '\x7b']), blanks,
    .one fun c => c == '=' || c == ':', blanks]

def findAssignment (text name : String) : Option (Place × Place) := (assignment name).search text

/-- The text of a number and what follows it. -/
structure NumberLiteral where
  /-- The digits before the point, and the sign. -/
  whole : List Char
  /-- The point and the digits after it. -/
  fraction : List Char
  rest : List Char
  deriving DecidableEq, Repr

namespace NumberLiteral

/-- A point with digits after it. -/
def fractionOf : List Char → List Char
  | '.' :: cs => if (cs.takeWhile isDecimal).isEmpty then [] else '.' :: cs.takeWhile isDecimal
  | _ => []

/-- The number at the start of a text, as long as possible. -/
def ofChars? (cs : List Char) : Option NumberLiteral :=
  let (sign, body) := match cs with
    | '-' :: body => (['-'], body)
    | body => ([], body)
  let digits := body.takeWhile isDecimal
  let rest := body.dropWhile isDecimal
  let fraction := fractionOf rest
  if digits.isEmpty then none else some ⟨sign ++ digits, fraction, rest.drop fraction.length⟩

/-- The value of a text of digits. -/
def read (cs : List Char) : Float := (Decimal.readFloat? (String.ofList cs)).getD 0

def value (n : NumberLiteral) : Float := read (n.whole ++ n.fraction)

/-- The value and the rest of a number that ends at a word edge; the fraction is given up where only
the whole part does. -/
def bounded? (n : NumberLiteral) : Option (Float × List Char) :=
  let ends (cs : List Char) : Bool := !cs.head?.any isWord
  if ends n.rest then some (n.value, n.rest)
  else if ends (n.fraction ++ n.rest) then some (read n.whole, n.fraction ++ n.rest)
  else none

end NumberLiteral

/-- The number that a text assigns to a name, and the line of the assignment. -/
def assignedNumber? (text name : String) : Option (Float × Nat) := do
  let (start, stop) ← findAssignment text name
  let n ← NumberLiteral.ofChars? stop.rest
  return (n.value, lineOf text start.offset)

def isKeyChar (c : Char) : Bool := isWord c || c == '.' || c == '-'

/-- Drops a quote, if there is one. -/
def dropQuote : List Char → List Char
  | c :: cs => if isQuote c then cs else c :: cs
  | [] => []

/-- A key, its number and what follows. The key may stand in quotes. -/
def entryAt? (cs : List Char) : Option (String × Float × List Char) :=
  let cs := dropQuote cs
  let key := cs.takeWhile isKeyChar
  if key.isEmpty then none
  else match (dropQuote (cs.dropWhile isKeyChar)).dropWhile isBlank with
    | ':' :: cs => do
      let n ← NumberLiteral.ofChars? (cs.dropWhile isBlank)
      let (value, rest) ← n.bounded?
      return (String.ofList key, value, rest)
    | _ => none

/-- The entries of a text from left to right, after `skip` characters that belong to the last one. -/
def entriesFrom : Nat → List Char → List (String × Float)
  | _, [] => []
  | skip + 1, _ :: cs => entriesFrom skip cs
  | 0, c :: cs => match entryAt? (c :: cs) with
    | some (key, value, rest) => (key, value) :: entriesFrom (cs.length - rest.length) cs
    | none => entriesFrom 0 cs

/-- The entries of a block; of entries with one key the last one counts. -/
def entriesOf (block : List Char) : Table Float :=
  Table.ofPairs (entriesFrom 0 (block.drop 1).dropLast)

/-- The map that a text assigns to a name, and the line of the assignment. -/
def assignedMap? (text name : String) : Option (Table Float × Nat) := do
  let (start, stop) ← findAssignment text name
  let block ← block? stop.rest
  return (entriesOf block, lineOf text start.offset)

end DesignTokens.Drift
