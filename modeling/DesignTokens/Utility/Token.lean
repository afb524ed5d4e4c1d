import DesignTokens.Text.Words

/-!
Utility tokens. A class string is a list of words; a word is taken apart into variants, the mark of
importance, a sign, the utility, a bracketed value and a modifier:
`hover:!-mt-[3px]/50`. Separators inside brackets do not count.
-/
namespace DesignTokens.Utility

/-- The depth of brackets after a character; a stray closing one does not count. -/
def bracketDepth (depth : Nat) (c : Char) : Nat :=
  if c == '[' then depth + 1 else if c == ']' then depth - 1 else depth

/-- The parts of a text, where `part` holds the characters of the current one, last one first. -/
def splitFrom (sep : Char) (depth : Nat) (part : List Char) : List Char → List (List Char)
  | [] => [part.reverse]
  | c :: cs =>
    let depth := bracketDepth depth c
    if c == sep && depth == 0 then part.reverse :: splitFrom sep depth [] cs
    else splitFrom sep depth (c :: part) cs

/-- Splits at the separators that stand outside brackets. -/
def splitOutside (sep : Char) (cs : List Char) : List (List Char) :=
  splitFrom sep 0 [] cs

theorem splitFrom_ne_nil (sep : Char) (depth : Nat) (part cs : List Char) :
    splitFrom sep depth part cs ≠ [] := by
  induction cs generalizing depth part with
  | nil => simp [splitFrom]
  | cons c cs ih =>
    simp only [splitFrom]
    split
    · simp
    · exact ih _ _

/-- The parts of a text that its separators join again. -/
def joinParts (sep : Char) : List (List Char) → List Char
  | [] => []
  | [p] => p
  | p :: ps => p ++ sep :: joinParts sep ps

/-- One word of a class string. -/
structure Token where
  raw : String
  utility : String
  variants : List String
  important : Bool
  negative : Bool
  arbitrary : Option String
  modifier : Option String
  malformed : Bool
  deriving DecidableEq, Repr

/-- Takes off the mark of importance, which may stand on either side. -/
def takeImportant (cs : List Char) : Bool × List Char :=
  match cs with
  | '!' :: rest => (true, rest)
  | _ => match cs.reverse with
    | '!' :: rest => (true, rest.reverse)
    | _ => (false, cs)

def takeNegative : List Char → Bool × List Char
  | '-' :: rest => (true, rest)
  | cs => (false, cs)

/-- The last part after a slash is the modifier. -/
def takeModifier (cs : List Char) : List Char × Option (List Char) :=
  match (splitOutside '/' cs).reverse with
  | m :: p :: ps => (joinParts '/' (p :: ps).reverse, some m)
  | _ => (cs, none)

/-- The offset of the first `-[`. -/
def openingOffset? (offset : Nat) : List Char → Option Nat
  | '-' :: '[' :: _ => some offset
  | _ :: cs => openingOffset? (offset + 1) cs
  | [] => none

/-- How the brackets of a word are used. -/
inductive Brackets where
  | absent
  | value (utility content : List Char)
  | misplaced
  deriving DecidableEq, Repr

/-- A bracketed value ends the word, follows a name and a hyphen, and holds no opening bracket. -/
def takeBrackets (cs : List Char) : Brackets :=
  if !cs.contains '[' && !cs.contains ']' then .absent
  else match openingOffset? 0 cs with
    | some (k + 1) =>
      if cs.getLast? == some ']' && cs.count '[' == 1 then
        .value (cs.take (k + 1)) ((cs.drop (k + 3)).dropLast)
      else .misplaced
    | _ => .misplaced

/-- Takes a word apart; what does not fit the form is kept and marked as malformed. -/
def Token.ofChars (raw : List Char) : Token :=
  let parts := splitOutside ':' raw
  let variants := parts.dropLast
  let (important, base) := takeImportant (parts.getLast?.getD [])
  let (negative, base) := takeNegative base
  let (base, modifier) := takeModifier base
  let (utility, arbitrary, misplaced) := match takeBrackets base with
    | .absent => (base, none, false)
    | .value utility content => (utility, some content, content.isEmpty)
    | .misplaced => (base, none, true)
  { raw := String.ofList raw
    utility := String.ofList utility
    variants := variants.map String.ofList
    important
    negative
    arbitrary := arbitrary.map String.ofList
    modifier := modifier.map String.ofList
    malformed := misplaced || utility.isEmpty || variants.any (·.isEmpty) }

def Token.ofString (raw : String) : Token := Token.ofChars raw.toList

/-- The tokens of a class string, left to right. -/
def tokens (classes : String) : List Token :=
  (Text.words classes).map Token.ofString

end DesignTokens.Utility
