import DesignTokens.Text.Classes

/-!
Patterns: small descriptions of stretches of text, and the search for the first stretch that fits.
Of several ways to fit, the one counts whose first choice comes first: the left alternative before
the right one, a longer repetition before a shorter one unless the pattern prefers few.
-/
namespace DesignTokens.Text

/-- A place in a text. -/
structure Place where
  offset : Nat
  before : Option Char
  rest : List Char
  deriving DecidableEq, Repr

/-- The place after the next character, which is `c`. -/
def Place.next (p : Place) (c : Char) (rest : List Char) : Place := ⟨p.offset + 1, some c, rest⟩

def Place.start (cs : List Char) : Place := ⟨0, none, cs⟩

/-- A description of stretches of text. -/
inductive Pattern where
  | empty
  | one (test : Char → Bool)
  | seq (p q : Pattern)
  | alt (p q : Pattern)
  /-- As many characters as possible. -/
  | many (test : Char → Bool)
  /-- As few characters as possible. -/
  | few (test : Char → Bool)
  | notAfter (test : Char → Bool)
  | notBefore (test : Char → Bool)
  | notAhead (p : Pattern)
  | lineStart
  /-- One of the characters on the two sides belongs to a word and the other does not. -/
  | wordEdge

/-- Tries `k` after each number of characters, the greatest first. -/
def takeMany (test : Char → Bool) (k : Place → Option Place) (offset : Nat) (before : Option Char) :
    List Char → Option Place
  | [] => k ⟨offset, before, []⟩
  | c :: cs =>
    if test c then
      match takeMany test k (offset + 1) (some c) cs with
      | some r => some r
      | none => k ⟨offset, before, c :: cs⟩
    else k ⟨offset, before, c :: cs⟩

/-- Tries `k` after each number of characters, the least first. -/
def takeFew (test : Char → Bool) (k : Place → Option Place) (offset : Nat) (before : Option Char) :
    List Char → Option Place
  | [] => k ⟨offset, before, []⟩
  | c :: cs =>
    match k ⟨offset, before, c :: cs⟩ with
    | some r => some r
    | none => if test c then takeFew test k (offset + 1) (some c) cs else none

/-- Whether a character is there and satisfies `test`. -/
def holds (test : Char → Bool) : Option Char → Bool
  | some c => test c
  | none => false

namespace Pattern

/-- Fits the pattern from a place on, and then `k`. -/
def run : Pattern → (Place → Option Place) → Place → Option Place
  | .empty, k, p => k p
  | .one test, k, p => match p.rest with
    | c :: cs => if test c then k (p.next c cs) else none
    | [] => none
  | .seq a b, k, p => a.run (b.run k) p
  | .alt a b, k, p => match a.run k p with
    | some r => some r
    | none => b.run k p
  | .many test, k, p => takeMany test k p.offset p.before p.rest
  | .few test, k, p => takeFew test k p.offset p.before p.rest
  | .notAfter test, k, p => if holds test p.before then none else k p
  | .notBefore test, k, p => if holds test p.rest.head? then none else k p
  | .notAhead a, k, p => if (a.run some p).isSome then none else k p
  | .lineStart, k, p => if p.before.all (· == '\n') then k p else none
  | .wordEdge, k, p => if holds isWord p.before == holds isWord p.rest.head? then none else k p

/-- The end of the stretch that starts at a place. -/
def endAt? (a : Pattern) (p : Place) : Option Place := a.run some p

/-- The places around the first stretch that fits. -/
def searchFrom (a : Pattern) (offset : Nat) (before : Option Char) :
    List Char → Option (Place × Place)
  | [] => (a.endAt? ⟨offset, before, []⟩).map fun e => (⟨offset, before, []⟩, e)
  | c :: cs => match a.endAt? ⟨offset, before, c :: cs⟩ with
    | some e => some (⟨offset, before, c :: cs⟩, e)
    | none => searchFrom a (offset + 1) (some c) cs

def search (a : Pattern) (text : String) : Option (Place × Place) :=
  a.searchFrom 0 none text.toList

/-- Whether a stretch of a text fits. -/
def found (a : Pattern) (text : String) : Bool := (a.search text).isSome

/-- One pattern after the other. -/
def all : List Pattern → Pattern
  | [] => .empty
  | [p] => p
  | p :: ps => .seq p (all ps)

/-- The first of several patterns that fits; where there is none to choose, nothing is asked for. -/
def any : List Pattern → Pattern
  | [] => .empty
  | [p] => p
  | p :: ps => .alt p (any ps)

def char (c : Char) : Pattern := .one (· == c)

/-- A text as it is. -/
def literal (s : String) : Pattern := all (s.toList.map char)

/-- One of several texts, each as it is. -/
def oneOf (names : List String) : Pattern := any (names.map literal)

/-- The pattern, if it fits. -/
def optional (p : Pattern) : Pattern := .alt p .empty

/-- One character or more. -/
def some' (test : Char → Bool) : Pattern := .seq (.one test) (.many test)

def blanks : Pattern := .many isBlank

def someBlanks : Pattern := some' isBlank

end Pattern

end DesignTokens.Text
