import DesignTokens.Table
import DesignTokens.Text.Classes
import DesignTokens.Text.Words

/-!
Custom properties of a style sheet. A declaration `--name: value;` counts wherever it stands, in
any block; comments are removed first, and the last declaration of a name wins.
-/
namespace DesignTokens.Css

open Text

/-- The text after the first end of a comment. -/
def afterComment? : (cs : List Char) → Option { rest : List Char // rest.length < cs.length }
  | '*' :: '/' :: cs => some ⟨cs, by simp only [List.length_cons]; omega⟩
  | _ :: cs => (afterComment? cs).map fun r => ⟨r.1, Nat.lt_succ_of_lt r.2⟩
  | [] => none

/-- Removes comments; the start of a comment that has no end is text. -/
def removeComments : List Char → List Char
  | '/' :: '*' :: cs =>
    match afterComment? cs with
    | some rest => removeComments rest
    | none => '/' :: '*' :: cs
  | c :: cs => c :: removeComments cs
  | [] => []
termination_by cs => cs.length
decreasing_by
  · have := rest.2
    simp only [List.length_cons]
    omega
  · simp

/-- A character of a property's name. -/
def isNameChar (c : Char) : Bool := isWord c || c == '-'

/-- A character that a value may hold. -/
def isValueChar (c : Char) : Bool := !(c == ';' || c == '\x7b' || c == '\x7d')

/-- A declaration and what follows it. The name is two hyphens and at least one more character;
the value is not empty before its white space is collapsed. -/
def declaration? (cs : List Char) : Option ((String × String) × List Char) :=
  let name := cs.takeWhile isNameChar
  match name, (cs.dropWhile isNameChar).dropWhile isBlank with
  | '-' :: '-' :: _ :: _, ':' :: rest =>
    let value := rest.takeWhile isValueChar
    match value, rest.dropWhile isValueChar with
    | _ :: _, ';' :: rest =>
      some ((String.ofList name, collapse (String.ofList value)), rest)
    | _, _ => none
  | _, _ => none

/-- The declarations of a text without comments. One that starts inside a name does not count;
`inName` tells whether the character before was part of a name. -/
def declarations (inName : Bool) : List Char → List (String × String)
  | [] => []
  | c :: cs =>
    match (if inName then none else declaration? (c :: cs)) with
    | some (d, rest) =>
      if rest.length ≤ cs.length then d :: declarations false rest
      else declarations (isNameChar c) cs
    | none => declarations (isNameChar c) cs
termination_by cs => cs.length
decreasing_by all_goals simp only [List.length_cons]; omega

/-- The custom properties of a style sheet in the order of their first declarations. -/
def customProperties (css : String) : Table String :=
  Table.ofPairs (declarations false (removeComments css.toList))

end DesignTokens.Css
