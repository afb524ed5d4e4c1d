import DesignTokens.Text.Classes

/-!
Words of a text: the maximal runs without white space.
-/
namespace DesignTokens.Text

/-- The words of `cs`, where `run` holds the characters of an unfinished word, last one first. -/
def wordsFrom (run : List Char) : List Char → List (List Char)
  | [] => if run.isEmpty then [] else [run.reverse]
  | c :: cs =>
    if isBlank c then
      if run.isEmpty then wordsFrom [] cs else run.reverse :: wordsFrom [] cs
    else wordsFrom (c :: run) cs

/-- The maximal runs without white space, in order. -/
def words (s : String) : List String :=
  (wordsFrom [] s.toList).map String.ofList

/-- The text with each stretch of white space between words made one space. -/
def collapse (s : String) : String :=
  String.intercalate " " (words s)

/-- Without the white space at either end. -/
def trimChars (cs : List Char) : List Char :=
  ((cs.dropWhile isBlank).reverse.dropWhile isBlank).reverse

def trim (s : String) : String :=
  String.ofList (trimChars s.toList)

/-- The text up to the first `sep`, then what lies between two of them, and so on to the end. -/
def splitAtChar (sep : Char) : List Char → List (List Char)
  | [] => [[]]
  | c :: cs =>
    if c == sep then [] :: splitAtChar sep cs
    else match splitAtChar sep cs with
      | [] => [[c]]
      | part :: parts => (c :: part) :: parts

theorem splitAtChar_ne_nil (sep : Char) (cs : List Char) : splitAtChar sep cs ≠ [] := by
  cases cs with
  | nil => simp [splitAtChar]
  | cons c cs =>
    simp only [splitAtChar]
    split
    · simp
    · split <;> simp

def splitOn (s : String) (sep : Char) : List String :=
  (splitAtChar sep s.toList).map String.ofList

/-- Whether `s` starts with `lead`. -/
def startsWith (s lead : String) : Bool :=
  lead.toList.isPrefixOf s.toList

/-- What follows `lead` at the start of `s`. -/
def after? (lead s : String) : Option String :=
  if startsWith s lead then some (String.ofList (s.toList.drop lead.toList.length)) else none

end DesignTokens.Text
