import DesignTokens.Text.Case
import DesignTokens.Text.Words

/-!
Names in two spellings: words joined by underscores, and words run together with capitals.
-/
namespace DesignTokens.Text

/-- The first word as it is, each further one in title case. -/
def camelCase (name : String) : String :=
  match splitOn name '_' with
  | [] => ""
  | first :: rest => first ++ String.join (rest.map title)

/-- An underscore before each ASCII capital but one that stands first. -/
def markCapitals : List Char → List Char
  | [] => []
  | c :: cs => c :: cs.flatMap fun d => if 'A' ≤ d && d ≤ 'Z' then ['_', d] else [d]

/-- Capitals become an underscore and a small letter. -/
def snakeCase (name : String) : String :=
  lower (String.ofList (markCapitals name.toList))

end DesignTokens.Text
