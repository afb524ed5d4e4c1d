import DesignTokens.Text.Pattern
import DesignTokens.Text.Words

/-!
Patterns of source text: the declaration of a name, the use of a name, and the import of names from
a module, in both of the languages that generators are written in.
-/
namespace DesignTokens.Drift

open Text

open Text.Pattern

def isQuote (c : Char) : Bool := c == '"' || c == '\x27'

def isDotted (c : Char) : Bool := isWord c || c == '.'

/-- A constant or variable that a line declares. -/
def declaration (name : String) : Pattern :=
  all [.lineStart, .many fun c => c == ' ' || c == '\t',
    optional (all [literal "export", someBlanks]),
    optional (all [oneOf ["var", "const", "let"], someBlanks]), literal name, blanks,
    optional (all [char ':', .many fun c => c != '=' && c != '\n']), char '=',
    .notAhead (char '=')]

/-- A name on its own: no attribute, and not in quotes. -/
def usage (names : List String) : Pattern :=
  all [.notAfter fun c => isWord c || isQuote c || c == '.', oneOf names,
    .notBefore fun c => isWord c || isQuote c]

/-- A name between word edges. -/
def wholeWord (names : List String) : Pattern := all [.wordEdge, oneOf names, .wordEdge]

/-- The last component of a dotted module name. -/
def leafOf (module : String) : String := ((splitOn module '.').getLast?).getD ""

/-- The module by its full name, or by dots and its last component. -/
def moduleReference (module : String) : Pattern :=
  .alt (literal module)
    (all [some' (· == '.'), optional (all [some' isDotted, char '.']), literal (leafOf module)])

/-- The start of a list of names, in parentheses or on the line. -/
def listStart : Pattern :=
  .alt (all [char '(', .few (· != ')')]) (.few fun c => c != '\n' && c != '(')

/-- `from module import names` -/
def fromImport (names : List String) (module : String) : Pattern :=
  all [literal "from", someBlanks, moduleReference module, someBlanks, literal "import", someBlanks,
    listStart, wholeWord names]

/-- Names in braces, imported from a quoted path that ends in the module's last component. -/
def bracedImport (names : List String) (module : String) : Pattern :=
  all [literal "import", blanks, optional (all [literal "type", someBlanks]), char '\x7b',
    .many (· != '\x7d'), wholeWord names, .many (· != '\x7d'), char '\x7d', blanks,
    literal "from", blanks, .one isQuote, .many fun c => !isQuote c, .wordEdge,
    literal (leafOf module), .one isQuote]

/-- An import of any of the names from a module. -/
def importOf (names : List String) (module : String) : Pattern :=
  .alt (fromImport names module) (bracedImport names module)

end DesignTokens.Drift
