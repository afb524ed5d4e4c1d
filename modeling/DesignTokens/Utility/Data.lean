import DesignTokens.Json.Value
import DesignTokens.Utility.Token

/-!
Utility tokens as data.
-/
namespace DesignTokens.Utility

def Token.toJson (t : Token) : Json :=
  .obj [("raw", t.raw), ("utility", t.utility), ("variants", .ofStrings t.variants),
    ("important", .bool t.important), ("negative", .bool t.negative),
    ("arbitrary", .ofOption (t.arbitrary.map .str)), ("modifier", .ofOption (t.modifier.map .str)),
    ("malformed", .bool t.malformed)]

end DesignTokens.Utility
