import DesignTokens.Decimal.Reader
import DesignTokens.Json.Reader

/-!
Access to values that may not have the expected shape. Every accessor says what it found instead.
-/
namespace DesignTokens.Json

/-- The kinds of values, under the names that messages use. -/
def typeName : Json → String
  | .null => "NoneType"
  | .bool _ => "bool"
  | .num (.int _) => "int"
  | .num _ => "float"
  | .str _ => "str"
  | .arr _ => "list"
  | .obj _ => "dict"

/-- How a value fails to have the expected shape. -/
inductive Mismatch where
  /-- An object lacks a name. -/
  | missingName (name : String)
  /-- A name is looked up in what is no object. -/
  | noNames (found : String)
  /-- An object is expected. -/
  | notObject (found wanted : String)
  /-- A number, or the text of one, is expected; `reader` is the conversion that was asked for. -/
  | notNumeric (reader found : String)
  /-- A list, or what can stand for one, is expected. -/
  | notIterable (found : String)
  /-- Names are sought in what holds none. -/
  | notContainer (found : String)
  /-- A text is expected. -/
  | notText (found : String)
  /-- A path is asked for what only paths have. -/
  | notPath (found : String)
  /-- An integer has too many digits to be read. -/
  | longInteger (digits : Nat)
  /-- A text that is no float. -/
  | unreadableFloat (text : String)
  /-- A text that is no integer. -/
  | unreadableInt (text : String)
  /-- A value outside an enumeration. -/
  | notMember (value : Json) (enumeration : String)
  /-- No integer is meant by a NaN. -/
  | nanAsInt
  /-- No integer is meant by an infinity. -/
  | infinityAsInt
  /-- An integer beyond every float. -/
  | hugeInt
  deriving Repr

/-- The five families of mismatches. -/
inductive MismatchKind where
  | name
  | type
  | member
  | value
  | range
  deriving DecidableEq, Repr

def Mismatch.kind : Mismatch → MismatchKind
  | .missingName _ => .name
  | .noNames _ | .notNumeric .. | .notIterable _ | .notContainer _ | .notText _ => .type
  | .notObject .. | .notPath _ => .member
  | .unreadableFloat _ | .unreadableInt _ | .notMember .. | .nanAsInt | .longInteger _ => .value
  | .infinityAsInt | .hugeInt => .range

def Mismatch.message : Mismatch → String
  | .missingName name => Text.quote name
  | .noNames found =>
    if found == "list" then "list indices must be integers or slices, not str"
    else if found == "str" then "string indices must be integers, not 'str'"
    else "'" ++ found ++ "' object is not subscriptable"
  | .notObject found wanted => "'" ++ found ++ "' object has no attribute '" ++ wanted ++ "'"
  | .notNumeric reader found =>
    if reader == "int" then
      "int() argument must be a string, a bytes-like object or a real number, not '" ++ found ++ "'"
    else "float() argument must be a string or a real number, not '" ++ found ++ "'"
  | .notIterable found => "'" ++ found ++ "' object is not iterable"
  | .notContainer found => "argument of type '" ++ found ++ "' is not iterable"
  | .notText found => "expected string or bytes-like object, got '" ++ found ++ "'"
  | .notPath found => "'" ++ found ++ "' object has no attribute 'name'"
  | .longInteger digits => (Problem.longInteger digits).text
  | .unreadableFloat text => "could not convert string to float: " ++ Text.quote text
  | .unreadableInt text => "invalid literal for int() with base 10: " ++ Text.quote text
  | .notMember value enumeration => value.shown ++ " is not a valid " ++ enumeration
  | .nanAsInt => "cannot convert float NaN to integer"
  | .infinityAsInt => "cannot convert float infinity to integer"
  | .hugeInt => "int too large to convert to float"

/-- The value under a name that must be there. -/
def member (name : String) : Json → Except Mismatch Json
  | .obj fields => match Table.get? name fields with
    | some v => .ok v
    | none => .error (.missingName name)
  | v => .error (.noNames v.typeName)

/-- The fields of an object; `wanted` is what is asked of it. -/
def fields (wanted : String) : Json → Except Mismatch (Table Json)
  | .obj fields => .ok fields
  | v => .error (.notObject v.typeName wanted)

/-- The value under a name of an object, or a default. -/
def memberD (name : String) (v default : Json) : Except Mismatch Json := do
  let fields ← v.fields "get"
  return (Table.get? name fields).getD default

/-- The items of a list; a text stands for its characters, an object for its names. -/
def items : Json → Except Mismatch (List Json)
  | .arr items => .ok items
  | .str s => .ok (s.toList.map fun c => .str (String.singleton c))
  | .obj fields => .ok ((Table.keys fields).map .str)
  | v => .error (.notIterable v.typeName)

/-- Whether a name is found in a value: among the names of an object, the items of a list, or the
stretches of a text. -/
def mentions (name : String) : Json → Except Mismatch Bool
  | .obj fields => .ok (Table.has name fields)
  | .arr items => .ok (items.any (same (.str name)))
  | .str s => .ok ((List.range (s.length + 1)).any fun i =>
      name.toList.isPrefixOf (s.toList.drop i))
  | v => .error (.notContainer v.typeName)

/-- A text. -/
def toText : Json → Except Mismatch String
  | .str s => .ok s
  | v => .error (.notText v.typeName)

/-- A list of texts. -/
def toTexts (v : Json) : Except Mismatch (List String) := do (← v.items).mapM toText

/-- A float, the text of one, an integer or a truth value. -/
def toFloat : Json → Except Mismatch Float
  | .bool b => .ok (if b then 1 else 0)
  | .num n => match n.toFloat? with
    | some x => .ok x
    | none => .error .hugeInt
  | .str s => match Decimal.readFloat? s with
    | some x => .ok x
    | none => .error (.unreadableFloat s)
  | v => .error (.notNumeric "float" v.typeName)

/-- The integer that is left when a float's fraction is dropped. -/
def intOfFloat (x : Float) : Except Mismatch Int :=
  match Decimal.Binary.ofFloat? x with
  | some b => .ok b.truncate
  | none => .error (if x.isNaN then .nanAsInt else .infinityAsInt)

/-- An integer, the text of one, a float without its fraction or a truth value. -/
def toInt : Json → Except Mismatch Int
  | .bool b => .ok (if b then 1 else 0)
  | .num (.int n) => .ok n
  | .num (.float x) => intOfFloat x
  | .num .overflow => .error .hugeInt
  | .str s => match Decimal.readInt? s with
    | some n => .ok n
    | none => .error (.unreadableInt s)
  | v => .error (.notNumeric "int" v.typeName)

@[simp] theorem toFloat_ofFloat (x : Float) : toFloat (ofFloat x) = .ok x := rfl

@[simp] theorem toInt_ofInt (n : Int) : toInt (ofInt n) = .ok n := rfl

end DesignTokens.Json
