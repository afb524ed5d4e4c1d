import DesignTokens.Decimal.Binary
import DesignTokens.Registry.Checked
import DesignTokens.Text.Order

/-!
Registry entries: the declared form of components, sub-components and props. A prop that declares
values is a variant axis, and all its parts must fit each other.
-/
namespace DesignTokens.Registry

namespace Checked

variable {α : Type}

def text : Json → Checked String
  | .str s => pure s
  | _ => fail .notText

def object : Json → Checked (Table Json)
  | .obj fields => pure fields
  | _ => fail .notObject

/-- Numbered items of a list. -/
def listOf (check : Json → Checked α) : Json → Checked (List α)
  | .arr items => each (fun (i, v) => (check v).under (toString i)) (items.zipIdx.map fun (v, i) => (i, v))
  | _ => fail .notList

/-- Named values of an object. -/
def tableOf (check : Json → Checked α) (v : Json) : Checked (Table α) :=
  match v with
  | .obj fields => each (fun (k, x) => (Prod.mk k) <$> (check x).under k) fields
  | _ => fail .notObject

/-- A value of an axis; one that is none is no truth value, no integer, no number and no text. -/
def axisValue (v : Json) : Checked AxisValue :=
  match AxisValue.ofJson? v with
  | some a => pure a
  | none => .invalid ⟨["bool"], .notBoolean⟩
      [⟨["int"], .notInteger⟩, ⟨["float"], .notNumber⟩, ⟨["str"], .notText⟩]

def trueWords : List String := ["1", "on", "t", "true", "y", "yes"]

def falseWords : List String := ["0", "off", "f", "false", "n", "no"]

def asciiLower (s : String) : String := s.map Char.toLower

/-- A truth value, a word for one, or zero or one. -/
def flag : Json → Checked Bool
  | .bool b => pure b
  | .str s =>
    if trueWords.contains (asciiLower s) then pure true
    else if falseWords.contains (asciiLower s) then pure false
    else fail .unreadableBoolean
  | .num (.int n) => ofInteger n
  | .num (.float x) => match Decimal.Binary.ofFloat? x with
    | some b => if b.isWhole then ofInteger b.truncate else fail .notBoolean
    | none => fail .notBoolean
  | _ => fail .notBoolean
where
  /-- An integer of more than 64 bits is not even taken for one. -/
  ofInteger (n : Int) : Checked Bool :=
    if n = 1 then pure true
    else if n = 0 then pure false
    else if n.natAbs < Nat.pow 2 63 then fail .unreadableBoolean
    else fail .notBoolean

/-- A field that must be there. -/
def required (name : String) (check : Json → Checked α) (fields : Table Json) : Checked α :=
  under name (match Table.get? name fields with
    | some v => check v
    | none => fail .missing)

/-- A field that has a default. -/
def defaulted (name : String) (default : α) (check : Json → Checked α) (fields : Table Json) :
    Checked α :=
  match Table.get? name fields with
  | some v => under name (check v)
  | none => pure default

/-- A field that may be absent or null, under the first of several names that is there. -/
def nullable (names : List String) (check : Json → Checked α) (fields : Table Json) :
    Checked (Option α) :=
  match names.findSome? fun name => (Table.get? name fields).map fun v => (name, v) with
  | none | some (_, .null) => pure none
  | some (name, v) => under name (some <$> check v)

end Checked

open Checked

structure PropEntry where
  type : Option String
  values : Option (List AxisValue)
  classes : Option (Table String)
  descriptions : Option (Table String)
  default : Option AxisValue
  description : Option String
  isOptional : Bool
  extras : Table Json
  deriving Repr

namespace PropEntry

def fieldNames : List String :=
  ["type", "values", "classes", "descriptions", "default", "description", "optional"]

/-- A table of an axis must name its keys and no others. -/
def tableFault? (keys : List String) (table : AxisTable) (entries : Option (Table String)) :
    Option AxisFault :=
  let names := Table.keys (entries.getD [])
  let lacking := keys.filter fun k => !names.contains k
  let superfluous := Text.sortedDistinct (names.filter fun n => !keys.contains n)
  if !lacking.isEmpty then some (.lacking table lacking)
  else if !superfluous.isEmpty then some (.superfluous table superfluous)
  else none

/-- The first fault of a prop that declares `values`. -/
def axisFault? (p : PropEntry) (values : List AxisValue) : Option AxisFault :=
  let keys := values.map AxisValue.key
  if values.isEmpty then some .noValues
  else if !(Text.repeated keys).isEmpty then some (.repeatedKeys (Text.repeated keys))
  else match p.default with
    | none => some (.noDefault keys)
    | some d =>
      if !keys.contains d.key then some (.foreignDefault d keys)
      else tableFault? keys .classes p.classes <|> tableFault? keys .descriptions p.descriptions

/-- A prop without values need not fit anything. -/
def fault? (p : PropEntry) : Option AxisFault := p.values.bind p.axisFault?

/-- The fields of a prop, each checked by itself. -/
def ofFields (fields : Table Json) : Checked PropEntry :=
  PropEntry.mk
    <$> nullable ["type"] text fields
    <*> nullable ["values"] (listOf axisValue) fields
    <*> nullable ["classes"] (tableOf text) fields
    <*> nullable ["descriptions"] (tableOf text) fields
    <*> nullable ["default"] axisValue fields
    <*> nullable ["description"] text fields
    <*> defaulted "optional" false flag fields
    <*> pure (fields.filter fun (name, _) => !fieldNames.contains name)

def ofJson (v : Json) : Checked PropEntry :=
  match v with
  | .obj fields => match ofFields fields with
    | .valid p => match p.fault? with
      | some f => fail (.axis f)
      | none => .valid p
    | .invalid p ps => .invalid p ps
  | _ => fail (.notEntry .prop)

def isNull : Json → Bool
  | .null => true
  | _ => false

/-- The declared fields that are not null, whether the prop is optional, and all other fields. -/
def toJson (p : PropEntry) : Json :=
  let texts (t : Option (Table String)) : Option Json := t.map fun t => .obj (Table.mapValues .str t)
  let declared : List (String × Option Json) :=
    [("type", p.type.map .str), ("values", p.values.map fun vs => .arr (vs.map AxisValue.toJson)),
      ("classes", texts p.classes), ("descriptions", texts p.descriptions),
      ("default", p.default.map AxisValue.toJson), ("description", p.description.map .str)]
  .obj ((declared.filterMap fun (name, v) => v.map fun v => (name, v)) ++
    [("optional", .bool p.isOptional)] ++ p.extras.filter fun (_, v) => !isNull v)

end PropEntry

/-- The names that base classes may have. -/
def baseClassNames : List String := ["baseStyles", "baseClasses", "base_classes"]

structure SubComponentEntry where
  name : Option String
  description : String
  baseClasses : Option String
  deriving Repr

def SubComponentEntry.ofJson (v : Json) : Checked SubComponentEntry :=
  match v with
  | .obj fields =>
    SubComponentEntry.mk
      <$> nullable ["name"] text fields
      <*> defaulted "description" "" text fields
      <*> nullable baseClassNames text fields
  | _ => fail (.notEntry .subComponent)

structure ComponentEntry where
  name : Option String
  description : String
  category : String
  props : Table PropEntry
  colors : List String
  baseClasses : Option String
  subComponents : Option (Table SubComponentEntry)
  styling : Option (Table Json)
  deriving Repr

def ComponentEntry.ofJson (v : Json) : Checked ComponentEntry :=
  match v with
  | .obj fields =>
    ComponentEntry.mk
      <$> nullable ["name"] text fields
      <*> required "description" text fields
      <*> required "category" text fields
      <*> defaulted "props" [] (tableOf PropEntry.ofJson) fields
      <*> defaulted "colors" [] (listOf text) fields
      <*> nullable baseClassNames text fields
      <*> nullable ["subComponents", "sub_components"] (tableOf SubComponentEntry.ofJson) fields
      <*> nullable ["styling"] object fields
  | _ => fail (.notEntry .component)

end DesignTokens.Registry
