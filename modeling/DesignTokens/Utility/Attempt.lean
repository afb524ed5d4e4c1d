import DesignTokens.Utility.Parse

/-!
Parsing step by step, where a step can break. A text that is no number cannot be converted, a name
that a table lacks cannot be looked up, a list has no item beyond its end, nothing has no parts, and
a rounded number may be beyond the floats. Each of these is checked where it is used; only the
conversions that are meant to fail are caught, and then the token is dropped.
-/
namespace DesignTokens.Utility

/-- Why a step breaks. -/
inductive Breach where
  | notNumber (text : String)
  | noName (name : String)
  | noItem (index : Nat)
  | noParts
  | beyondFloats
  deriving DecidableEq, Repr

/-- Why a token has no effect: it is dropped, or a step has broken. -/
inductive Stop where
  | dropped (reason : String)
  | broken (b : Breach)
  deriving DecidableEq, Repr

abbrev Step (α : Type) := Except Breach α

abbrev Attempt (α : Type) := Except Stop α

instance : MonadLift Step Attempt := ⟨Except.mapError .broken⟩

namespace Attempt

variable {α : Type}

def drop (reason : String) : Attempt α := .error (.dropped reason)

/-! ### Steps that can break -/

/-- The integer that a text stands for. -/
def toInt (s : String) : Step Int :=
  match Decimal.readInt? s with
  | some n => .ok n
  | none => .error (.notNumber s)

/-- The float that a text stands for. -/
def toFloat (s : String) : Step Float :=
  match Decimal.readFloat? s with
  | some x => .ok x
  | none => .error (.notNumber s)

/-- The value under a name that a table has. -/
def entry (name : String) (t : Table α) : Step α :=
  match Table.get? name t with
  | some v => .ok v
  | none => .error (.noName name)

/-- The item at a place of a list. -/
def item (xs : List α) (i : Nat) : Step α :=
  match xs[i]? with
  | some x => .ok x
  | none => .error (.noItem i)

/-- What is there. -/
def present (o : Option α) : Step α :=
  match o with
  | some a => .ok a
  | none => .error .noParts

/-- A number to some decimal places; what is finite has to stay so. -/
def rounded (x : Float) (places : Nat) : Step Float :=
  let y := Decimal.roundPlaces x places
  if Decimal.isFinite x && !Decimal.isFinite y then .error .beyondFloats else .ok y

/-- A conversion that may fail; no other breach is caught. -/
def caught (a : Step α) : Step (Option α) :=
  match a with
  | .ok x => .ok (some x)
  | .error (.notNumber _) => .ok none
  | .error b => .error b

/-! ### Words -/

/-- The items before the last one, and the last one. -/
def splitLast (xs : List α) : Step (List α × α) := do
  return (xs.dropLast, ← item xs (xs.length - 1))

/-- The last part after a slash, if there are several parts. -/
def splitModifier (cs : List Char) : Step (List Char × Option (List Char)) := do
  let parts := splitOutside '/' cs
  if 1 < parts.length then
    let (name, modifier) ← splitLast parts
    return (joinParts '/' name, some modifier)
  else return (cs, none)

def token (raw : List Char) : Step Token := do
  let (variants, base) ← splitLast (splitOutside ':' raw)
  let (important, base) := takeImportant base
  let (negative, base) := takeNegative base
  let (base, modifier) ← splitModifier base
  let (utility, arbitrary, misplaced) := match takeBrackets base with
    | .absent => (base, none, false)
    | .value utility content => (utility, some content, content.isEmpty)
    | .misplaced => (base, none, true)
  return {
    raw := String.ofList raw
    utility := String.ofList utility
    variants := variants.map String.ofList
    important
    negative
    arbitrary := arbitrary.map String.ofList
    modifier := modifier.map String.ofList
    malformed := misplaced || utility.isEmpty || variants.any (·.isEmpty) }

def tokens (classes : String) : Step (List Token) :=
  (Text.words classes).mapM fun w => token w.toList

/-! ### Values -/

def modifierOpacity (t : Token) : Attempt (Option Number) :=
  match t.modifier with
  | none => return none
  | some m =>
    if !isShortNumber 3 m then drop "malformed opacity modifier"
    else do
      let n ← toInt m
      if 100 < n then drop "malformed opacity modifier"
      else return some (.float (Float.ofInt n / 100))

def colorReference (lead value : String) (t : Token) : Attempt (ColorReference Number) := do
  let opacity ← modifierOpacity t
  let reference := lead ++ value
  return ⟨match t.modifier with
    | some m => reference ++ "/" ++ m
    | none => reference, opacity⟩

/-- The number and the unit of a text in the form of a length. -/
def lengthParts? (value : String) : Option (String × String) :=
  let (negative, body) := takeNegative (Text.lower (Text.trim value)).toList
  let (number, rest) := Css.takeDecimal body
  let unit := String.ofList rest
  if !number.isEmpty && ["px", "rem", "em", ""].contains unit then
    some (String.ofList (if negative then '-' :: number else number), unit)
  else none

variable (scales : Theme.Scales) (settings : Settings)

def arbitraryLength (text : String) : Step (Option Float) := do
  let some (number, unit) := lengthParts? text | return none
  let x ← toFloat number
  if unit == "rem" || unit == "em" then return some (← rounded (x * settings.rootFontSize) 3)
  else return some (← rounded x 3)

def resolve (s : Theme.SpacingScale) (key : String) : Step (Option Float) :=
  if Table.has key s.scale then return some (← entry key s.scale)
  else do
    let some multiplier ← caught (toFloat key) | return none
    if multiplier < 0 || !Decimal.isFinite multiplier then return none
    else return some (← rounded (multiplier * s.baseUnitPx) 3)

def spacingValue (t : Token) (value : String) : Step (Option Float) :=
  match t.arbitrary with
  | some a => arbitraryLength settings a
  | none => if value == "" then return none else resolve scales.spacing value

def radiusValue (t : Token) (value : String) : Step (Option Float) :=
  match t.arbitrary with
  | some a => arbitraryLength settings a
  | none =>
    let key := if value == "" then "DEFAULT" else value
    if Table.has key scales.borderRadius then return some (← entry key scales.borderRadius)
    else return if key == "full" then some fullRadius else none

/-! ### Families -/

def background (t : Token) (value : String) : Attempt (Update Number) :=
  if t.arbitrary.isSome || value == "" then drop "background is not a semantic token"
  else if t.negative then drop "negative value not allowed"
  else if settings.noFillKeywords.contains value then return .noFill
  else if !settings.isColor value then drop "background is not a semantic token"
  else return .fill (← colorReference settings.fillLead value t)

def text (t : Token) (value : String) : Attempt (Update Number) :=
  if t.negative then drop "negative value not allowed"
  else match t.arbitrary with
    | some a => do
      let some size ← arbitraryLength settings a | drop "arbitrary text value is not a length"
      return .fontSize (.float size)
    | none =>
      if Table.has value scales.fontSize then
        return .fontSize (.float (← entry value scales.fontSize))
      else if Table.has value textAlignments then return .textAlign (← entry value textAlignments)
      else if value == "" then drop "bare text utility"
      else do
        let opacity ← modifierOpacity t
        if settings.whiteTextKeywords.contains value then return .whiteText opacity
        else if !settings.isColor value then drop "text color is not a semantic token"
        else return .textColor (← colorReference settings.textLead value t)

def strokeColor (t : Token) (value : String) : Attempt (ColorReference Number) :=
  if !settings.isColor value then drop "stroke color is not a semantic token"
  else colorReference settings.strokeLead value t

def border (t : Token) (value : String) : Attempt (Update Number) :=
  if t.negative then drop "negative value not allowed"
  else match t.arbitrary with
    | some a => do
      let some weight ← arbitraryLength settings a | drop "arbitrary border value is not a length"
      return .borderWeight (.float weight)
    | none =>
      if value == "" then return .border true 1
      else if isShortNumber 2 value then do
        let weight ← toInt value
        return .border (decide (0 < weight)) (.int weight)
      else if value == "none" then return .noBorder 0
      else if Table.has value borderStyles then do
        let style ← entry value borderStyles
        return .borderStyle style (if style = .dashed then some dashPattern else none)
      else return .strokeColor (← strokeColor settings t value)

def sideBorder (sides : List Side) (t : Token) (value : String) : Attempt (Update Number) :=
  if t.negative then drop "negative value not allowed"
  else if t.arbitrary.isSome then drop "unsupported side border value"
  else if value != "" && !isShortNumber 2 value then
    return .strokeColor (← strokeColor settings t value)
  else if value == "" then return .borderSides sides 1
  else return .borderSides sides (.int (← toInt value))

def ring (t : Token) (value : String) : Attempt (Update Number) :=
  if t.negative then drop "negative value not allowed"
  else if t.arbitrary.isSome then drop "arbitrary ring value"
  else if value == "" then return .ring true 1
  else if isShortNumber 2 value then
    return .ring (decide (0 < (← toInt value))) (.int (← toInt value))
  else if value == "inset" || value == "offset" then drop "ring modifier has no stroke equivalent"
  else return .ringColor (← strokeColor settings t value) 1

def spacing (signed : Bool) (update : Number → Update Number) (t : Token) (value : String) :
    Attempt (Update Number) :=
  if t.negative && !signed then drop "negative value not allowed"
  else if t.modifier.isSome then drop "unexpected modifier"
  else do
    let some px ← spacingValue scales settings t value
      | drop ("unresolvable spacing value " ++ complaint t value)
    return update (.float (if t.negative then -px else px))

def size (parts : List SizePart) (t : Token) (value : String) : Attempt (Update Number) :=
  if t.negative || t.modifier.isSome then drop "fractional or negative size"
  else do
    let some px ← spacingValue scales settings t value
      | drop ("unresolvable size " ++ complaint t value)
    return .size parts (.float px)

def radius (part : RadiusPart) (t : Token) (value : String) : Attempt (Update Number) :=
  if t.negative || t.modifier.isSome then drop "invalid radius token"
  else do
    let some px ← radiusValue scales settings t value
      | drop ("unknown radius " ++ complaint t value)
    return .radius part (.float px)

def font (t : Token) (value : String) : Attempt (Update Number) :=
  match t.arbitrary with
  | some a => do
    let some weight ← caught (toInt a) | drop "arbitrary font value is not a weight"
    return .fontWeight weight
  | none =>
    if Table.has value scales.fontWeight then return .fontWeight (← entry value scales.fontWeight)
    else drop "font family or unknown weight"

def leading (t : Token) (value : String) : Attempt (Update Number) := do
  let some px ← spacingValue scales settings t value | drop "relative line height"
  return .lineHeight (.float px)

def opacity (t : Token) (value : String) : Attempt (Update Number) :=
  if t.arbitrary.isNone && !isShortNumber 3 value then drop "opacity is not a percentage"
  else do
    let some x ← caught (toFloat (t.arbitrary.getD value)) | drop "opacity is not numeric"
    let x := if t.arbitrary.isSome then x else x / 100
    if 0 ≤ x && x ≤ 1 then return .opacity (.float x) else drop "opacity out of range"

def shadow (t : Token) (value : String) : Attempt (Update Number) :=
  if t.arbitrary.isSome then drop "arbitrary shadow"
  else if value == "none" then return .shadow "none" []
  else
    let name := if value == "" then "sm" else value
    let preset := Table.get? name scales.shadows
    if preset.isNone then drop ("unknown shadow preset " ++ Text.quote name)
    else return .shadow name (← present preset).layers

def family (t : Token) (value : String) : Family → Attempt (Update Number)
  | .background => background settings t value
  | .text => text scales settings t value
  | .border => border settings t value
  | .borderSides sides => sideBorder settings sides t value
  | .ring => ring settings t value
  | .radius part => radius scales settings part t value
  | .shadow => shadow scales t value
  | .font => font scales t value
  | .leading => leading scales settings t value
  | .opacity => opacity t value
  | .padding part => spacing scales settings false (.padding part) t value
  | .margin part => spacing scales settings true (.margin part) t value
  | .gap part => spacing scales settings false (.gap part) t value
  | .size parts => size scales settings parts t value

/-- The names of the vocabulary, a longer one before a shorter one. -/
def names : List String :=
  (Table.keys vocabulary).mergeSort fun a b => decide (b.length ≤ a.length)

def utility (t : Token) : Attempt (Update Number) :=
  match (if t.arbitrary.isNone then Table.get? t.utility layoutKeywords else none) with
  | some update => return update
  | none => do
    let some (name, value) := names.findSome? fun name =>
        (valueUnder? t.utility name).map fun value => (name, value)
      | drop "no handler for utility"
    family scales settings t value (← entry name vocabulary)

/-! ### Class strings -/

/-- What a token does, as an update of some part. -/
def outcome (t : Token) : Attempt Outcome :=
  if t.malformed then drop "malformed token"
  else if t.variants.isEmpty then return .base (← utility scales settings t)
  else if 1 < t.variants.length then
    drop ("stacked variants " ++ String.intercalate ":" t.variants ++ " not supported")
  else do
    let variant ← item t.variants 0
    if !settings.stateVariants.contains variant then
      drop ("variant " ++ Text.quote variant ++ " skipped")
    else return .state variant (← utility scales settings t)

/-- One more token: it acts, or it leaves a warning. -/
def add (p : Parsed) (t : Token) : Step Parsed :=
  match outcome scales settings t with
  | .ok o => .ok { p with appearance := o.apply p.appearance }
  | .error (.dropped reason) => .ok { p with warnings := p.warnings ++ [⟨t.raw, reason⟩] }
  | .error (.broken b) => .error b

/-- Parses a class string; nothing is caught here. -/
def parse (classes : String) : Step Parsed := do
  (← tokens classes).foldlM (add scales settings) {}

end Attempt

end DesignTokens.Utility
