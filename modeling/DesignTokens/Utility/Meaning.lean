import DesignTokens.Number
import DesignTokens.Theme.Snapshot
import DesignTokens.Utility.Settings
import DesignTokens.Utility.Token
import DesignTokens.Utility.Update

/-!
The meaning of a utility token: the update it stands for under a theme, or the reason why it is
dropped. A utility is a layout keyword, or a name from the vocabulary with a value after a hyphen;
of several names that fit, the longest one counts.
-/
namespace DesignTokens.Utility

/-- The update of a token, or the reason to drop it. -/
abbrev Meaning := Except String (Update Number)

/-- Utilities that are complete by themselves. -/
def layoutKeywords : Table (Update Number) :=
  [("flex", .layoutMode .horizontal), ("inline-flex", .layoutMode .horizontal),
    ("flex-row", .layoutMode .horizontal), ("flex-col", .layoutMode .vertical),
    ("flex-wrap", .wrap true), ("flex-nowrap", .wrap false), ("grow", .grow), ("flex-1", .grow),
    ("items-start", .alignItems .min), ("items-center", .alignItems .center),
    ("items-end", .alignItems .max), ("items-stretch", .alignItems .stretch),
    ("items-baseline", .alignItems .baseline), ("justify-start", .justifyContent .min),
    ("justify-center", .justifyContent .center), ("justify-end", .justifyContent .max),
    ("justify-between", .justifyContent .spaceBetween)]

/-- The families of utilities that take a value. -/
inductive Family where
  | background
  | text
  | border
  | borderSides (sides : List Side)
  | ring
  | radius (part : RadiusPart)
  | shadow
  | font
  | leading
  | opacity
  | padding (part : BoxPart)
  | margin (part : BoxPart)
  | gap (part : GapPart)
  | size (parts : List SizePart)
  deriving DecidableEq, Repr

/-- The names of utilities that take a value. -/
def vocabulary : List (String × Family) :=
  [("bg", .background), ("text", .text), ("border", .border), ("ring", .ring),
    ("rounded", .radius .whole), ("shadow", .shadow), ("font", .font), ("leading", .leading),
    ("opacity", .opacity), ("gap", .gap .whole), ("gap-x", .gap (.axis .x)),
    ("gap-y", .gap (.axis .y)), ("w", .size [.width]), ("h", .size [.height]),
    ("size", .size [.width, .height]), ("min-w", .size [.minWidth]),
    ("min-h", .size [.minHeight]), ("max-w", .size [.maxWidth]), ("max-h", .size [.maxHeight]),
    ("p", .padding .whole), ("px", .padding (.axis .x)), ("py", .padding (.axis .y)),
    ("pt", .padding (.side .top)), ("pr", .padding (.side .right)),
    ("pb", .padding (.side .bottom)), ("pl", .padding (.side .left)),
    ("m", .margin .whole), ("mx", .margin (.axis .x)), ("my", .margin (.axis .y)),
    ("mt", .margin (.side .top)), ("mr", .margin (.side .right)),
    ("mb", .margin (.side .bottom)), ("ml", .margin (.side .left)),
    ("rounded-t", .radius (.side .top)), ("rounded-r", .radius (.side .right)),
    ("rounded-b", .radius (.side .bottom)), ("rounded-l", .radius (.side .left)),
    ("rounded-tl", .radius (.corner .topLeft)), ("rounded-tr", .radius (.corner .topRight)),
    ("rounded-br", .radius (.corner .bottomRight)), ("rounded-bl", .radius (.corner .bottomLeft)),
    ("border-t", .borderSides [.top]), ("border-r", .borderSides [.right]),
    ("border-b", .borderSides [.bottom]), ("border-l", .borderSides [.left]),
    ("border-x", .borderSides (Axis.sides .x)), ("border-y", .borderSides (Axis.sides .y))]

/-- The value that a utility gives to a name: none at all, or what follows the hyphen. -/
def valueUnder? (utility name : String) : Option String :=
  if utility == name then some "" else Text.after? (name ++ "-") utility

/-- Of the entries whose name fits a utility, the one with the longest name, and the value. -/
def lookup? (entries : List (String × Family)) (utility : String) : Option (Family × String) :=
  let fitting := entries.filterMap fun (name, family) =>
    (valueUnder? utility name).map fun value => (name.length, family, value)
  (fitting.foldl (fun best entry => match best with
    | some b => if b.1 < entry.1 then some entry else best
    | none => some entry) none).map (·.2)

/-- One to `most` ASCII digits. -/
def isShortNumber (most : Nat) (s : String) : Bool :=
  !s.isEmpty && decide (s.length ≤ most) && s.all Text.isAsciiDigit

def numberOf (s : String) : Nat := Decimal.digitsFrom 10 0 s.toList

/-- Opacity of a modifier: a whole percentage from 0 to 100. -/
def modifierOpacity (t : Token) : Except String (Option Number) :=
  match t.modifier with
  | none => .ok none
  | some m =>
    if isShortNumber 3 m && decide (numberOf m ≤ 100) then
      .ok (some (.float (Float.ofNat (numberOf m) / 100)))
    else .error "malformed opacity modifier"

/-- The variable of a colour token, with the modifier as it is written. -/
def colorReference (lead value : String) (t : Token) : Except String (ColorReference Number) := do
  let opacity ← modifierOpacity t
  let reference := lead ++ value
  return ⟨match t.modifier with
    | some m => reference ++ "/" ++ m
    | none => reference, opacity⟩

/-- The value that a reason complains about. -/
def complaint (t : Token) (value : String) : String :=
  if value != "" then Text.quote value
  else match t.arbitrary with
    | some a => Text.quote a
    | none => "None"

variable (scales : Theme.Scales) (settings : Settings)

def arbitraryLength (text : String) : Option Float := Css.parseLength text settings.rootFontSize

/-- A bracketed length, or a step of the spacing scale. -/
def spacingValue (t : Token) (value : String) : Option Float :=
  match t.arbitrary with
  | some a => arbitraryLength settings a
  | none => if value == "" then none else scales.spacing.resolve value

/-- The radius of fully rounded corners. -/
def fullRadius : Float := 9999

/-- A bracketed length, or a named radius; the default one has no name. -/
def radiusValue (t : Token) (value : String) : Option Float :=
  match t.arbitrary with
  | some a => arbitraryLength settings a
  | none =>
    let key := if value == "" then "DEFAULT" else value
    match Table.get? key scales.borderRadius with
    | some px => some px
    | none => if key == "full" then some fullRadius else none

def background (t : Token) (value : String) : Meaning :=
  if t.arbitrary.isSome || value == "" then .error "background is not a semantic token"
  else if t.negative then .error "negative value not allowed"
  else if settings.noFillKeywords.contains value then .ok .noFill
  else if !settings.isColor value then .error "background is not a semantic token"
  else (colorReference settings.fillLead value t).map .fill

def textAlignments : Table TextAlign :=
  [("left", .left), ("center", .center), ("right", .right), ("justify", .justified)]

/-- Text color, once a size and an alignment are ruled out. -/
def textColor (t : Token) (value : String) : Meaning := do
  if value == "" then .error "bare text utility"
  let opacity ← modifierOpacity t
  if settings.whiteTextKeywords.contains value then return .whiteText opacity
  if !settings.isColor value then .error "text color is not a semantic token"
  return .textColor (← colorReference settings.textLead value t)

/-- A text utility sets the size, the alignment or the colour, in this order. -/
def text (t : Token) (value : String) : Meaning :=
  if t.negative then .error "negative value not allowed"
  else match t.arbitrary with
    | some a => match arbitraryLength settings a with
      | some size => .ok (.fontSize (.float size))
      | none => .error "arbitrary text value is not a length"
    | none => match Table.get? value scales.fontSize with
      | some size => .ok (.fontSize (.float size))
      | none => match Table.get? value textAlignments with
        | some a => .ok (.textAlign a)
        | none => textColor settings t value

def strokeColor (t : Token) (value : String) : Except String (ColorReference Number) :=
  if !settings.isColor value then .error "stroke color is not a semantic token"
  else colorReference settings.strokeLead value t

def borderStyles : Table BorderStyle :=
  [("solid", .solid), ("dashed", .dashed), ("dotted", .dotted), ("double", .double)]

/-- Lengths of the dashes and gaps of a dashed border. -/
def dashPattern : List Nat := [4, 4]

def border (t : Token) (value : String) : Meaning :=
  if t.negative then .error "negative value not allowed"
  else match t.arbitrary with
    | some a => match arbitraryLength settings a with
      | some weight => .ok (.borderWeight (.float weight))
      | none => .error "arbitrary border value is not a length"
    | none =>
      if value == "" then .ok (.border true 1)
      else if isShortNumber 2 value then
        .ok (.border (decide (0 < numberOf value)) (.int (numberOf value)))
      else if value == "none" then .ok (.noBorder 0)
      else match Table.get? value borderStyles with
        | some style =>
          .ok (.borderStyle style (if style = .dashed then some dashPattern else none))
        | none => (strokeColor settings t value).map .strokeColor

def sideBorder (sides : List Side) (t : Token) (value : String) : Meaning :=
  if t.negative then .error "negative value not allowed"
  else if t.arbitrary.isSome then .error "unsupported side border value"
  else if value == "" then .ok (.borderSides sides 1)
  else if isShortNumber 2 value then .ok (.borderSides sides (.int (numberOf value)))
  else (strokeColor settings t value).map .strokeColor

def ring (t : Token) (value : String) : Meaning :=
  if t.negative then .error "negative value not allowed"
  else if t.arbitrary.isSome then .error "arbitrary ring value"
  else if value == "" then .ok (.ring true 1)
  else if isShortNumber 2 value then
    .ok (.ring (decide (0 < numberOf value)) (.int (numberOf value)))
  else if value == "inset" || value == "offset" then
    .error "ring modifier has no stroke equivalent"
  else (strokeColor settings t value).map (.ringColor · 1)

/-- A spacing utility; only margins may be negative. -/
def spacing (signed : Bool) (update : Number → Update Number) (t : Token) (value : String) :
    Meaning :=
  if t.negative && !signed then .error "negative value not allowed"
  else if t.modifier.isSome then .error "unexpected modifier"
  else match spacingValue scales settings t value with
    | some px => .ok (update (.float (if t.negative then -px else px)))
    | none => .error ("unresolvable spacing value " ++ complaint t value)

def size (parts : List SizePart) (t : Token) (value : String) : Meaning :=
  if t.negative || t.modifier.isSome then .error "fractional or negative size"
  else match spacingValue scales settings t value with
    | some px => .ok (.size parts (.float px))
    | none => .error ("unresolvable size " ++ complaint t value)

def radius (part : RadiusPart) (t : Token) (value : String) : Meaning :=
  if t.negative || t.modifier.isSome then .error "invalid radius token"
  else match radiusValue scales settings t value with
    | some px => .ok (.radius part (.float px))
    | none => .error ("unknown radius " ++ complaint t value)

def font (t : Token) (value : String) : Meaning :=
  match t.arbitrary with
  | some a => match Decimal.readInt? a with
    | some weight => .ok (.fontWeight weight)
    | none => .error "arbitrary font value is not a weight"
  | none => match Table.get? value scales.fontWeight with
    | some weight => .ok (.fontWeight weight)
    | none => .error "font family or unknown weight"

def leading (t : Token) (value : String) : Meaning :=
  match spacingValue scales settings t value with
  | some px => .ok (.lineHeight (.float px))
  | none => .error "relative line height"

def opacityInRange (x : Float) : Meaning :=
  if 0 ≤ x && x ≤ 1 then .ok (.opacity (.float x)) else .error "opacity out of range"

/-- A whole percentage, or a bracketed fraction. -/
def opacity (t : Token) (value : String) : Meaning :=
  match t.arbitrary with
  | some a => match Decimal.readFloat? a with
    | some x => opacityInRange x
    | none => .error "opacity is not numeric"
  | none =>
    if isShortNumber 3 value then opacityInRange (Float.ofNat (numberOf value) / 100)
    else .error "opacity is not a percentage"

/-- A named shadow; without a name it is the small one. -/
def shadow (t : Token) (value : String) : Meaning :=
  if t.arbitrary.isSome then .error "arbitrary shadow"
  else if value == "none" then .ok (.shadow "none" [])
  else
    let name := if value == "" then "sm" else value
    match Table.get? name scales.shadows with
    | some preset => .ok (.shadow name preset.layers)
    | none => .error ("unknown shadow preset " ++ Text.quote name)

/-- The meaning of a value within a family. -/
def familyMeaning (t : Token) (value : String) : Family → Meaning
  | .background => background settings t value
  | .text => text scales settings t value
  | .border => border settings t value
  | .borderSides sides => sideBorder settings sides t value
  | .ring => ring settings t value
  | .radius part => radius scales settings part t value
  | .shadow => shadow scales t value
  | .font => font scales t value
  | .leading => leading scales settings t value
  | .opacity => opacity t value
  | .padding part => spacing scales settings false (.padding part) t value
  | .margin part => spacing scales settings true (.margin part) t value
  | .gap part => spacing scales settings false (.gap part) t value
  | .size parts => size scales settings parts t value

/-- The meaning of a token's utility, whatever its variants are. -/
def utilityMeaning (t : Token) : Meaning :=
  match (if t.arbitrary.isNone then Table.get? t.utility layoutKeywords else none) with
  | some update => .ok update
  | none => match lookup? vocabulary t.utility with
    | some (family, value) => familyMeaning scales settings t value family
    | none => .error "no handler for utility"

/-- What a token does: nothing, with a reason, or an update of the base style or of a state. -/
inductive Outcome where
  | dropped (reason : String)
  | base (u : Update Number)
  | state (name : String) (u : Update Number)
  deriving Repr

def outcome (t : Token) : Outcome :=
  if t.malformed then .dropped "malformed token"
  else match t.variants with
    | [] => match utilityMeaning scales settings t with
      | .ok u => .base u
      | .error reason => .dropped reason
    | [v] =>
      if settings.stateVariants.contains v then
        match utilityMeaning scales settings t with
        | .ok u => .state v u
        | .error reason => .dropped reason
      else .dropped ("variant " ++ Text.quote v ++ " skipped")
    | vs => .dropped ("stacked variants " ++ String.intercalate ":" vs ++ " not supported")

end DesignTokens.Utility
