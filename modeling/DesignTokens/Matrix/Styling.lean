import DesignTokens.Registry.Component
import DesignTokens.Style.Data
import DesignTokens.Utility.Parse

/-!
Styling entries of a component: numbers for fields that its classes leave unset.
-/
namespace DesignTokens

namespace Style

/-- The fields that a styling entry can fill. -/
inductive Fillable where
  | size (part : SizePart)
  | radius
  | padding (part : BoxPart)
  | gap
  | fontSize
  | strokeWeight
  | opacity
  deriving DecidableEq, Repr

def Fillable.byName : Table Fillable :=
  [("width", .size .width), ("height", .size .height), ("minWidth", .size .minWidth),
    ("minHeight", .size .minHeight), ("maxWidth", .size .maxWidth),
    ("maxHeight", .size .maxHeight), ("borderRadius", .radius), ("padding", .padding .whole),
    ("paddingX", .padding (.axis .x)), ("paddingY", .padding (.axis .y)), ("gap", .gap),
    ("fontSize", .fontSize), ("strokeWeight", .strokeWeight), ("opacity", .opacity)]

variable {α : Type}

def get (s : Style α) : Fillable → Option α
  | .size part => s.sizes.get part
  | .radius => s.radii.whole
  | .padding part => s.padding.get part
  | .gap => s.gaps.whole
  | .fontSize => s.fontSize
  | .strokeWeight => s.strokeWeight
  | .opacity => s.opacity

def set (v : α) (s : Style α) : Fillable → Style α
  | .size part => { s with sizes := s.sizes.set v part }
  | .radius => { s with radii := s.radii.set v .whole }
  | .padding part => { s with padding := s.padding.set v part }
  | .gap => { s with gaps := s.gaps.set v .whole }
  | .fontSize => { s with fontSize := some v }
  | .strokeWeight => { s with strokeWeight := some v }
  | .opacity => { s with opacity := some v }

/-- Sets a field that is unset. -/
def fill (v : α) (s : Style α) (f : Fillable) : Style α :=
  if (s.get f).isNone then s.set v f else s

/-- Fills unset fields from the numbers of an object; what has another name or is no number does
not count. -/
def fillFrom (styling : Table Json) (s : Style Number) : Style Number :=
  styling.foldl (fun s (name, v) =>
    match Table.get? name Fillable.byName, v with
    | some f, .num n => s.fill n f
    | _, _ => s) s

end Style

end DesignTokens
