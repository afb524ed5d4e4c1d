import DesignTokens.Style

/-!
Updates: what an applied utility token does to a style. An update is determined by the token alone;
only a ring colour looks at the style, to leave a stroke weight that is there.
-/
namespace DesignTokens.Utility

/-- A colour token with the opacity of its modifier. -/
structure ColorReference (α : Type) where
  variableName : String
  opacity : Option α
  deriving DecidableEq, Repr

inductive Update (α : Type) where
  | layoutMode (m : LayoutMode)
  | wrap (on : Bool)
  | grow
  | alignItems (a : AlignItems)
  | justifyContent (j : JustifyContent)
  | noFill
  | fill (c : ColorReference α)
  | fontSize (size : α)
  | textAlign (a : TextAlign)
  | whiteText (opacity : Option α)
  | textColor (c : ColorReference α)
  | strokeColor (c : ColorReference α)
  /-- A bracketed border width, which leaves the sides alone. -/
  | borderWeight (weight : α)
  /-- A border on all sides; a width of zero removes it. -/
  | border (visible : Bool) (weight : α)
  | noBorder (zero : α)
  | borderStyle (style : BorderStyle) (dash : Option (List Nat))
  | borderSides (sides : List Side) (weight : α)
  | ring (visible : Bool) (weight : α)
  /-- A ring colour; the weight serves if there is none yet. -/
  | ringColor (c : ColorReference α) (weight : α)
  | radius (part : RadiusPart) (px : α)
  | padding (part : BoxPart) (px : α)
  | margin (part : BoxPart) (px : α)
  | gap (part : GapPart) (px : α)
  | size (parts : List SizePart) (px : α)
  | fontWeight (weight : Int)
  | lineHeight (px : α)
  | opacity (value : α)
  | shadow (name : String) (layers : List ShadowLayer)
  deriving Repr

variable {α : Type}

/-- The style after an update. -/
def Update.apply (s : Style α) : Update α → Style α
  | .layoutMode m => { s with layoutMode := some m }
  | .wrap on => { s with wrap := on }
  | .grow => { s with grow := true }
  | .alignItems a => { s with alignItems := some a }
  | .justifyContent j => { s with justifyContent := some j }
  | .noFill => { s with noFill := true, fillVariable := none, fillOpacity := none }
  | .fill c => { s with fillVariable := some c.variableName, fillOpacity := c.opacity, noFill := false }
  | .fontSize px => { s with fontSize := some px }
  | .textAlign a => { s with textAlign := some a }
  | .whiteText o => { s with isWhiteText := true, textVariable := none, textOpacity := o }
  | .textColor c =>
    { s with textVariable := some c.variableName, textOpacity := c.opacity, isWhiteText := false }
  | .strokeColor c => { s with strokeVariable := some c.variableName, strokeOpacity := c.opacity }
  | .borderWeight weight => { s with hasBorder := true, strokeWeight := some weight }
  | .border visible weight =>
    { s with hasBorder := visible, strokeWeight := some weight, borderSides := none }
  | .noBorder zero => { s with hasBorder := false, strokeWeight := some zero }
  | .borderStyle kind dash =>
    { s with hasBorder := true, borderStyle := some kind, dashPattern := dash }
  | .borderSides sides weight =>
    { s with hasBorder := true, strokeWeight := some weight, borderSides := some sides }
  | .ring visible weight => { s with hasBorder := visible, strokeWeight := some weight }
  | .ringColor c weight =>
    { s with
      strokeVariable := some c.variableName
      strokeOpacity := c.opacity
      hasBorder := true
      strokeWeight := s.strokeWeight <|> some weight }
  | .radius part px => { s with radii := s.radii.set px part }
  | .padding part px => { s with padding := s.padding.set px part }
  | .margin part px => { s with margin := s.margin.set px part }
  | .gap part px => { s with gaps := s.gaps.set px part }
  | .size parts px => { s with sizes := parts.foldl (Sizes.set px) s.sizes }
  | .fontWeight weight => { s with fontWeight := some weight }
  | .lineHeight px => { s with lineHeight := some px }
  | .opacity value => { s with opacity := some value }
  | .shadow name layers => { s with shadow := some name, shadowLayers := some layers }

end DesignTokens.Utility
