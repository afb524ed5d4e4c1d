import DesignTokens.Matrix.Measure
import DesignTokens.Proofs.Style.Filling
import DesignTokens.Proofs.Utility.Updates

/-!
Borders and rings. Whether a border shows, its width and its colour are each decided by the last
token that has a say in them. Only the tokens for all sides and the rings hide a border with a width
of zero; the tokens of single sides and bracketed widths show it.
-/
namespace DesignTokens

open DesignTokens.Matrix (nonzero)

/-- The stroke of a style: a colour that shows and its weight. A weight of zero counts as none. -/
def Style.stroke? (s : Style Number) : Option (String × Number) :=
  if s.hasBorder then
    (s.strokeVariable.filter (· != "")).map fun name => (name, (nonzero s.strokeWeight).getD 1)
  else none

namespace Utility

variable {α : Type}

/-- Whether an update shows the border or hides it. -/
def Update.shows? : Update α → Option Bool
  | .border visible _ | .ring visible _ => some visible
  | .noBorder _ => some false
  | .borderWeight _ | .borderStyle .. | .borderSides .. | .ringColor .. => some true
  | _ => none

/-- The width that an update sets. -/
def Update.width? : Update α → Option α
  | .border _ w | .ring _ w | .noBorder w | .borderWeight w | .borderSides _ w => some w
  | _ => none

/-- The width that an update brings where there is none. -/
def Update.defaultWidth? : Update α → Option α
  | .ringColor _ w => some w
  | _ => none

/-- The colour that an update sets. -/
def Update.strokeName? : Update α → Option String
  | .strokeColor c | .ringColor c _ => some c.variableName
  | _ => none

theorem hasBorder_run (us : List (Update Number)) :
    (run us {}).hasBorder = (us.reverse.findSome? Update.shows?).getD false := by
  have hrun := findSome?_run (fun s => some s.hasBorder) Update.shows?
    (fun u s => by cases u <;> rfl) us {}
  cases hlast : us.reverse.findSome? Update.shows? with
  | none => simpa [hlast] using hrun
  | some visible => simpa [hlast] using hrun

theorem strokeVariable_run (us : List (Update Number)) :
    (run us {}).strokeVariable = us.reverse.findSome? Update.strokeName? := by
  have hrun := findSome?_run Style.strokeVariable Update.strokeName?
    (fun u s => by cases u <;> rfl) us {}
  exact hrun.trans (Option.or_none ..)

/-- The last width counts, or the first one that a ring colour brings. -/
theorem strokeWeight_run_or (us : List (Update Number)) (s : Style Number) :
    (run us s).strokeWeight =
      (us.reverse.findSome? Update.width?).or
        (s.strokeWeight.or (us.findSome? Update.defaultWidth?)) := by
  induction us generalizing s with
  | nil => simp
  | cons u us ih =>
    have hstep : (u.apply s).strokeWeight =
        u.width?.or (s.strokeWeight.or u.defaultWidth?) := by
      cases u <;> simp [Update.apply, Update.width?, Update.defaultWidth?]
    rw [run_cons, ih, hstep, List.reverse_cons, List.findSome?_append, List.findSome?_singleton,
      Option.or_assoc, Option.or_assoc, Option.or_assoc]
    refine congrArg _ (congrArg _ (congrArg _ ?_))
    cases hd : u.defaultWidth? <;> simp [hd]

/-- The stroke that the updates of a class string make, where `given` is a weight from elsewhere. -/
def strokeOf (us : List (Update Number)) (given : Option Number) : Option (String × Number) :=
  if (us.reverse.findSome? Update.shows?).getD false then
    ((us.reverse.findSome? Update.strokeName?).filter (· != "")).map fun name =>
      (name, (nonzero ((us.reverse.findSome? Update.width?).or
        ((us.findSome? Update.defaultWidth?).or given))).getD 1)
  else none

theorem stroke?_of_filled {us : List (Update Number)} {styling : Table Json} {s : Style Number}
    (h : Style.Filled styling (run us {}) s) :
    s.stroke? = strokeOf us (Style.numberUnder styling "strokeWeight") := by
  have hborder : s.hasBorder = (run us {}).hasBorder :=
    h.kept .hasBorder fun e => by cases e <;> simp [Style.Fillable.field]
  have hname : s.strokeVariable = (run us {}).strokeVariable :=
    h.kept .strokeVariable fun e => by cases e <;> simp [Style.Fillable.field]
  have hweight : s.strokeWeight =
      ((run us {}).strokeWeight <|> Style.numberUnder styling "strokeWeight") :=
    h.filled "strokeWeight" .strokeWeight rfl
  rw [Style.stroke?, strokeOf, hborder, hname, hweight, hasBorder_run, strokeVariable_run,
    strokeWeight_run_or, Option.orElse_eq_orElse, Option.orElse_eq_or, Option.or_assoc]
  rfl

/-- After an update that hides the border no stroke is left. -/
theorem strokeOf_hidden {u : Update Number} (h : u.shows? = some false) (us : List (Update Number))
    (given : Option Number) : strokeOf (us ++ [u]) given = none := by
  simp [strokeOf, h]

/-- After a width of zero that does not hide the border the stroke has a weight of one. -/
theorem strokeOf_zero {u : Update Number} {w : Number} (h : u.shows? = some true)
    (hw : u.width? = some w) (hzero : w.isZero) (us : List (Update Number))
    (given : Option Number) :
    strokeOf (us ++ [u]) given =
      (((us ++ [u]).reverse.findSome? Update.strokeName?).filter (· != "")).map (·, 1) := by
  simp [strokeOf, h, hw, nonzero, Option.filter_some, hzero]

end Utility

end DesignTokens
