import DesignTokens.Proofs.Matrix.Cells
import DesignTokens.Proofs.Project.Actions
import DesignTokens.Proofs.Registry.Selected
import DesignTokens.Proofs.Scene.Sections

/-!
The outputs of a run are written last. Whatever fails, for whichever component, no file has been
touched by then; and a run that ends well has changed one file, which holds all that was asked for.
-/
namespace DesignTokens

open Workspace (Generation target? generator matrices)

/-! ### Inputs -/

/-- The snapshot that is given, or else the one of the configured style sheets. -/
def Workspace.snapshotOf (w : Workspace) (c : Config) (given : Option Theme.Snapshot) :
    Except Failure Theme.Snapshot :=
  match given with
  | some s => .ok s
  | none => (w.configuredTheme c).outcome.1

end DesignTokens
