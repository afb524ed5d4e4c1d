import DesignTokens.File.Workspace
import DesignTokens.Project.Logged

/-!
Actions of a run, one after the other in one workspace. An action may fail, and what it has done by
then to the workspace and to the log stays.
-/
namespace DesignTokens

/-- How far a run has come. -/
structure Progress where
  workspace : Workspace
  entries : List Log.Entry := []

abbrev Action (α : Type) : Type := ExceptT Failure (StateM Progress) α

namespace Action

variable {α : Type}

/-- The result of an action, and how far the run has come then. -/
def on (x : Action α) (p : Progress) : Except Failure α × Progress := (ExceptT.run x).run p

/-- Looks at the workspace and leaves it as it is. -/
def look (f : Workspace → Logged α) : Action α := do
  let p ← get
  let (result, entries) := (f p.workspace).outcome
  set { p with entries := p.entries ++ entries }
  liftM result

/-- Only logs. -/
def log (l : Logged Unit) : Action Unit := look fun _ => l

/-- Changes the workspace, unless the change fails. -/
def change (f : Workspace → Except Failure Workspace) : Action Unit := do
  let p ← get
  let w ← liftM (f p.workspace)
  set { p with workspace := w }

end Action

end DesignTokens
