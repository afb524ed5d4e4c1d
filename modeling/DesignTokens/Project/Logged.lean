import DesignTokens.Log
import DesignTokens.Project.Failure

/-!
Computations that may fail and that log what they do. What is logged before a failure is kept.
-/
namespace DesignTokens

abbrev Logged (α : Type) : Type := ExceptT Failure (StateM (List Log.Entry)) α

namespace Logged

/-- Adds an entry to the log. -/
def note (level : Log.Level) (logger message : String) (extras : Table Json) : Logged Unit :=
  modify fun entries => entries ++ [{ level, logger, message, extras }]

def info (logger message : String) : Logged Unit := note .info logger message []

def warn (logger message : String) : Logged Unit := note .warning logger message []

/-- A result that logs nothing. -/
def ofExcept {ε α : Type} (failure : ε → Failure) (r : Except ε α) : Logged α :=
  match r with
  | .ok a => pure a
  | .error e => throw (failure e)

/-- The result and the log. -/
def outcome {α : Type} (l : Logged α) : Except Failure α × List Log.Entry :=
  let (result, entries) := (ExceptT.run l).run []
  (result, entries)

end Logged

end DesignTokens
