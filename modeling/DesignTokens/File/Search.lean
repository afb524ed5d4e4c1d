import DesignTokens.File.Workspace
import DesignTokens.Text.Glob

/-!
Searching a workspace for files. A search pattern goes part by part; two stars as a part stand for
any number of folders.
-/
namespace DesignTokens

inductive SearchPart where
  | exact (name : String)
  | wild (glob : String)
  /-- Any number of folders, one in the other. -/
  | deep
  deriving DecidableEq, Repr

/-- Why a text is no search pattern. -/
inductive SearchFault where
  | empty
  | absolute
  | noParts
  /-- Two stars with something else in one part. -/
  | mixedStars
  deriving DecidableEq, Repr

/-- Whether two stars stand next to each other. -/
def hasTwoStars : List Char → Bool
  | '*' :: '*' :: _ => true
  | _ :: cs => hasTwoStars cs
  | [] => false

def SearchPart.ofString (part : String) : Except SearchFault SearchPart :=
  if part == "**" then .ok .deep
  else if hasTwoStars part.toList then .error .mixedStars
  else if part.toList.any fun c => c == '*' || c == '?' || c == '[' then .ok (.wild part)
  else .ok (.exact part)

/-- The parts of a search pattern. -/
def SearchPart.parse (pattern : String) : Except SearchFault (List SearchPart) := do
  let p := Path.ofString pattern
  if pattern == "" then .error .empty
  else if p.isAbsolute then .error .absolute
  else if p.parts.isEmpty then .error .noParts
  else p.parts.mapM SearchPart.ofString

namespace Workspace

variable (w : Workspace)

/-- The folder and all folders below it. -/
def foldersBelow (p : Path) : List Path :=
  p :: w.folders.filter fun q => q != p && (p.relativeTo? q).isSome

/-- What the parts lead to, from a folder on. -/
def select : List SearchPart → Path → List Path
  | [], p => [p]
  | .exact name :: rest, p =>
    let q := p.child name
    if (if rest.isEmpty then w.has q else w.isFolder q) then select rest q else []
  | .wild glob :: rest, p =>
    ((w.names p).filter (Text.globFits glob)).flatMap fun name =>
      let q := p.child name
      if rest.isEmpty || w.isFolder q then select rest q else []
  | .deep :: rest, p => (w.foldersBelow p).flatMap (select rest)

/-- The files below a folder that fit one of the patterns, each once, in order. A pattern that ends
in a separator asks for folders, so that no file fits. -/
def search (root : Path) (patterns : List String) : Except SearchFault (List Path) := do
  let found ← patterns.mapM fun pattern => do
    let parts ← SearchPart.parse pattern
    return if pattern.endsWith "/" || !w.isFolder root then []
      else (w.select parts root).filter w.isFile
  return found.flatten.eraseDups.mergeSort Path.le

end Workspace

end DesignTokens
