import DesignTokens.File.Path
import DesignTokens.Text.Encoding
import DesignTokens.Text.Order
import DesignTokens.Text.Quoted

/-!
Workspaces: the files and folders that a run can see. Every path is looked up from a directory on,
part by part, and each part but the last must be a folder.
-/
namespace DesignTokens

/-- Why a path cannot be used as it is meant to be. -/
inductive FileFault where
  | missing
  /-- A folder stands where a file is meant. -/
  | folder
  /-- A file stands where a path goes on. -/
  | notFolder
  /-- A file stands where a folder is to be made. -/
  | taken
  /-- The bytes of a file are no text. -/
  | undecodable (fault : Text.DecodeFault)
  deriving DecidableEq, Repr

/-- A fault at a path, in words. -/
def FileFault.message (path : Path) : FileFault → String
  | .missing => "[Errno 2] No such file or directory: " ++ Text.quote path.text
  | .folder => "[Errno 21] Is a directory: " ++ Text.quote path.text
  | .notFolder => "[Errno 20] Not a directory: " ++ Text.quote path.text
  | .taken => "[Errno 17] File exists: " ++ Text.quote path.text
  | .undecodable fault => fault.message

structure Workspace where
  /-- The directory from which relative paths start. -/
  here : Path
  files : List (Path × Text.Bytes) := []
  folders : List Path := []
  deriving Repr

namespace Workspace

variable (w : Workspace)

/-- Whether a folder stands at a path without dots. -/
def hasFolder (p : Path) : Bool := p.parts.isPrefixOf w.here.parts || w.folders.contains p

/-- What a file holds that stands at a path without dots. -/
def contents? (p : Path) : Option Text.Bytes := w.files.lookup p

/-- The path that is reached from `start` through the parts. -/
def walk (start : Path) : List String → Except FileFault Path
  | [] => .ok start
  | part :: rest =>
    if w.hasFolder start then walk (if part == ".." then start.parent else start.child part) rest
    else .error (if (w.contents? start).isSome then .notFolder else .missing)

/-- The path from the root that a path leads to; nothing need stand there. -/
def locate (p : Path) : Except FileFault Path := w.walk ⟨.root, []⟩ (w.here.join p).parts

def isFile (p : Path) : Bool :=
  match w.locate p with
  | .ok q => (w.contents? q).isSome
  | .error _ => false

def isFolder (p : Path) : Bool :=
  match w.locate p with
  | .ok q => w.hasFolder q
  | .error _ => false

def has (p : Path) : Bool := w.isFile p || w.isFolder p

/-- The bytes of a file. -/
def bytes (p : Path) : Except FileFault Text.Bytes := do
  let q ← w.locate p
  match w.contents? q with
  | some bytes => return bytes
  | none => .error (if w.hasFolder q then .folder else .missing)

/-- The text of a file, each line of which ends in a line feed. -/
def text (p : Path) : Except FileFault String := do
  match Text.decodeUtf8 (← w.bytes p) with
  | .ok s => return String.ofList (Text.unifyBreaks s.toList)
  | .error fault => .error (.undecodable fault)

/-- The folders down to a path, from the root on. -/
def foldersTo (p : Path) : List Path :=
  let parts := Path.climb (w.here.join p).parts
  (List.range (parts.length + 1)).map fun n => ⟨.root, parts.take n⟩

/-- Makes a folder and those above it, except where there are folders already. -/
def makeFolder (p : Path) : Except FileFault Workspace :=
  match (w.foldersTo p).find? fun q => (w.contents? q).isSome with
  | some q => .error (if (w.foldersTo p).getLast? == some q then .taken else .notFolder)
  | none => .ok { w with folders := w.folders ++ (w.foldersTo p).filter fun q => !w.hasFolder q }

/-- The files after one of them, at a path without dots, has got new contents. -/
def put (p : Path) (bytes : Text.Bytes) (files : List (Path × Text.Bytes)) :
    List (Path × Text.Bytes) :=
  if (files.lookup p).isSome then files.map fun f => if f.1 == p then (p, bytes) else f
  else files ++ [(p, bytes)]

/-- Writes a file into a folder that is there. -/
def write (p : Path) (bytes : Text.Bytes) : Except FileFault Workspace := do
  let q ← w.locate p
  if w.hasFolder q then .error .folder else return { w with files := put q bytes w.files }

/-- Writes a text into a file, after making the folder that it stands in. -/
def save (p : Path) (text : String) : Except FileFault Workspace := do
  (← w.makeFolder p.parent).write p (Text.encodeUtf8 text)

/-- Removes a file. -/
def remove (p : Path) : Except FileFault Workspace := do
  let q ← w.locate p
  if (w.contents? q).isSome then return { w with files := w.files.filter fun f => f.1 != q }
  else .error (if w.hasFolder q then .folder else .missing)

/-- The names of what stands in a folder at a path without dots. -/
def names (p : Path) : List String :=
  Text.distinct (((w.files.map (·.1) ++ w.folders).filter fun q =>
    q.parts.length = p.parts.length + 1 && q.parent == p).map Path.name)

/-- The files below the directory, as seen from it. -/
def listing : List Path := w.files.filterMap fun f => w.here.relativeTo? f.1

end Workspace

end DesignTokens
