import DesignTokens.Project.Session
import Std.Time.DateTime

/-!
The command line. All files that a run may see are read before it starts: those below the current
directory, and those beside a file elsewhere that is named to it. What the run has changed is
written when it has ended.
-/
namespace DesignTokens

/-- Adds the files and the folders below a folder. -/
def Workspace.gather (w : Workspace) (folder : Path) : IO Workspace := do
  let base ← IO.currentDir
  let mut files := w.files
  let mut folders := folder :: w.folders
  for found in ← (base / folder.text).walkDir do
    let p := Path.ofString found.toString
    if ← found.isDir then folders := p :: folders
    else files := (p, (← IO.FS.readBinFile found).toList) :: files
  return { w with files, folders }

/-- The folders, outside the current one, of the files that are named to a run. -/
def foldersOf (here : Path) (named : List String) : IO (List Path) := do
  let mut folders := []
  for name in named do
    let p := (Path.ofString name).resolve here
    let base ← IO.currentDir
    let file := base / p.text
    if (here.relativeTo? p).isNone && (← file.pathExists) && !(← file.isDir) then
      folders := p.parent :: folders
  return folders.eraseDups

/-- Writes what has changed. -/
def Workspace.store (before after : Workspace) : IO Unit := do
  for folder in after.folders do
    if !before.hasFolder folder then IO.FS.createDirAll folder.text
  for (p, bytes) in after.files do
    if before.contents? p != some bytes then IO.FS.writeBinFile p.text ⟨bytes.toArray⟩

/-- A number in as many digits as are asked for. -/
def paddedDigits (width n : Nat) : String :=
  String.ofList (List.replicate (width - (toString n).length) '0') ++ toString n

/-- The time, by the calendar and in universal time. -/
def currentStamp : IO String := do
  let now := Std.Time.PlainDateTime.ofWallTime ((← Std.Time.Timestamp.now).toWallTime .zero)
  let date := [paddedDigits 4 now.date.year.toInt.toNat, paddedDigits 2 now.date.month.val.toNat,
    paddedDigits 2 now.date.day.val.toNat]
  let time := [now.time.hour.val, now.time.minute.val, now.time.second.val].map fun n =>
    paddedDigits 2 n.toNat
  return String.intercalate "-" date ++ "T" ++ String.intercalate ":" time ++ "." ++
    paddedDigits 6 (now.time.nanosecond.val / 1000).toNat ++ "+00:00"

end DesignTokens

open DesignTokens in
def main (args : List String) : IO UInt32 := do
  let here := Path.ofString (← IO.currentDir).toString
  let config ← IO.getEnv "DESIGN_SYNC_CONFIG"
  let elsewhere ← foldersOf here (config.toList ++ args)
  let w ← (here :: elsewhere).foldlM Workspace.gather { here }
  let o := w.run ⟨config, ← currentStamp⟩ args
  w.store o.workspace
  IO.print o.stdout
  IO.eprint o.stderr
  if o.untold.isSome then IO.eprintln "Error: an input is not what its use asks for"
  return UInt32.ofNat o.exitCode.toNat
