import DesignTokens.Drift.Violation
import DesignTokens.File.Path
import DesignTokens.Text.Glob
import DesignTokens.Text.Pattern

/-!
Pattern rules. A rule looks at files of some kinds, fires where its pattern is found, or where it is
not, and is silent in a file that has what it requires.
-/
namespace DesignTokens.Drift

open Text (Pattern)

/-- Whether the path or its last part fits one of the globs. -/
def matchesAny (path : String) (globs : List String) : Bool :=
  let p := Path.ofString path
  globs.any fun g => Text.globFits g p.text || Text.globFits g p.name

/-- Whether the path is one of the files, or ends in one of them. -/
def isModuleFile (path : String) (files : List String) : Bool :=
  let text := (Path.ofString path).text
  files.any fun f => text == f || (("/" ++ f).toList.isSuffixOf text.toList)

/-- The line of an offset, counted from one. -/
def lineOf (text : String) (offset : Nat) : Nat := (text.toList.take offset).count '\n' + 1

structure Rule where
  ruleId : String
  detect : Pattern
  message : String
  remediation : String
  severity : Severity := .hard
  /-- A file in which this is found needs no more. -/
  required : Option Pattern := none
  /-- Files that the rule does not look at, by the end of their paths. -/
  declarationFiles : List String := []
  filePatterns : List String := ["*.py", "*.ts", "*.tsx"]
  excludePatterns : List String := []
  firesWhenAbsent : Bool := false

namespace Rule

def appliesTo (r : Rule) (path : String) : Bool :=
  !isModuleFile path r.declarationFiles && !matchesAny path r.excludePatterns &&
    matchesAny path r.filePatterns

/-- Whether a text has what the rule requires; an empty pattern requires nothing. -/
def isSatisfied (r : Rule) (text : String) : Bool :=
  match r.required with
  | none | some .empty => false
  | some p => p.found text

/-- The violation of a rule in a file. -/
def violation (r : Rule) (path : String) (line : Option Nat) : Violation where
  ruleId := r.ruleId
  file := path
  severity := r.severity
  message := r.message
  remediation := r.remediation
  line := line.map Int.ofNat

/-- The violation in a file, at the first line that shows it. -/
def evaluate (r : Rule) (path text : String) : List Violation :=
  if !r.appliesTo path || r.isSatisfied text then []
  else match r.detect.search text with
    | some (start, _) =>
      if r.firesWhenAbsent then [] else [r.violation path (some (lineOf text start.offset))]
    | none => if r.firesWhenAbsent then [r.violation path none] else []

/-- The rule without its two patterns. -/
def toJson (r : Rule) : Json :=
  .obj [("rule_id", r.ruleId), ("message", r.message), ("remediation", r.remediation),
    ("severity", r.severity.name), ("allowed_declaration_files", .ofStrings r.declarationFiles),
    ("file_patterns", .ofStrings r.filePatterns), ("exclude_patterns", .ofStrings r.excludePatterns),
    ("fires_when_absent", .bool r.firesWhenAbsent)]

end Rule

/-- The violations of several rules in a file. -/
def evaluateAll (rules : List Rule) (path text : String) : List Violation :=
  rules.flatMap fun r => r.evaluate path text

/-- Rules without those that are disabled, and with severities by their names; the result is the
first value that names no severity. -/
def configure (rules : List Rule) (disabled : List String) (overrides : Table Json) :
    Except Json (List Rule) :=
  (rules.filter fun r => !disabled.contains r.ruleId).mapM fun r =>
    match Table.get? r.ruleId overrides with
    | none => .ok r
    | some v => match v with
      | .str name => match Severity.ofName? name with
        | some s => .ok { r with severity := s }
        | none => .error v
      | _ => .error v

end DesignTokens.Drift
