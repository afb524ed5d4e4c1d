import DesignTokens.Json.Value
import DesignTokens.Text.Classes

/-!
Opacity modifiers in component sources: a colour utility with a percentage, such as
`hover:bg-brand/70`. Each pair of token and percentage gets one variable.
-/
namespace DesignTokens

/-- A token at a percentage, and the utility it was first used with. -/
structure OpacityModifier where
  token : String
  opacity : Nat
  utility : String
  deriving DecidableEq, Repr

namespace OpacityModifier

open Text

def variableName (m : OpacityModifier) : String :=
  "opacity-" ++ m.token ++ "-" ++ toString m.opacity

def isPartChar (c : Char) : Bool := isWord c || c == '-'

/-- Skips one variant with its colon. -/
def skipVariant? (cs : List Char) : Option (List Char) :=
  match cs.takeWhile isPartChar, cs.dropWhile isPartChar with
  | _ :: _, ':' :: rest => some rest
  | _, _ => none

/-- Skips variants as long as there are any. -/
def skipVariants (cs : List Char) : List Char :=
  match skipVariant? cs with
  | some rest => if rest.length < cs.length then skipVariants rest else cs
  | none => cs
termination_by cs.length

def utilities : List String := ["bg", "text", "border", "ring"]

/-- A colour utility with its hyphen, and what follows. -/
def utility? (cs : List Char) : Option (String × List Char) :=
  utilities.findSome? fun u =>
    let lead := u.toList ++ ['-']
    if lead.isPrefixOf cs then some (u, cs.drop lead.length) else none

/-- The value of up to three digits, which neither a word character nor a point may follow. -/
def percentage? (cs : List Char) : Option (Nat × List Char) :=
  let digits := (cs.take 3).takeWhile isDecimal
  let rest := cs.drop digits.length
  if digits.isEmpty || rest.head?.any (fun c => isWord c || c == '.') then none
  else some (digits.foldl (fun n c => 10 * n + (digitValue? c).getD 0) 0, rest)

/-- A modifier at the start of a text, and what follows it. -/
def scan? (cs : List Char) : Option (OpacityModifier × List Char) := do
  let cs := skipVariants cs
  let cs := match cs with
    | '!' :: rest => rest
    | cs => cs
  let (utility, cs) ← utility? cs
  let token := cs.takeWhile isPartChar
  match token, cs.dropWhile isPartChar with
  | c :: _, '/' :: rest =>
    if isAsciiLetter c then
      let (opacity, rest) ← percentage? rest
      some (⟨String.ofList token, opacity, utility⟩, rest)
    else none
  | _, _ => none

/-- The modifiers of a text. None starts inside a word; `inWord` tells whether the character before
was part of one. -/
def scanAll (inWord : Bool) : List Char → List OpacityModifier
  | [] => []
  | c :: cs =>
    match (if inWord then none else scan? (c :: cs)) with
    | some (m, rest) =>
      if rest.length ≤ cs.length then m :: scanAll true rest
      else scanAll (isPartChar c) cs
    | none => scanAll (isPartChar c) cs
termination_by cs => cs.length
decreasing_by all_goals simp only [List.length_cons]; omega

/-- Keeps the first modifier of each variable. -/
def distinct (ms : List OpacityModifier) : List OpacityModifier :=
  (ms.foldl (fun kept m =>
    if kept.any (·.variableName == m.variableName) then kept else m :: kept) []).reverse

/-- The modifiers of one source in the order of first use; a percentage is at most 100. -/
def ofSource (source : String) : List OpacityModifier :=
  distinct ((scanAll false source.toList).filter (·.opacity ≤ 100))

/-- By token, then by percentage. -/
def le (a b : OpacityModifier) : Bool :=
  if a.token < b.token then true
  else if b.token < a.token then false
  else a.opacity ≤ b.opacity

/-- The modifiers of several sources, sorted. -/
def ofSources (sources : List String) : List OpacityModifier :=
  (distinct (sources.flatMap ofSource)).mergeSort le

def toJson (m : OpacityModifier) : Json :=
  .obj [("token", m.token), ("opacity", .ofNat m.opacity), ("utility", m.utility),
    ("variableName", m.variableName)]

end OpacityModifier

end DesignTokens
