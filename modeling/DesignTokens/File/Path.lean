import DesignTokens.Text.Words

/-!
Paths of files. Single dots and doubled separators do not count; two dots are kept, until a path is
resolved.
-/
namespace DesignTokens

/-- Where a path starts: here, at the root, or at the root that two separators name. -/
inductive Anchor where
  | relative
  | root
  | doubleRoot
  deriving DecidableEq, Repr

def Anchor.text : Anchor → String
  | .relative => ""
  | .root => "/"
  | .doubleRoot => "//"

structure Path where
  anchor : Anchor
  parts : List String
  deriving DecidableEq, Repr

namespace Path

def anchorOf (s : String) : Anchor :=
  match s.toList with
  | '/' :: '/' :: '/' :: _ => .root
  | '/' :: '/' :: _ => .doubleRoot
  | '/' :: _ => .root
  | _ => .relative

def ofString (s : String) : Path :=
  ⟨anchorOf s, (Text.splitOn s '/').filter fun p => p != "" && p != "."⟩

instance : Coe String Path := ⟨ofString⟩

/-- The text of a path; the empty path is a dot. -/
def text (p : Path) : String :=
  if p.anchor = .relative && p.parts.isEmpty then "."
  else p.anchor.text ++ String.intercalate "/" p.parts

/-- The last part, if there is one. -/
def name (p : Path) : String := p.parts.getLast?.getD ""

def isAbsolute (p : Path) : Bool := p.anchor ≠ .relative

/-- The second path as seen from the first. -/
def join (p q : Path) : Path := if q.isAbsolute then q else ⟨p.anchor, p.parts ++ q.parts⟩

/-- The path of something in the folder at a path. -/
def child (p : Path) (name : String) : Path := ⟨p.anchor, p.parts ++ [name]⟩

def parent (p : Path) : Path := ⟨p.anchor, p.parts.dropLast⟩

/-- Drops two dots together with the part in front of them; at the root they are dropped alone. -/
def climb (parts : List String) : List String :=
  (parts.foldl (fun (up : List String) part => if part == ".." then up.tail else part :: up)
    []).reverse

/-- The path from the root, seen from the directory `here`. -/
def resolve (p here : Path) : Path :=
  let q := here.join p
  ⟨.root, climb q.parts⟩

/-- What leads from the directory `base` to the path, if it lies below. -/
def relativeTo? (base p : Path) : Option Path :=
  if p.anchor = base.anchor && base.parts.isPrefixOf p.parts then
    some ⟨.relative, p.parts.drop base.parts.length⟩
  else none

/-- By anchor, then part by part. -/
def le (p q : Path) : Bool :=
  let key (p : Path) : List String := if p.isAbsolute then p.anchor.text :: p.parts else p.parts
  !(key q).lex (key p) fun a b => decide (a < b)

end Path

end DesignTokens
