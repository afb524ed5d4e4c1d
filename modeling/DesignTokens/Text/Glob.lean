/-!
Globs: patterns over whole names. A star stands for any characters, a question mark for one, and a
bracketed set for one of its characters or ranges, or for any other one after an exclamation mark.
-/
namespace DesignTokens.Text

/-- A character or a range of characters. -/
inductive GlobItem where
  | char (c : Char)
  | range (low high : Char)
  deriving DecidableEq, Repr

def GlobItem.has (c : Char) : GlobItem → Bool
  | .char d => c == d
  | .range low high => low ≤ c && c ≤ high

inductive GlobPart where
  | star
  | any
  | char (c : Char)
  | set (negated : Bool) (items : List GlobItem)
  deriving DecidableEq, Repr

def GlobPart.fits (c : Char) : GlobPart → Bool
  | .star | .any => true
  | .char d => c == d
  | .set negated items => items.any (GlobItem.has c) != negated

namespace Glob

/-- The text before and after the first hyphen at or beyond an offset. -/
def cutHyphen? (skip : Nat) (cs : List Char) : Option (List Char × List Char) :=
  let tail := cs.drop skip
  let lead := tail.takeWhile (· != '-')
  match tail.drop lead.length with
  | '-' :: rest => some (cs.take skip ++ lead, rest)
  | _ => none

/-- The stretches between the hyphens that stand for ranges: none of them is the first character,
nor one of the two that follow such a hyphen. -/
def chunks : Nat → Nat → List Char → List (List Char)
  | 0, _, cs => [cs]
  | fuel + 1, skip, cs => match cutHyphen? skip cs with
    | some (lead, rest) => lead :: chunks fuel 2 rest
    | none => [cs]

/-- A hyphen at the very end stands for itself. -/
def closeLast : List (List Char) → List (List Char)
  | [] => []
  | [c] => [c]
  | [c, []] => [c ++ ['-']]
  | c :: cs => c :: closeLast cs

/-- Joins stretches whose range would be empty, from the last one on. -/
def dropEmptyRanges : List (List Char) → List (List Char)
  | [] => []
  | c :: cs => match dropEmptyRanges cs with
    | [] => [c]
    | d :: ds => match c.getLast?, d.head? with
      | some high, some low => if low < high then (c.dropLast ++ d.tail) :: ds else c :: d :: ds
      | _, _ => c :: d :: ds

/-- The items of a stretch and of those after it: between two of them lies a range, all other
characters are single. -/
def itemsFrom (c : List Char) : List (List Char) → List GlobItem
  | [] => c.map .char
  | d :: ds => match c.getLast?, d with
    | some low, high :: rest => c.dropLast.map .char ++ .range low high :: itemsFrom rest ds
    | _, _ => c.map .char ++ itemsFrom d ds

def itemsOf : List (List Char) → List GlobItem
  | [] => []
  | c :: cs => itemsFrom c cs

/-- The part that a bracketed text stands for. -/
def setOf (content : List Char) : GlobPart :=
  let stretches :=
    if content.contains '-' then
      let skip := if content.head? == some '!' then 2 else 1
      dropEmptyRanges (closeLast (chunks content.length skip content))
    else [content]
  match stretches with
  | [['!']] => .any
  | ('!' :: c) :: cs => .set true (itemsOf (c :: cs))
  | cs => .set false (itemsOf cs)

/-- The content of a bracketed set, whose closing bracket is not its first character, and the
number of characters up to that bracket. -/
def bracketed? (cs : List Char) : Option (List Char) :=
  let lead := match cs with
    | '!' :: ']' :: _ => 2
    | '!' :: _ => 1
    | ']' :: _ => 1
    | _ => 0
  let tail := cs.drop lead
  let body := tail.takeWhile (· != ']')
  if body.length < tail.length then some (cs.take lead ++ body) else none

/-- The parts of a glob. -/
def parts : List Char → List GlobPart
  | [] => []
  | c :: cs =>
    if c == '*' then .star :: parts cs
    else if c == '?' then .any :: parts cs
    else if c == '[' then
      match bracketed? cs with
      | some content => setOf content :: parts (cs.drop (content.length + 1))
      | none => .char c :: parts cs
    else .char c :: parts cs
termination_by cs => cs.length
decreasing_by all_goals simp; try omega

/-- Whether a whole text fits. -/
def fits : List GlobPart → List Char → Bool
  | [], cs => cs.isEmpty
  | .star :: ps, [] => fits ps []
  | .star :: ps, c :: cs => fits ps (c :: cs) || fits (.star :: ps) cs
  | _ :: _, [] => false
  | p :: ps, c :: cs => p.fits c && fits ps cs
termination_by ps cs => ps.length + cs.length

end Glob

/-- Whether a name fits a glob. -/
def globFits (glob name : String) : Bool := Glob.fits (Glob.parts glob.toList) name.toList

end DesignTokens.Text
