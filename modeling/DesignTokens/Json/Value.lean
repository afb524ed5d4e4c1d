import DesignTokens.Number
import DesignTokens.Table
import DesignTokens.Text.Quoted

/-!
JSON values. Objects keep the order of their names, and each name occurs once.
-/
namespace DesignTokens

inductive Json where
  | null
  | bool (b : Bool)
  | num (n : Number)
  | str (s : String)
  | arr (items : List Json)
  | obj (fields : List (String × Json))
  deriving Repr, Inhabited

namespace Json

instance : Coe String Json := ⟨.str⟩

def ofInt (n : Int) : Json := .num (.int n)

def ofNat (n : Nat) : Json := .num (.int n)

def ofFloat (x : Float) : Json := .num (.float x)

def ofOption : Option Json → Json
  | some v => v
  | none => .null

/-- A table as pairs, which keep their order. -/
def ofPairs (t : Table Json) : Json := .arr (t.map fun (k, v) => .arr [.str k, v])

def ofStrings (xs : List String) : Json := .arr (xs.map .str)

/-- The member of an object. -/
def field? (key : String) : Json → Option Json
  | .obj fields => Table.get? key fields
  | _ => none

/-- A truth value counts as one or zero where numbers are compared. -/
def number? : Json → Option Number
  | .bool b => some (if b then 1 else 0)
  | .num n => some n
  | _ => none

/-- Whether a value counts as true: all do but null, false, zero and what is empty. -/
def truthy : Json → Bool
  | .null => false
  | .bool b => b
  | .num n => !n.isZero
  | .str s => s != ""
  | .arr items => !items.isEmpty
  | .obj fields => !fields.isEmpty

mutual

/-- Equality of values: numbers by value, objects without regard to order. -/
def same : Json → Json → Bool
  | .null, .null => true
  | .str a, .str b => a == b
  | .arr xs, .arr ys => sameItems xs ys
  | .obj fs, .obj gs => fs.length == gs.length && sameFields fs gs
  | a, b => match a.number?, b.number? with
    | some m, some n => m == n
    | _, _ => false

def sameItems : List Json → List Json → Bool
  | [], [] => true
  | x :: xs, y :: ys => same x y && sameItems xs ys
  | _, _ => false

def sameFields : Table Json → Table Json → Bool
  | [], _ => true
  | (k, x) :: fs, gs => (match Table.get? k gs with
    | some y => same x y
    | none => false) && sameFields fs gs

end

mutual

/-- A value as messages show it. -/
def shown : Json → String
  | .null => "None"
  | .bool b => if b then "True" else "False"
  | .num n => n.text
  | .str s => Text.quote s
  | .arr items => "[" ++ String.intercalate ", " (shownItems items) ++ "]"
  | .obj fields => "\x7b" ++ String.intercalate ", " (shownFields fields) ++ "\x7d"

def shownItems : List Json → List String
  | [] => []
  | x :: xs => shown x :: shownItems xs

def shownFields : Table Json → List String
  | [] => []
  | (k, x) :: fs => (Text.quote k ++ ": " ++ shown x) :: shownFields fs

end

/-- A value inside a sentence: a text stands without quotes. -/
def plainText : Json → String
  | .str s => s
  | v => v.shown

end Json

end DesignTokens
