import DesignTokens.Registry.Value
import DesignTokens.Text.Quoted

/-!
Checks that go on after a fault. A check ends with a value, or with every problem that it met, in
the order in which it met them.
-/
namespace DesignTokens.Registry

/-- The three kinds of entries. -/
inductive EntryKind where
  | component
  | prop
  | subComponent
  deriving DecidableEq, Repr

def EntryKind.name : EntryKind → String
  | .component => "ComponentSchema"
  | .prop => "PropSchema"
  | .subComponent => "SubComponentSchema"

/-- What an axis gives for each of its values. -/
inductive AxisTable where
  | classes
  | descriptions
  deriving DecidableEq, Repr

def AxisTable.name : AxisTable → String
  | .classes => "classes"
  | .descriptions => "descriptions"

/-- How the parts of a variant axis fail to fit each other. -/
inductive AxisFault where
  | noValues
  | repeatedKeys (keys : List String)
  | noDefault (keys : List String)
  | foreignDefault (default : AxisValue) (keys : List String)
  | lacking (table : AxisTable) (keys : List String)
  | superfluous (table : AxisTable) (keys : List String)
  deriving DecidableEq, Repr

def AxisFault.message : AxisFault → String
  | .noValues => "variant axis declares no values"
  | .repeatedKeys keys => "duplicate values " ++ Text.quoteList keys
  | .noDefault keys => "missing default; expected one of " ++ Text.quoteList keys
  | .foreignDefault v keys => "default " ++ v.shown ++ " is not one of " ++ Text.quoteList keys
  | .lacking table keys => table.name ++ " missing for values " ++ Text.quoteList keys
  | .superfluous table keys => table.name ++ " declared for unknown values " ++ Text.quoteList keys

inductive Complaint where
  | notText
  | notInteger
  | notNumber
  | notBoolean
  /-- A text or a number that stands for no truth value. -/
  | unreadableBoolean
  | notList
  | notObject
  | notEntry (kind : EntryKind)
  | missing
  | axis (f : AxisFault)
  deriving DecidableEq, Repr

def Complaint.message : Complaint → String
  | .notText => "Input should be a valid string"
  | .notInteger => "Input should be a valid integer"
  | .notNumber => "Input should be a valid number"
  | .notBoolean => "Input should be a valid boolean"
  | .unreadableBoolean => "Input should be a valid boolean, unable to interpret input"
  | .notList => "Input should be a valid list"
  | .notObject => "Input should be a valid dictionary"
  | .notEntry kind => "Input should be a valid dictionary or instance of " ++ kind.name
  | .missing => "Field required"
  | .axis f => f.message

/-- A complaint, and the names that lead to what it is about. -/
structure Problem where
  path : List String
  complaint : Complaint
  deriving DecidableEq, Repr

inductive Checked (α : Type) where
  | valid (a : α)
  | invalid (first : Problem) (more : List Problem)
  deriving Repr

namespace Checked

variable {α β : Type}

def fail (c : Complaint) : Checked α := .invalid ⟨[], c⟩ []

def problems : Checked α → List Problem
  | .valid _ => []
  | .invalid p ps => p :: ps

/-- The problems of both checks, first those of the function. -/
def ap (f : Checked (α → β)) (x : Checked α) : Checked β :=
  match f, x with
  | .valid f, .valid a => .valid (f a)
  | .valid _, .invalid p ps => .invalid p ps
  | .invalid p ps, x => .invalid p (ps ++ x.problems)

instance : Applicative Checked where
  pure := .valid
  seq f x := ap f (x ())

/-- The check of what stands under a name. -/
def under (name : String) : Checked α → Checked α
  | .valid a => .valid a
  | .invalid p ps =>
    let deeper (p : Problem) : Problem := ⟨name :: p.path, p.complaint⟩
    .invalid (deeper p) (ps.map deeper)

/-- The checks of all items, one after the other. -/
def each (check : α → Checked β) : List α → Checked (List β)
  | [] => .valid []
  | x :: xs => List.cons <$> check x <*> each check xs

@[simp] theorem problems_ap (f : Checked (α → β)) (x : Checked α) :
    (f.ap x).problems = f.problems ++ x.problems := by
  cases f <;> cases x <;> simp [ap, problems]

@[simp] theorem problems_under (name : String) (x : Checked α) :
    (x.under name).problems = x.problems.map fun p => ⟨name :: p.path, p.complaint⟩ := by
  cases x <;> rfl

end Checked

end DesignTokens.Registry
