import DesignTokens.Json.Value

/-!
Values of variant axes. A value is addressed by its key; a text and a number may share one.
-/
namespace DesignTokens

inductive AxisValue where
  | text (s : String)
  | flag (b : Bool)
  | number (n : Number)
  deriving DecidableEq, Repr

namespace AxisValue

/-- The name under which a value's class and description are found. -/
def key : AxisValue → String
  | .text s => s
  | .flag true => "true"
  | .flag false => "false"
  | .number n => n.text

def toJson : AxisValue → Json
  | .text s => .str s
  | .flag b => .bool b
  | .number n => .num n

/-- Texts, truth values and numbers are values of an axis; all else is not. -/
def ofJson? : Json → Option AxisValue
  | .str s => some (.text s)
  | .bool b => some (.flag b)
  | .num n => some (.number n)
  | _ => none

/-- The value as messages show it. -/
def shown (v : AxisValue) : String := v.toJson.shown

def isFlag : AxisValue → Bool
  | .flag _ => true
  | _ => false

@[simp] theorem ofJson?_toJson (v : AxisValue) : ofJson? v.toJson = some v := by
  cases v <;> rfl

theorem toJson_of_ofJson? {j : Json} {v : AxisValue} (h : ofJson? j = some v) : v.toJson = j := by
  cases j <;> simp only [ofJson?, Option.some.injEq, reduceCtorEq] at h <;> subst h <;> rfl

end AxisValue

end DesignTokens
