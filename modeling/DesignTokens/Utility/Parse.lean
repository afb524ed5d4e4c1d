import DesignTokens.Style.Data
import DesignTokens.Utility.Meaning

/-!
Parsing class strings. The tokens act from left to right, so that a later one overrides an earlier
one; a token that cannot be used leaves a warning and nothing else.
-/
namespace DesignTokens.Utility

/-- A token that was dropped. -/
structure Warning where
  token : String
  reason : String
  deriving DecidableEq, Repr

def Warning.text (w : Warning) : String := w.token ++ ": " ++ w.reason

/-- A style and the warnings that came up. -/
structure Parsed where
  appearance : Appearance Number := {}
  warnings : List Warning := []
  deriving Repr

/-- An appearance after an update of its base style or of one state. -/
def Outcome.apply (a : Appearance Number) : Outcome → Appearance Number
  | .dropped _ => a
  | .base u => { a with base := u.apply a.base }
  | .state name u =>
    { a with states := Table.put name (u.apply ((Table.get? name a.states).getD {})) a.states }

/-- The warning of an outcome, if the token is dropped. -/
def Outcome.warning? (raw : String) : Outcome → Option Warning
  | .dropped reason => some ⟨raw, reason⟩
  | _ => none

variable (scales : Theme.Scales) (settings : Settings)

/-- What the tokens leave, one after the other. -/
def appearanceOf (ts : List Token) (start : Appearance Number) : Appearance Number :=
  ts.foldl (fun a t => (outcome scales settings t).apply a) start

/-- The warnings of the tokens; none depends on its neighbours. -/
def warningsOf (ts : List Token) : List Warning :=
  ts.filterMap fun t => (outcome scales settings t).warning? t.raw

/-- Parses a class string. -/
def parse (classes : String) : Parsed :=
  let ts := tokens classes
  ⟨appearanceOf scales settings ts {}, warningsOf scales settings ts⟩

/-- Parses several class strings as one; absent and empty ones do not count. -/
def parseMany (classes : List (Option String)) : Appearance Number :=
  (parse scales settings
    (String.intercalate " " (classes.filterMap fun s => s.filter (· != "")))).appearance

/-- Parses a value that should be a class string. -/
def parseJson (v : Json) : Parsed :=
  match v with
  | .str s => parse scales settings s
  | v => ⟨{}, [⟨v.shown, "not a string"⟩]⟩

end DesignTokens.Utility
