import DesignTokens.Proofs.Style.Fields
import DesignTokens.Proofs.Utility.Tokens

/-!
What tokens leave, as runs of updates. The base style is made by the updates of tokens without a
variant, and the style of each state by those of the tokens of that state; dropped tokens make none.
-/
namespace DesignTokens

/-- Scales with one name each. -/
def Theme.Scales.plain : Theme.Scales where
  spacing := ⟨4, 0.25, [("px", 1)]⟩
  borderRadius := [("lg", 8)]
  fontSize := [("base", 16)]
  fontWeight := [("bold", 700)]
  shadows := []

namespace Utility

open Style (Field)

namespace Outcome

/-- The update that the base style gets. -/
def base? : Outcome → Option (Update Number)
  | .base u => some u
  | _ => none

/-- The update that a state gets. -/
def state? (v : String) : Outcome → Option (Update Number)
  | .state name u => if name = v then some u else none
  | _ => none

def isDropped : Outcome → Bool
  | .dropped _ => true
  | _ => false

theorem base?_eq_some {o : Outcome} {u : Update Number} : o.base? = some u ↔ o = .base u := by
  cases o <;> simp [base?]

theorem state?_eq_some {v : String} {o : Outcome} {u : Update Number} :
    o.state? v = some u ↔ o = .state v u := by
  cases o with
  | state name w => by_cases h : name = v <;> simp [state?, h]
  | _ => simp [state?]

theorem base_apply (o : Outcome) (a : Appearance Number) :
    (o.apply a).base = o.base?.toList.foldl Update.apply a.base := by
  cases o <;> rfl

theorem get?_states_apply (v : String) (o : Outcome) (a : Appearance Number) :
    Table.get? v (o.apply a).states = match o.state? v with
      | some u => some (u.apply ((Table.get? v a.states).getD {}))
      | none => Table.get? v a.states := by
  cases o with
  | state name u =>
    by_cases h : name = v
    · subst h; simp [apply, state?]
    · simp [apply, state?, h, Table.get?_put_of_ne (Ne.symm h)]
  | _ => rfl

end Outcome

variable (scales : Theme.Scales) (settings : Settings)

/-- A token acts on the base style if it has no variant and its utility means an update. -/
theorem outcome_eq_base_iff {t : Token} {u : Update Number} :
    outcome scales settings t = .base u ↔
      t.malformed = false ∧ t.variants = [] ∧ utilityMeaning scales settings t = .ok u := by
  cases hm : t.malformed with
  | true => simp [outcome, hm]
  | false =>
    rcases hv : t.variants with _ | ⟨v, _ | ⟨w, vs⟩⟩
    · cases hu : utilityMeaning scales settings t <;> simp [outcome, hm, hv, hu]
    · by_cases hs : v ∈ settings.stateVariants <;>
        cases hu : utilityMeaning scales settings t <;> simp [outcome, hm, hv, hu, hs]
    · simp [outcome, hm, hv]

/-- It acts on a state if that is its one variant. -/
theorem outcome_eq_state_iff {t : Token} {v : String} {u : Update Number} :
    outcome scales settings t = .state v u ↔
      t.malformed = false ∧ t.variants = [v] ∧ v ∈ settings.stateVariants ∧
        utilityMeaning scales settings t = .ok u := by
  cases hm : t.malformed with
  | true => simp [outcome, hm]
  | false =>
    rcases hv : t.variants with _ | ⟨w, _ | ⟨x, vs⟩⟩
    · cases hu : utilityMeaning scales settings t <;> simp [outcome, hm, hv, hu]
    · by_cases hw : w = v
      · subst hw
        by_cases hs : w ∈ settings.stateVariants <;>
          cases hu : utilityMeaning scales settings t <;> simp [outcome, hm, hv, hu, hs]
      · by_cases hs : w ∈ settings.stateVariants <;>
          cases hu : utilityMeaning scales settings t <;> simp [outcome, hm, hv, hu, hs, hw]
    · simp [outcome, hm, hv]

/-- The updates of the base style, one after the other. -/
def baseUpdates (ts : List Token) : List (Update Number) :=
  ts.filterMap fun t => (outcome scales settings t).base?

/-- The updates of the style of a state. -/
def stateUpdates (v : String) (ts : List Token) : List (Update Number) :=
  ts.filterMap fun t => (outcome scales settings t).state? v

@[simp] theorem baseUpdates_cons (t : Token) (ts : List Token) :
    baseUpdates scales settings (t :: ts) =
      (outcome scales settings t).base?.toList ++ baseUpdates scales settings ts := by
  simp only [baseUpdates, List.filterMap_cons]
  cases (outcome scales settings t).base? <;> rfl

@[simp] theorem stateUpdates_cons (v : String) (t : Token) (ts : List Token) :
    stateUpdates scales settings v (t :: ts) =
      ((outcome scales settings t).state? v).toList ++ stateUpdates scales settings v ts := by
  simp only [stateUpdates, List.filterMap_cons]
  cases (outcome scales settings t).state? v <;> rfl

/-- The style that some updates make of another one. -/
def run (us : List (Update Number)) (s : Style Number) : Style Number := us.foldl Update.apply s

@[simp] theorem run_nil (s : Style Number) : run [] s = s := rfl
@[simp] theorem run_cons (u : Update Number) (us : List (Update Number)) (s : Style Number) :
    run (u :: us) s = run us (u.apply s) := rfl

theorem run_append (us vs : List (Update Number)) (s : Style Number) :
    run (us ++ vs) s = run vs (run us s) := List.foldl_append

/-- Where every update decides a value or leaves it, the last one that decides counts. -/
theorem findSome?_run {β : Type} (get : Style Number → Option β)
    (decides? : Update Number → Option β)
    (h : ∀ u s, get (u.apply s) = (decides? u).or (get s)) (us : List (Update Number))
    (s : Style Number) : get (run us s) = (us.reverse.findSome? decides?).or (get s) := by
  induction us generalizing s with
  | nil => rfl
  | cons u us ih =>
    rw [run_cons, ih, h, List.reverse_cons, List.findSome?_append, Option.or_assoc]
    simp

@[simp] theorem appearanceOf_nil (a : Appearance Number) : appearanceOf scales settings [] a = a := rfl
@[simp] theorem appearanceOf_cons (t : Token) (ts : List Token) (a : Appearance Number) :
    appearanceOf scales settings (t :: ts) a =
      appearanceOf scales settings ts ((outcome scales settings t).apply a) := rfl

theorem base_appearanceOf (ts : List Token) (a : Appearance Number) :
    (appearanceOf scales settings ts a).base = run (baseUpdates scales settings ts) a.base := by
  induction ts generalizing a with
  | nil => rfl
  | cons t ts ih => rw [appearanceOf_cons, ih, Outcome.base_apply, baseUpdates_cons, run_append]; rfl

/-- A state has a style once one of its tokens is applied. -/
theorem get?_states_appearanceOf (v : String) (ts : List Token) (a : Appearance Number) :
    Table.get? v (appearanceOf scales settings ts a).states =
      if stateUpdates scales settings v ts = [] then Table.get? v a.states
      else some (run (stateUpdates scales settings v ts) ((Table.get? v a.states).getD {})) := by
  induction ts generalizing a with
  | nil => rfl
  | cons t ts ih =>
    rw [appearanceOf_cons, ih, Outcome.get?_states_apply, stateUpdates_cons]
    cases (outcome scales settings t).state? v with
    | none => rfl
    | some u => by_cases h : stateUpdates scales settings v ts = [] <;> simp [h]

/-- Tokens without variants know no states. -/
theorem states_appearanceOf {ts : List Token} (h : ∀ t ∈ ts, t.variants = [])
    (a : Appearance Number) : (appearanceOf scales settings ts a).states = a.states := by
  induction ts generalizing a with
  | nil => rfl
  | cons t ts ih =>
    rw [appearanceOf_cons, ih (fun x hx => h x (by simp [hx]))]
    cases ho : outcome scales settings t with
    | state v u =>
      have hv := ((outcome_eq_state_iff scales settings).mp ho).2.1
      simp [h t (by simp)] at hv
    | _ => rfl

/-- The parts of a parse, as runs over the tokens. -/
theorem base_parse (classes : String) :
    (parse scales settings classes).appearance.base =
      run (baseUpdates scales settings (tokens classes)) {} :=
  base_appearanceOf scales settings (tokens classes) {}

theorem get?_states_parse (v classes : String) :
    Table.get? v (parse scales settings classes).appearance.states =
      if stateUpdates scales settings v (tokens classes) = [] then none
      else some (run (stateUpdates scales settings v (tokens classes)) {}) :=
  get?_states_appearanceOf scales settings v (tokens classes) {}

/-- A word alone does to an empty appearance what its token stands for. -/
theorem parse_of_isWord {w : String} (h : Text.IsWord w) :
    parse scales settings w =
      ⟨(outcome scales settings (Token.ofString w)).apply {},
        ((outcome scales settings (Token.ofString w)).warning? w).toList⟩ := by
  rw [parse, tokens_of_isWord h]
  simp only [appearanceOf_cons, appearanceOf_nil, warningsOf, List.filterMap_cons, raw_ofString]
  cases (outcome scales settings (Token.ofString w)).warning? w <;> rfl

end Utility

end DesignTokens
