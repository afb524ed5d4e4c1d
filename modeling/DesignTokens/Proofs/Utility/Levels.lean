import DesignTokens.Proofs.Tables
import DesignTokens.Proofs.Utility.Meanings
import DesignTokens.Proofs.Utility.Updates

/-!
Specificity. A padding, a margin, a gap or a corner radius is found on several levels, each of which
a utility of its own sets. Of the levels that are set the most specific one counts, and on a level
the last token; how the tokens of different levels are mixed does not matter.
-/
namespace DesignTokens

namespace Style

/-- A length that one utility sets. -/
inductive Level where
  | padding (part : BoxPart)
  | margin (part : BoxPart)
  | gap (part : GapPart)
  | radius (part : RadiusPart)
  deriving DecidableEq, Repr

/-- What is drawn from such lengths: the padding and the margin of a side, the gap of an axis and
the radius of a corner. -/
inductive Place where
  | padding (s : Side)
  | margin (s : Side)
  | gap (a : Axis)
  | radius (c : Corner)
  deriving DecidableEq, Repr

variable {α : Type}

def Level.get (s : Style α) : Level → Option α
  | .padding part => s.padding.get part
  | .margin part => s.margin.get part
  | .gap part => s.gaps.get part
  | .radius part => s.radii.get part

theorem Level.get_empty (l : Level) : l.get ({} : Style α) = none := by
  cases l with
  | padding part | margin part =>
    cases part with
    | whole => rfl
    | axis a => cases a <;> rfl
    | side s => cases s <;> rfl
  | gap part =>
    cases part with
    | whole => rfl
    | axis a => cases a <;> rfl
  | radius part =>
    cases part with
    | whole => rfl
    | side s => cases s <;> rfl
    | corner c => cases c <;> rfl

namespace Place

def resolved (s : Style α) : Place → Option α
  | .padding side => s.padding.resolved side
  | .margin side => s.margin.resolved side
  | .gap a => s.gaps.resolved a
  | .radius c => s.radii.resolved c

/-- The levels that cover a place, the most specific one first. -/
def levels : Place → List Level
  | .padding s => [.padding (.side s), .padding (.axis s.axis), .padding .whole]
  | .margin s => [.margin (.side s), .margin (.axis s.axis), .margin .whole]
  | .gap a => [.gap (.axis a), .gap .whole]
  | .radius c =>
    [.radius (.corner c), .radius (.side c.vertical), .radius (.side c.horizontal), .radius .whole]

/-- A place has the first length that is set on its levels, be it zero. -/
theorem resolved_eq_findSome? (s : Style α) (p : Place) :
    p.resolved s = p.levels.findSome? (Level.get s) := by
  have hcons (l : Level) (ls : List Level) :
      (l :: ls).findSome? (Level.get s) = (l.get s).or (ls.findSome? (Level.get s)) := by
    rw [List.findSome?_cons]
    cases l.get s <;> rfl
  cases p <;>
    simp only [levels, hcons, List.findSome?_nil, Option.or_none, resolved, Box.resolved,
      Gaps.resolved, Radii.resolved, Option.orElse_eq_orElse, Option.orElse_eq_or] <;> rfl

end Place

end Style

namespace Utility

open Style (Level Place)

/-! ### What a run of updates leaves on a level -/

section

variable {α : Type}

/-- The length that an update sets on a level. -/
def Update.length? : Update α → Level → Option α
  | .padding part px, .padding q => if q = part then some px else none
  | .margin part px, .margin q => if q = part then some px else none
  | .gap part px, .gap q => if q = part then some px else none
  | .radius part px, .radius q => if q = part then some px else none
  | _, _ => none

theorem Update.get_apply (u : Update α) (s : Style α) (l : Level) :
    l.get (u.apply s) = (u.length? l).or (l.get s) := by
  cases u with
  | padding part px =>
    cases l with
    | padding q =>
      change (s.padding.set px part).get q =
        (if q = part then some px else none).or (s.padding.get q)
      rw [Box.get_set]
      split <;> rfl
    | _ => rfl
  | margin part px =>
    cases l with
    | margin q =>
      change (s.margin.set px part).get q = (if q = part then some px else none).or (s.margin.get q)
      rw [Box.get_set]
      split <;> rfl
    | _ => rfl
  | gap part px =>
    cases l with
    | gap q =>
      change (s.gaps.set px part).get q = (if q = part then some px else none).or (s.gaps.get q)
      rw [Gaps.get_set]
      split <;> rfl
    | _ => rfl
  | radius part px =>
    cases l with
    | radius q =>
      change (s.radii.set px part).get q = (if q = part then some px else none).or (s.radii.get q)
      rw [Radii.get_set]
      split <;> rfl
    | _ => rfl
  | _ => cases l <;> rfl

end

/-! ### The tokens of a level -/

/-- The family of the utility that sets a level. -/
def levelFamily : Level → Family
  | .padding part => .padding part
  | .margin part => .margin part
  | .gap part => .gap part
  | .radius part => .radius part

variable (scales : Theme.Scales) (settings : Settings)

/-- Whether the lengths of a level may be negated. -/
def isSigned : Level → Bool
  | .margin _ => true
  | _ => false

/-- The length that a value stands for on a level, without its sign. -/
def unsignedLength? (t : Token) (value : String) : Level → Option Float
  | .radius _ => radiusValue scales settings t value
  | _ => spacingValue scales settings t value

/-- The length that a value stands for on a level. No level takes a modifier, and only a signed one
takes a sign. -/
def levelLength? (t : Token) (value : String) (l : Level) : Option Number :=
  if t.negative && !isSigned l || t.modifier.isSome then none
  else (unsignedLength? scales settings t value l).map fun px =>
    .float (if t.negative then -px else px)

/-- The length that a token gives to the base style on a level, if it is applied there. -/
def givenLength? (l : Level) (t : Token) : Option Number :=
  if t.malformed || !t.variants.isEmpty then none
  else match lookup? vocabulary t.utility with
    | some (family, value) =>
      if family = levelFamily l then levelLength? scales settings t value l else none
    | none => none

variable {scales settings} {t : Token} {value : String}

/-- A length on a level comes from the family of the level. -/
theorem Family.Yields.eq_levelFamily {family : Family} {u : Update Number} {l : Level} {px : Number}
    (h : family.Yields u) (hl : u.length? l = some px) : family = levelFamily l := by
  cases h <;> cases l <;> simp only [Update.length?, reduceCtorEq] at hl
  all_goals
    split at hl
    · rename_i hpart
      subst hpart
      rfl
    · cases hl

theorem length?_spacing {signed : Bool} (update : Number → Update Number) {l : Level}
    (h : ∀ px, (update px).length? l = some px) :
    (spacing scales settings signed update t value).toOption.bind (·.length? l) =
      if t.negative && !signed || t.modifier.isSome then none
      else (spacingValue scales settings t value).map fun px =>
        .float (if t.negative then -px else px) := by
  rw [spacing]
  by_cases hsign : (t.negative && !signed) = true
  · rw [if_pos hsign, hsign]
    rfl
  by_cases hmodifier : t.modifier.isSome = true
  · rw [if_neg hsign, if_pos hmodifier, hmodifier, Bool.or_true]
    rfl
  rw [if_neg hsign, if_neg hmodifier, if_neg (by simp [hsign, hmodifier])]
  cases spacingValue scales settings t value with
  | none => rfl
  | some px => exact h _

theorem length?_radius (part : RadiusPart) :
    (radius scales settings part t value).toOption.bind (·.length? (.radius part)) =
      levelLength? scales settings t value (.radius part) := by
  simp only [radius, levelLength?, isSigned, Bool.not_false, Bool.and_true]
  split
  · rfl
  rename_i hmarks
  have hpositive : t.negative = false := by simp_all
  rw [hpositive]
  cases h : radiusValue scales settings t value with
  | none => simp [unsignedLength?, h, Except.toOption]
  | some px => simp [unsignedLength?, h, Except.toOption, Update.length?]

/-- Within its family a value means the length that it stands for. -/
theorem length?_familyMeaning (l : Level) :
    (familyMeaning scales settings t value (levelFamily l)).toOption.bind (·.length? l) =
      levelLength? scales settings t value l := by
  cases l with
  | radius part => exact length?_radius part
  | padding part => exact length?_spacing (.padding part) fun px => if_pos rfl
  | margin part => exact length?_spacing (.margin part) fun px => if_pos rfl
  | gap part => exact length?_spacing (.gap part) fun px => if_pos rfl

theorem layoutKeywords_not_utilities :
    ∀ p ∈ layoutKeywords, lookup? vocabulary p.1 = none := by decide +kernel

theorem length?_layoutKeywords : ∀ p ∈ layoutKeywords, ∀ l, p.2.length? l = none := by
  simp [layoutKeywords, Update.length?]

theorem length?_utilityMeaning (l : Level) (t : Token) :
    (utilityMeaning scales settings t).toOption.bind (·.length? l) =
      match lookup? vocabulary t.utility with
      | some (family, value) =>
        if family = levelFamily l then levelLength? scales settings t value l else none
      | none => none := by
  rw [utilityMeaning]
  split
  · rename_i u hkeyword
    split at hkeyword
    · have hmem := Table.mem_of_get? hkeyword
      rw [layoutKeywords_not_utilities _ hmem]
      exact length?_layoutKeywords _ hmem l
    · cases hkeyword
  · cases lookup? vocabulary t.utility with
    | none => rfl
    | some found =>
      obtain ⟨family, value⟩ := found
      dsimp only
      by_cases hfamily : family = levelFamily l
      · rw [if_pos hfamily, hfamily, length?_familyMeaning]
      · rw [if_neg hfamily, Option.bind_eq_none_iff]
        intro u hu
        cases hl : u.length? l with
        | none => rfl
        | some px =>
          exact absurd ((familyMeaning_yields (toOption_eq_some.mp hu)).eq_levelFamily hl) hfamily

/-- What an applied token sets on a level is the length that it gives there. -/
theorem length?_outcome (l : Level) (t : Token) :
    (outcome scales settings t).base?.bind (·.length? l) = givenLength? scales settings l t := by
  have hbase : (outcome scales settings t).base? =
      if t.malformed || !t.variants.isEmpty then none
      else (utilityMeaning scales settings t).toOption := by
    ext u
    rw [Outcome.base?_eq_some, outcome_eq_base_iff]
    cases t.malformed <;> cases t.variants <;> simp [toOption_eq_some]
  rw [givenLength?, ← length?_utilityMeaning, hbase]
  split <;> rfl

/-! ### Class strings -/

variable (scales settings)

/-- The tokens of a class string that are applied on a level. -/
def tokensOn (l : Level) (classes : String) : List Token :=
  (tokens classes).filter fun t => (givenLength? scales settings l t).isSome

theorem findSome?_eq_bind_find? {β γ : Type} (f : β → Option γ) (xs : List β) :
    xs.findSome? f = (xs.find? fun x => (f x).isSome).bind f := by
  induction xs with
  | nil => rfl
  | cons x xs ih => cases hx : f x <;> simp [hx, ih]

/-- On a level a class string leaves the length that the last token of the level gives. -/
theorem get_parse (l : Level) (classes : String) :
    l.get (parse scales settings classes).appearance.base =
      (tokensOn scales settings l classes).getLast?.bind (givenLength? scales settings l) := by
  have hrun := findSome?_run (l.get ·) (·.length? l) (fun u s => u.get_apply s l)
    (baseUpdates scales settings (tokens classes)) {}
  calc l.get (parse scales settings classes).appearance.base
      = (baseUpdates scales settings (tokens classes)).reverse.findSome? (·.length? l) := by
        rw [base_parse, hrun, Level.get_empty, Option.or_none]
    _ = ((tokens classes).filterMap (givenLength? scales settings l)).getLast? := by
        rw [← List.getLast?_filterMap, baseUpdates, List.filterMap_filterMap]
        exact congrArg (fun f => (List.filterMap f _).getLast?) (funext (length?_outcome l))
    _ = (tokensOn scales settings l classes).getLast?.bind (givenLength? scales settings l) := by
        rw [List.getLast?_filterMap, findSome?_eq_bind_find?, tokensOn, List.getLast?_filter]

/-- A place has the length of the last token on the most specific level that has tokens, be it zero,
and none if no level has any. Whatever else stands between them, and however the levels are mixed,
the same tokens on each level leave the same length. -/
theorem resolved_parse (p : Place) (classes : String) :
    p.resolved (parse scales settings classes).appearance.base =
        p.levels.findSome? (fun l =>
          (tokensOn scales settings l classes).getLast?.bind (givenLength? scales settings l)) ∧
      ∀ other, (∀ l ∈ p.levels,
          tokensOn scales settings l other = tokensOn scales settings l classes) →
        p.resolved (parse scales settings other).appearance.base =
          p.resolved (parse scales settings classes).appearance.base := by
  refine ⟨?_, fun other h => ?_⟩
  · rw [Place.resolved_eq_findSome?]
    exact congrArg (List.findSome? · _) (funext fun l => get_parse scales settings l classes)
  · have hlevels : ∀ l ∈ p.levels, l.get (parse scales settings other).appearance.base =
        l.get (parse scales settings classes).appearance.base := by
      intro l hl
      rw [get_parse, get_parse, h l hl]
    rw [Place.resolved_eq_findSome?, Place.resolved_eq_findSome?, ← List.head?_filterMap,
      ← List.head?_filterMap, List.filterMap_congr hlevels]

/-- A top padding of zero counts wherever it stands, though an axis and all sides have a length. -/
theorem resolved_parse_mixed :
    (∀ l ∈ (Place.padding .top).levels,
      tokensOn Theme.Scales.plain {} l "pt-0 p-4 -py-1 p-px flex py-2" =
        tokensOn Theme.Scales.plain {} l "p-4 py-2 -py-1 p-px pt-0 hover:pt-2") ∧
    (Place.padding .top).resolved
        (parse Theme.Scales.plain {} "pt-0 p-4 -py-1 p-px flex py-2").appearance.base =
      (Place.padding .top).resolved
        (parse Theme.Scales.plain {} "p-4 py-2 -py-1 p-px pt-0 hover:pt-2").appearance.base := by
  have hsame : ∀ l ∈ (Place.padding .top).levels,
      tokensOn Theme.Scales.plain {} l "pt-0 p-4 -py-1 p-px flex py-2" =
        tokensOn Theme.Scales.plain {} l "p-4 py-2 -py-1 p-px pt-0 hover:pt-2" := by
    decide +kernel
  exact ⟨hsame, (resolved_parse Theme.Scales.plain {} (.padding .top)
    "p-4 py-2 -py-1 p-px pt-0 hover:pt-2").2 _ hsame⟩

end Utility

end DesignTokens
