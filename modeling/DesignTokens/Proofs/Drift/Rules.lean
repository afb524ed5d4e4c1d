import DesignTokens.Drift.DefaultRules
import Mathlib.Data.List.Nodup

/-!
What the rules of a check find. Every violation comes from a rule, and has its name and its severity;
no two default rules have one name.
-/
namespace DesignTokens.Drift

variable {r : Rule} {rules : List Rule} {path text : String} {v : Violation}

namespace Rule

/-- A violation of a rule is made from the rule. -/
theorem eq_violation_of_mem (h : v ∈ r.evaluate path text) : ∃ line, v = r.violation path line := by
  rw [evaluate] at h
  split at h
  · cases h
  · split at h
    · split at h
      · cases h
      · exact ⟨_, List.mem_singleton.mp h⟩
    · split at h
      · exact ⟨_, List.mem_singleton.mp h⟩
      · cases h

/-- A rule that fires on what it finds. -/
theorem evaluate_ne_nil_iff (h : r.firesWhenAbsent = false) :
    r.evaluate path text ≠ [] ↔
      r.appliesTo path ∧ ¬r.isSatisfied text ∧ r.detect.found text := by
  rw [evaluate, Text.Pattern.found, h]
  by_cases happlies : r.appliesTo path
  · by_cases hsatisfied : r.isSatisfied text
    · simp [hsatisfied]
    · cases r.detect.search text <;> simp [happlies, hsatisfied]
  · simp [happlies]

/-- A rule that fires on what it finds leaves one violation, on the line of it. -/
theorem evaluate_of_found (hfires : r.firesWhenAbsent = false) (happlies : r.appliesTo path)
    (hsatisfied : ¬r.isSatisfied text) (hfound : r.detect.found text) :
    ∃ line, r.evaluate path text = [r.violation path (some line)] := by
  obtain ⟨⟨start, stop⟩, hsearch⟩ := Option.isSome_iff_exists.mp hfound
  exact ⟨lineOf text start.offset, by simp [evaluate, happlies, hsatisfied, hsearch, hfires]⟩

theorem filter_evaluate (r : Rule) (path text id : String) :
    (r.evaluate path text).filter (fun v => v.ruleId = id) =
      if r.ruleId = id then r.evaluate path text else [] := by
  have hid : ∀ v ∈ r.evaluate path text, v.ruleId = r.ruleId := by
    intro v hv
    obtain ⟨line, rfl⟩ := r.eq_violation_of_mem hv
    rfl
  split
  · rename_i hsame
    exact List.filter_eq_self.mpr fun v hv => decide_eq_true ((hid v hv).trans hsame)
  · rename_i hother
    refine List.filter_eq_nil_iff.mpr fun v hv hsame => hother ?_
    exact (hid v hv).symm.trans (of_decide_eq_true hsame)

end Rule

/-- Of rules that all have names of their own, each leaves the violations of its name. -/
theorem filter_evaluateAll (hnames : (rules.map (·.ruleId)).Nodup) (hr : r ∈ rules) :
    (evaluateAll rules path text).filter (fun v => v.ruleId = r.ruleId) =
      r.evaluate path text := by
  induction rules with
  | nil => cases hr
  | cons s rules ih =>
    obtain ⟨hs, hnames⟩ := List.nodup_cons.mp hnames
    have hother : ∀ t ∈ rules, t.ruleId ≠ s.ruleId := fun t ht hsame =>
      hs (List.mem_map.mpr ⟨t, ht, hsame⟩)
    rw [evaluateAll, List.flatMap_cons, List.filter_append, Rule.filter_evaluate]
    rcases List.mem_cons.mp hr with rfl | hr
    · have hrest : (evaluateAll rules path text).filter (fun v => v.ruleId = r.ruleId) = [] := by
        rw [evaluateAll, List.filter_flatMap]
        refine List.flatMap_eq_nil_iff.mpr fun t ht => ?_
        rw [Rule.filter_evaluate, if_neg (hother t ht)]
      rw [if_pos rfl, ← evaluateAll, hrest, List.append_nil]
    · rw [if_neg (hother r hr).symm, List.nil_append]
      exact ih hnames hr

/-- Every violation comes from one of the rules. -/
theorem exists_rule_of_mem (h : v ∈ evaluateAll rules path text) :
    ∃ r ∈ rules, ∃ line, v = r.violation path line := by
  obtain ⟨r, hr, hv⟩ := List.mem_flatMap.mp h
  exact ⟨r, hr, r.eq_violation_of_mem hv⟩

/-- The names of the default rules do not depend on the module. -/
theorem ruleIds_eq (module : String) :
    (defaultRules module).map (·.ruleId) = (defaultRules "").map (·.ruleId) := rfl

theorem nodup_ruleIds (module : String) : ((defaultRules module).map (·.ruleId)).Nodup := by
  rw [ruleIds_eq]
  decide

/-- What all names of default rules have in common. -/
theorem forall_ruleId {P : String → Prop} (h : ∀ id ∈ (defaultRules "").map (·.ruleId), P id)
    {module : String} (hr : r ∈ defaultRules module) : P r.ruleId :=
  h _ (ruleIds_eq module ▸ List.mem_map_of_mem hr)

theorem eq_of_ruleId_eq {module : String} {r' : Rule} (hr : r ∈ defaultRules module)
    (hr' : r' ∈ defaultRules module) (h : r.ruleId = r'.ruleId) : r = r' :=
  List.inj_on_of_nodup_map (nodup_ruleIds module) hr hr' h

/-- A default rule fires just if there is a violation of its name. -/
theorem exists_violation_iff {module : String} (path text : String) (hr : r ∈ defaultRules module) :
    (∃ v ∈ evaluateAll (defaultRules module) path text, v.ruleId = r.ruleId) ↔
      r.evaluate path text ≠ [] := by
  constructor
  · rintro ⟨v, hv, hid⟩
    obtain ⟨r', hr', hv⟩ := List.mem_flatMap.mp hv
    obtain ⟨line, rfl⟩ := r'.eq_violation_of_mem hv
    obtain rfl := eq_of_ruleId_eq hr' hr hid
    exact List.ne_nil_of_mem hv
  · intro hne
    obtain ⟨v, hv⟩ := List.exists_mem_of_ne_nil _ hne
    obtain ⟨line, rfl⟩ := r.eq_violation_of_mem hv
    exact ⟨_, List.mem_flatMap.mpr ⟨r, hr, hv⟩, rfl⟩

end DesignTokens.Drift
