import DesignTokens.Drift.Patterns
import DesignTokens.Proofs.Drift.Rules
import DesignTokens.Proofs.Text.Patterns

/-!
The rule for constants that are used and not imported. It looks for a use of any of them, and is
silent where any of them is imported or declared, be it another one than the one that is used:
what is found for several names is what is found for one of them.
-/
namespace DesignTokens.Drift

open Text (Pattern Place)

open Text.Pattern

/-! ### Patterns of several names -/

/-- The pattern of some names fits where the pattern of one of them does. -/
def PerName (f : List String → Pattern) : Prop :=
  ∀ names, names ≠ [] → ∀ p q, (f names).Fits p q ↔ ∃ n ∈ names, (f [n]).Fits p q

theorem perName_oneOf : PerName oneOf := by
  intro names hnames p q
  have hone : ∀ n, oneOf [n] = literal n := fun _ => rfl
  rw [oneOf, fits_any_iff (by simpa using hnames)]
  simp only [hone, List.mem_map, exists_exists_and_eq_and]

namespace PerName

variable {f g : List String → Pattern}

theorem before (a : Pattern) (h : PerName f) : PerName fun names => .seq a (f names) := by
  intro names hnames p q
  simp only [Fits, h names hnames]
  constructor
  · rintro ⟨m, hm, n, hn, hq⟩
    exact ⟨n, hn, m, hm, hq⟩
  · rintro ⟨n, hn, m, hm, hq⟩
    exact ⟨m, hm, n, hn, hq⟩

theorem after (h : PerName f) (a : Pattern) : PerName fun names => .seq (f names) a := by
  intro names hnames p q
  simp only [Fits, h names hnames]
  constructor
  · rintro ⟨m, ⟨n, hn, hm⟩, hq⟩
    exact ⟨n, hn, m, hm, hq⟩
  · rintro ⟨n, hn, m, hm, hq⟩
    exact ⟨m, ⟨n, hn, hm⟩, hq⟩

theorem alt (hf : PerName f) (hg : PerName g) : PerName fun names => .alt (f names) (g names) := by
  intro names hnames p q
  simp only [Fits, hf names hnames, hg names hnames]
  constructor
  · rintro (⟨n, hn, h⟩ | ⟨n, hn, h⟩)
    · exact ⟨n, hn, .inl h⟩
    · exact ⟨n, hn, .inr h⟩
  · rintro ⟨n, hn, h | h⟩
    · exact .inl ⟨n, hn, h⟩
    · exact .inr ⟨n, hn, h⟩

/-- What is found for some names is found for one of them. -/
theorem found_iff (h : PerName f) {names : List String} (hnames : names ≠ []) {text : String} :
    (f names).found text ↔ ∃ n ∈ names, (f [n]).found text := by
  simp only [Pattern.found_iff, h names hnames]
  constructor
  · rintro ⟨p, q, hp, n, hn, hq⟩
    exact ⟨n, hn, p, q, hp, hq⟩
  · rintro ⟨n, hn, p, q, hp, hq⟩
    exact ⟨p, q, hp, n, hn, hq⟩

end PerName

/-! ### The patterns of names -/

theorem perName_usage : PerName usage :=
  (perName_oneOf.after _).before _

theorem perName_wholeWord : PerName wholeWord :=
  (perName_oneOf.after _).before _

theorem perName_fromImport (module : String) : PerName fun names => fromImport names module :=
  perName_wholeWord.before _ |>.before _ |>.before _ |>.before _ |>.before _ |>.before _
    |>.before _

theorem perName_bracedImport (module : String) : PerName fun names => bracedImport names module :=
  perName_wholeWord.after _ |>.before _ |>.before _ |>.before _ |>.before _ |>.before _

theorem perName_importOf (module : String) : PerName fun names => importOf names module :=
  (perName_fromImport module).alt (perName_bracedImport module)

/-! ### The rule -/

variable {module path text : String}

theorem missingImport_mem (module : String) : missingImport module ∈ defaultRules module := by
  simp [defaultRules]

/-- An import or a declaration of any of the names is enough. -/
theorem isSatisfied_missingImport_iff : (missingImport module).isSatisfied text ↔
    ∃ n ∈ centralizedNames, (importOf [n] module).found text ∨ (declaration n).found text := by
  have hrequired : (missingImport module).isSatisfied text =
      (any (importOf centralizedNames module :: centralizedNames.map declaration)).found text := rfl
  have himport : (importOf centralizedNames module).found text ↔
      ∃ n ∈ centralizedNames, (importOf [n] module).found text :=
    (perName_importOf module).found_iff (List.cons_ne_nil _ _)
  rw [hrequired, found_any_iff (List.cons_ne_nil _ _), List.exists_mem_cons_iff, himport]
  simp only [List.mem_map, exists_exists_and_eq_and, ← exists_or, ← and_or_left]

/-- In a file that it applies to, the rule fires just if a constant is used and none of them is
imported from the module or declared in the file. -/
theorem missingImport_fires_iff (h : (missingImport module).appliesTo path) :
    (∃ v ∈ evaluateAll (defaultRules module) path text,
        v.ruleId = "DRIFT.MISSING_CONSTANT_IMPORT") ↔
      (∃ n ∈ centralizedNames, (usage [n]).found text) ∧
        ∀ n ∈ centralizedNames,
          ¬(importOf [n] module).found text ∧ ¬(declaration n).found text := by
  have hused : (missingImport module).detect.found text ↔
      ∃ n ∈ centralizedNames, (usage [n]).found text :=
    perName_usage.found_iff (List.cons_ne_nil _ _)
  have hfires := exists_violation_iff path text (missingImport_mem module)
  rw [Rule.evaluate_ne_nil_iff rfl, isSatisfied_missingImport_iff, hused] at hfires
  refine hfires.trans ?_
  simp only [h, true_and, not_exists, not_and, not_or]
  exact and_comm

/-- A generator that uses a constant and imports another name. -/
theorem missingImport_fires_padding :
    (missingImport defaultConstantsModule).appliesTo "gen.py" ∧
      ∃ v ∈ evaluateAll (defaultRules defaultConstantsModule) "gen.py"
        "from design_sync.constants import COLORS\nframe.padding = SECTION_PADDING\n",
        v.ruleId = "DRIFT.MISSING_CONSTANT_IMPORT" := by
  have happlies : (missingImport defaultConstantsModule).appliesTo "gen.py" := by decide +kernel
  exact ⟨happlies, (missingImport_fires_iff happlies).mpr (by decide +kernel)⟩

/-- The import of one constant hides the use of another one. -/
theorem missingImport_silent_padding :
    let text := "from design_sync.constants import SECTION_GAP\nframe.padding = SECTION_PADDING\n"
    (missingImport defaultConstantsModule).appliesTo "gen.py" ∧
      (usage ["SECTION_PADDING"]).found text ∧
      ¬(importOf ["SECTION_PADDING"] defaultConstantsModule).found text ∧
      ¬(declaration "SECTION_PADDING").found text ∧
      ¬∃ v ∈ evaluateAll (defaultRules defaultConstantsModule) "gen.py" text,
        v.ruleId = "DRIFT.MISSING_CONSTANT_IMPORT" := by
  decide +kernel

end DesignTokens.Drift
