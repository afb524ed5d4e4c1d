import DesignTokens.Proofs.Drift.MissingImport
import DesignTokens.Proofs.Text.Spelled

/-!
Constants that are declared again. Such a declaration is found on whatever line it stands and leaves
one violation, and since it satisfies the rule for missing imports too, that rule is silent then.
-/
namespace DesignTokens.Drift

open Text (Pattern Place isBlank)

open Text.Pattern

/-! ### Declarations -/

def declarationKeywords : List String := ["var", "const", "let"]

/-- What a line has around the name that it declares: spaces or tabs, the word for an export, a
keyword, and a type after a colon. -/
structure DeclarationForm where
  indent : List Char := []
  /-- The blanks after the word for an export, if it is there. -/
  exported : Option (List Char) := none
  /-- A keyword and the blanks after it. -/
  keyword : Option (String × List Char) := none
  /-- The blanks after the name. -/
  gap : List Char := []
  /-- What stands between the colon and the equals sign. -/
  type : Option (List Char) := none
  indent_plain : ∀ c ∈ indent, c = ' ' ∨ c = '\t'
  exported_blank : ∀ g ∈ exported, g ≠ [] ∧ ∀ c ∈ g, isBlank c
  keyword_known : ∀ k ∈ keyword, k.1 ∈ declarationKeywords ∧ k.2 ≠ [] ∧ ∀ c ∈ k.2, isBlank c
  gap_blank : ∀ c ∈ gap, isBlank c
  type_plain : ∀ t ∈ type, ∀ c ∈ t, c ≠ '=' ∧ c ≠ '\n'

/-- The declaration of a name, up to its equals sign. -/
def DeclarationForm.chars (d : DeclarationForm) (name : String) : List Char :=
  d.indent ++ (d.exported.elim [] ("export".toList ++ ·) ++
    (d.keyword.elim [] (fun k => k.1.toList ++ k.2) ++ (name.toList ++ (d.gap ++
      (d.type.elim [] (':' :: ·) ++ ['='])))))

/-- A line of a text declares a name, with an equals sign that another one does not follow. -/
def Declares (text name : String) : Prop :=
  ∃ (before : List Char) (d : DeclarationForm) (after : List Char),
    text.toList = before ++ (d.chars name ++ after) ∧
      (∀ c ∈ before.getLast?, c = '\n') ∧ after.head? ≠ some '='

/-- The part of a declaration that asks nothing of its surroundings. -/
def declarationBody (name : String) : List Pattern :=
  [.many fun c => c == ' ' || c == '\t', optional (all [literal "export", someBlanks]),
    optional (all [oneOf declarationKeywords, someBlanks]), literal name, blanks,
    optional (all [char ':', .many fun c => c != '=' && c != '\n']), char '=']

theorem declaration_eq (name : String) : declaration name =
    all (([.lineStart] ++ declarationBody name) ++ [.notAhead (char '=')]) := rfl

theorem isFree_declarationBody (name : String) : (all (declarationBody name)).IsFree := by
  refine isFree_all ?_
  simp [declarationBody, IsFree, all, blanks, someBlanks]

section

variable {cs : List Char}

theorem spells_export_iff : (all [literal "export", someBlanks]).Spells cs ↔
    ∃ gap, (gap ≠ [] ∧ ∀ c ∈ gap, isBlank c) ∧ cs = "export".toList ++ gap := by
  simp [all, Spells]

theorem spells_keyword_iff : (all [oneOf declarationKeywords, someBlanks]).Spells cs ↔
    ∃ k : String × List Char,
      (k.1 ∈ declarationKeywords ∧ k.2 ≠ [] ∧ ∀ c ∈ k.2, isBlank c) ∧ cs = k.1.toList ++ k.2 := by
  have hne : declarationKeywords ≠ [] := List.cons_ne_nil _ _
  simp only [all, Spells, spells_oneOf hne, spells_someBlanks]
  constructor
  · rintro ⟨_, gap, ⟨word, hword, rfl⟩, hgap, rfl⟩
    exact ⟨(word, gap), ⟨hword, hgap⟩, rfl⟩
  · rintro ⟨⟨word, gap⟩, ⟨hword, hgap⟩, rfl⟩
    exact ⟨_, gap, ⟨word, hword, rfl⟩, hgap, rfl⟩

theorem spells_type_iff : (all [char ':', .many fun c => c != '=' && c != '\n']).Spells cs ↔
    ∃ t : List Char, (∀ c ∈ t, c ≠ '=' ∧ c ≠ '\n') ∧ cs = ':' :: t := by
  simp [all, Spells]

theorem spells_declarationBody_iff {name : String} :
    (all (declarationBody name)).Spells cs ↔ ∃ d : DeclarationForm, cs = d.chars name := by
  simp only [declarationBody, spells_all_cons, spells_optional_iff_exists fun _ => spells_export_iff,
    spells_optional_iff_exists fun _ => spells_keyword_iff,
    spells_optional_iff_exists fun _ => spells_type_iff, spells_literal, spells_blanks, spells_char]
  constructor
  · rintro ⟨indent, _, hindent, ⟨_, _, ⟨exported, hexported, rfl⟩, ⟨_, _, ⟨keyword, hkeyword, rfl⟩,
      ⟨_, _, rfl, ⟨gap, _, hgap, ⟨_, _, ⟨type, htype, rfl⟩, ⟨_, _, rfl, hnil, rfl⟩, rfl⟩, rfl⟩, rfl⟩,
      rfl⟩, rfl⟩, rfl⟩
    obtain rfl := hnil
    refine ⟨⟨indent, exported, keyword, gap, type, fun c hc => ?_, hexported, hkeyword, hgap,
      htype⟩, rfl⟩
    simpa using hindent c hc
  · rintro ⟨d, rfl⟩
    refine ⟨d.indent, _, fun c hc => ?_, ⟨_, _, ⟨d.exported, d.exported_blank, rfl⟩, ⟨_, _,
      ⟨d.keyword, d.keyword_known, rfl⟩, ⟨_, _, rfl, ⟨d.gap, _, d.gap_blank, ⟨_, _,
        ⟨d.type, d.type_plain, rfl⟩, ⟨_, _, rfl, rfl, rfl⟩, rfl⟩, rfl⟩, rfl⟩, rfl⟩, rfl⟩, rfl⟩
    simpa using d.indent_plain c hc

end

theorem fits_notAhead_char_iff {c : Char} {p q : Place} :
    (Pattern.notAhead (char c)).Fits p q ↔ p.rest.head? ≠ some c ∧ q = p := by
  have hnone : (∀ m, ¬(char c).Fits p m) ↔ p.rest.head? ≠ some c := by
    cases hrest : p.rest with
    | nil => simp [char, Fits, hrest]
    | cons d ds => simp [char, Fits, hrest]
  simp only [Fits, hnone]

theorem fits_declaration_iff {name : String} {p q : Place} : (declaration name).Fits p q ↔
    (∃ d : DeclarationForm, p.Spans (d.chars name) q) ∧ p.before.all (· == '\n') ∧
      q.rest.head? ≠ some '=' := by
  simp only [declaration_eq, fits_all_append, fits_iff_spells (isFree_declarationBody name),
    spells_declarationBody_iff, all, fits_notAhead_char_iff, Fits]
  constructor
  · rintro ⟨m, ⟨_, ⟨hstart, rfl⟩, _, ⟨d, rfl⟩, hspans⟩, hahead, rfl⟩
    exact ⟨⟨d, hspans⟩, hstart, hahead⟩
  · rintro ⟨⟨d, hspans⟩, hstart, hahead⟩
    exact ⟨q, ⟨p, ⟨hstart, rfl⟩, _, ⟨d, rfl⟩, hspans⟩, hahead, rfl⟩

/-- A declaration is found just if a line declares the name. -/
theorem found_declaration_iff {text name : String} :
    (declaration name).found text ↔ Declares text name := by
  have hedge : ∀ before : List Char,
      (before.getLast?.or none).all (· == '\n') ↔ ∀ c ∈ before.getLast?, c = '\n' := by
    intro before
    cases before.getLast? <;> simp
  simp only [found_iff, fits_declaration_iff, Place.isOf_iff]
  constructor
  · rintro ⟨p, q, ⟨before, hbefore⟩, ⟨d, hspans⟩, hstart, hahead⟩
    have hstart' := hbefore.before_eq ▸ hstart
    refine ⟨before, d, q.rest, ?_, (hedge before).mp hstart', hahead⟩
    rw [← hspans.rest_eq]
    exact hbefore.rest_eq
  · rintro ⟨before, d, after, htext, hstart, hahead⟩
    let p : Place := (Place.start text.toList).after before (d.chars name ++ after)
    exact ⟨p, p.after (d.chars name) after, ⟨before, _, htext, rfl⟩, ⟨d, after, rfl, rfl⟩,
      (hedge before).mpr hstart, hahead⟩

/-! ### Violations -/

section

variable {module path text n : String}

theorem redeclared_mem (module : String) (hn : n ∈ centralizedNames) :
    redeclared module n ∈ defaultRules module :=
  List.mem_append_left _ (List.mem_map_of_mem hn)

/-- The violations of redeclaring a name are those of its own rule. -/
theorem filter_redeclared (hn : n ∈ centralizedNames) :
    (evaluateAll (defaultRules module) path text).filter
      (fun v => v.ruleId = "DRIFT.REDECLARED_" ++ n) = (redeclared module n).evaluate path text :=
  filter_evaluateAll (nodup_ruleIds module) (redeclared_mem module hn)

/-- A declaration of any of the names keeps the rule for missing imports silent. -/
theorem ruleId_ne_missingImport (hn : n ∈ centralizedNames) (h : Declares text n) :
    ∀ v ∈ evaluateAll (defaultRules module) path text,
      v.ruleId ≠ "DRIFT.MISSING_CONSTANT_IMPORT" := by
  intro v hv hid
  have hfires := (exists_violation_iff path text (missingImport_mem module)).mp ⟨v, hv, hid⟩
  obtain ⟨-, hsatisfied, -⟩ := (Rule.evaluate_ne_nil_iff rfl).mp hfires
  exact hsatisfied (isSatisfied_missingImport_iff.mpr ⟨n, hn, .inr (found_declaration_iff.mpr h)⟩)

/-- In a file that the rules apply to, a constant that a line declares leaves one violation of its
own rule and none of the rule for missing imports, and a constant that no line declares leaves none.
No text has both a missing import and a redeclaration. -/
theorem redeclared_once (h : (missingImport module).appliesTo path) :
    (∀ n ∈ centralizedNames,
      (Declares text n →
        (∃ line, (evaluateAll (defaultRules module) path text).filter
          (fun v => v.ruleId = "DRIFT.REDECLARED_" ++ n) =
            [(redeclared module n).violation path (some line)]) ∧
        ∀ v ∈ evaluateAll (defaultRules module) path text,
          v.ruleId ≠ "DRIFT.MISSING_CONSTANT_IMPORT") ∧
      (¬Declares text n → (evaluateAll (defaultRules module) path text).filter
        (fun v => v.ruleId = "DRIFT.REDECLARED_" ++ n) = [])) ∧
    ∀ v ∈ evaluateAll (defaultRules module) path text,
      ∀ w ∈ evaluateAll (defaultRules module) path text,
        v.ruleId = "DRIFT.MISSING_CONSTANT_IMPORT" →
          ∀ n ∈ centralizedNames, w.ruleId ≠ "DRIFT.REDECLARED_" ++ n := by
  have hsilent : ∀ n ∈ centralizedNames, ¬Declares text n →
      (redeclared module n).evaluate path text = [] := by
    intro n _ hnone
    by_contra hfires
    obtain ⟨-, -, hfound⟩ := (Rule.evaluate_ne_nil_iff rfl).mp hfires
    exact hnone (found_declaration_iff.mp hfound)
  refine ⟨fun n hn => ⟨fun hdeclares => ⟨?_, ruleId_ne_missingImport hn hdeclares⟩,
    fun hnone => ?_⟩, fun v hv w hw hmissing n hn hredeclared => ?_⟩
  · rw [filter_redeclared hn]
    have hsatisfied : (redeclared module n).isSatisfied text = false := rfl
    exact Rule.evaluate_of_found rfl h (Bool.eq_false_iff.mp hsatisfied)
      (found_declaration_iff.mpr hdeclares)
  · rw [filter_redeclared hn]
    exact hsilent n hn hnone
  · have hfires := (exists_violation_iff path text (redeclared_mem module hn)).mp
      ⟨w, hw, hredeclared⟩
    by_cases hdeclares : Declares text n
    · exact ruleId_ne_missingImport hn hdeclares v hv hmissing
    · exact hfires (hsilent n hn hdeclares)

end

/-- An exported declaration with a type, after a tab. -/
def typedForm : DeclarationForm where
  indent := ['\t']
  exported := some [' ']
  keyword := some ("const", [' '])
  type := some " number ".toList
  indent_plain := by simp
  exported_blank := by simp [isBlank]
  keyword_known := by simp [declarationKeywords, isBlank]
  gap_blank := by simp
  type_plain := by simp

/-- A text that imports a constant, uses it and declares it. -/
def paddedDialog : String :=
  "import \x7b SECTION_PADDING \x7d from './constants'\npad(SECTION_PADDING)\n" ++
    "\texport const SECTION_PADDING: number = 24\n"

theorem declares_paddedDialog : Declares paddedDialog "SECTION_PADDING" := by
  let before :=
    "import \x7b SECTION_PADDING \x7d from './constants'\npad(SECTION_PADDING)\n".toList
  have hlast : before.getLast? = some '\n' := by decide +kernel
  refine ⟨before, typedForm, " 24\n".toList, by decide +kernel, fun c hc => ?_, by decide⟩
  exact (Option.some.inj (hlast.symm.trans hc)).symm

theorem redeclared_once_dialog :
    (missingImport defaultConstantsModule).appliesTo "dialog.ts" ∧
    Declares paddedDialog "SECTION_PADDING" ∧
    ∃ line, (evaluateAll (defaultRules defaultConstantsModule) "dialog.ts" paddedDialog).filter
      (fun v => v.ruleId = "DRIFT.REDECLARED_SECTION_PADDING") =
        [(redeclared defaultConstantsModule "SECTION_PADDING").violation "dialog.ts"
          (some line)] := by
  have happlies : (missingImport defaultConstantsModule).appliesTo "dialog.ts" := by
    decide +kernel
  have hreported := (@redeclared_once _ _ paddedDialog happlies).1 "SECTION_PADDING" (by decide)
  exact ⟨happlies, declares_paddedDialog, (hreported.1 declares_paddedDialog).1⟩

end DesignTokens.Drift
