import DesignTokens.Proofs.Tables
import DesignTokens.Proofs.Utility.Meanings
import DesignTokens.Proofs.Utility.Updates

/-!
The last token wins, field by field. After a class string each field of the base style has the
content that the last token writing it leaves when it is parsed alone. The stroke weight follows
this rule too, but a ring colour gives it a weight of one where no token writes it.
-/
namespace DesignTokens.Utility

open Style (Field)

/-- The last item that passes a test. -/
def last? {β : Type} (p : β → Bool) (xs : List β) : Option β := xs.reverse.find? p

@[simp] theorem last?_nil {β : Type} (p : β → Bool) : last? p [] = none := rfl

theorem last?_cons {β : Type} (p : β → Bool) (x : β) (xs : List β) :
    last? p (x :: xs) = (last? p xs).or (if p x then some x else none) := by
  rw [last?, List.reverse_cons, List.find?_append]
  by_cases h : p x <;> simp [h, last?]

theorem last?_filterMap {β γ : Type} (f : β → Option γ) (p : γ → Bool) (xs : List β) :
    last? p (xs.filterMap f) = (last? (fun x => (f x).any p) xs).bind f := by
  rw [last?, ← List.filterMap_reverse, List.find?_filterMap]
  rfl

theorem mem_of_last? {β : Type} {p : β → Bool} {x : β} {xs : List β} (h : last? p xs = some x) :
    x ∈ xs := by
  simpa using List.mem_of_find?_eq_some h

theorem pass_of_last? {β : Type} {p : β → Bool} {x : β} {xs : List β} (h : last? p xs = some x) :
    p x := List.find?_some h

/-- A run of updates leaves in a field what the last one that writes it does to any style. -/
theorem value_run {f : Field} (hf : f ≠ .strokeWeight) (us : List (Update Number))
    (s : Style Number) :
    f.value (run us s) = match last? (fun u => f ∈ u.targets) us with
      | some u => f.value (u.apply {})
      | none => f.value s := by
  induction us generalizing s with
  | nil => rfl
  | cons u us ih =>
    rw [run_cons, ih, last?_cons]
    cases last? (fun u => f ∈ u.targets) us with
    | some w => rfl
    | none =>
      by_cases h : f ∈ u.targets
      · simpa [h] using Update.value_apply_of_mem h s {}
      · simpa [h] using Update.value_apply_of_not_mem h (fun e => absurd e hf) s

/-- What writes the stroke weight sets it. -/
theorem strokeWeight_apply_of_mem {u : Update Number} (h : Field.strokeWeight ∈ u.targets)
    (s : Style Number) : ∃ w, (u.apply s).strokeWeight = some w := by
  cases u with
  | borderWeight w | noBorder w => exact ⟨w, rfl⟩
  | border visible w | ring visible w => exact ⟨w, rfl⟩
  | borderSides sides w => exact ⟨w, rfl⟩
  | _ => simp [Update.targets] at h

theorem strokeWeight_apply_of_fillsWeight {u : Update Number} (h : u.fillsWeight)
    (one : ∀ c w, u = .ringColor c w → w = 1) (s : Style Number) :
    (u.apply s).strokeWeight = (s.strokeWeight <|> some 1) := by
  cases u with
  | ringColor c w =>
    obtain rfl := one c w rfl
    rfl
  | _ => cases h

/-- The same for the stroke weight, where ring colours of weight one step in. -/
theorem strokeWeight_run (us : List (Update Number))
    (one : ∀ u ∈ us, ∀ c w, u = .ringColor c w → w = 1) (s : Style Number) :
    (run us s).strokeWeight = match last? (fun u => Field.strokeWeight ∈ u.targets) us with
      | some u => (u.apply {}).strokeWeight
      | none => s.strokeWeight <|> if us.any Update.fillsWeight then some 1 else none := by
  induction us generalizing s with
  | nil => cases h : s.strokeWeight <;> simp [h]
  | cons u us ih =>
    rw [run_cons, ih (fun x hx => one x (by simp [hx])), last?_cons]
    cases last? (fun u => Field.strokeWeight ∈ u.targets) us with
    | some w => rfl
    | none =>
      by_cases h : Field.strokeWeight ∈ u.targets
      · obtain ⟨w, hw⟩ := strokeWeight_apply_of_mem h s
        have hs : (u.apply s).strokeWeight = (u.apply {}).strokeWeight :=
          Update.value_apply_of_mem h s {}
        simp [h, ← hs, hw]
      · by_cases hu : u.fillsWeight
        · rw [strokeWeight_apply_of_fillsWeight hu (one u (by simp))]
          cases s.strokeWeight <;> simp [h, hu]
        · have hs : (u.apply s).strokeWeight = s.strokeWeight :=
            Update.value_apply_of_not_mem h (fun _ => by simpa using hu) s
          simp [h, hu, hs]

/-! ## Class strings -/

variable (scales : Theme.Scales) (settings : Settings)

theorem layoutKeywords_weightless : ∀ p ∈ layoutKeywords, p.2.fillsWeight = false := by decide

/-- The weight that a ring colour brings is one. -/
theorem weight_of_ringColor {t : Token} {c : ColorReference Number} {w : Number}
    (h : (outcome scales settings t).base? = some (.ringColor c w)) : w = 1 := by
  have hmeaning := (outcome_eq_base_iff scales settings).mp (Outcome.base?_eq_some.mp h)
  rcases utilityMeaning_yields hmeaning.2.2 with hkeyword | ⟨family, hfamily⟩
  · have := layoutKeywords_weightless _ (Table.mem_of_get? hkeyword)
    simp [Update.fillsWeight] at this
  · cases hfamily
    rfl

/-- Whether a token is applied to the base style and writes a field of it. -/
def writes (f : Field) (t : Token) : Bool :=
  (outcome scales settings t).base?.any fun u => f ∈ u.targets

/-- Whether a token is applied to the base style and gives it a ring colour. -/
def colorsRing (t : Token) : Bool :=
  (outcome scales settings t).base?.any Update.fillsWeight

/-- What a token of a class string leaves in the base style when it is parsed alone. -/
theorem base_parse_raw {t : Token} {classes : String} (h : t ∈ tokens classes) :
    (parse scales settings t.raw).appearance.base =
      run (outcome scales settings t).base?.toList {} := by
  obtain ⟨hword, -, ht⟩ := mem_tokens h
  rw [parse_of_isWord scales settings hword, ht, Outcome.base_apply]
  rfl

/-- The last update that passes a test is that of the last token whose update does. -/
theorem value_last_update {β : Type} (p : Update Number → Bool) (g : Style Number → β) (default : β)
    (classes : String) :
    (match last? p (baseUpdates scales settings (tokens classes)) with
      | some u => g (u.apply {})
      | none => default) =
    match last? (fun t => (outcome scales settings t).base?.any p) (tokens classes) with
      | some t => g (parse scales settings t.raw).appearance.base
      | none => default := by
  rw [baseUpdates, last?_filterMap]
  cases ht : last? (fun t => (outcome scales settings t).base?.any p) (tokens classes) with
  | none => rfl
  | some t =>
    have hp := pass_of_last? ht
    obtain ⟨u, hu, -⟩ := (Option.any_eq_true _ _).mp hp
    simp only [Option.bind_some, base_parse_raw scales settings (mem_of_last? ht), hu]
    rfl

/-- After a class string a field has the content that the last token writing it leaves alone, and
its default where there is none. For the stroke weight the default is one if a ring has a colour. -/
theorem value_parse_last (classes : String) :
    (∀ f, f ≠ Field.strokeWeight →
      f.value (parse scales settings classes).appearance.base =
        match last? (writes scales settings f) (tokens classes) with
        | some t => f.value (parse scales settings t.raw).appearance.base
        | none => f.value {}) ∧
    (parse scales settings classes).appearance.base.strokeWeight =
      match last? (writes scales settings .strokeWeight) (tokens classes) with
      | some t => (parse scales settings t.raw).appearance.base.strokeWeight
      | none => if (tokens classes).any (colorsRing scales settings) then some 1 else none := by
  constructor
  · intro f hf
    rw [base_parse, value_run hf]
    exact value_last_update scales settings _ _ _ classes
  · have one : ∀ u ∈ baseUpdates scales settings (tokens classes), ∀ c w,
        u = .ringColor c w → w = 1 := by
      rintro u hu c w rfl
      obtain ⟨t, -, ht⟩ := List.mem_filterMap.mp hu
      exact weight_of_ringColor scales settings ht
    have hrings : (baseUpdates scales settings (tokens classes)).any Update.fillsWeight =
        (tokens classes).any (colorsRing scales settings) := by
      rw [baseUpdates, List.any_filterMap]
      rfl
    rw [base_parse, strokeWeight_run _ one, hrings]
    exact value_last_update scales settings _ _ _ classes

/-- Of two backgrounds the later one counts, though a state follows and a dropped token is last. -/
theorem noFill_parse_last :
    Field.noFill ≠ Field.strokeWeight ∧
      (parse Theme.Scales.plain {}
        "bg-transparent bg-kumo-brand hover:bg-none flex -bg-kumo-line").appearance.base.noFill =
          (parse Theme.Scales.plain {} "bg-kumo-brand").appearance.base.noFill := by
  have hfield : Field.noFill ≠ Field.strokeWeight := by decide
  have hlast : last? (writes Theme.Scales.plain {} .noFill)
      (tokens "bg-transparent bg-kumo-brand hover:bg-none flex -bg-kumo-line") =
        some (Token.ofString "bg-kumo-brand") := by decide +kernel
  have hvalue := (value_parse_last Theme.Scales.plain {}
    "bg-transparent bg-kumo-brand hover:bg-none flex -bg-kumo-line").1 .noFill hfield
  simp only [hlast, raw_ofString] at hvalue
  exact ⟨hfield, hvalue⟩

end DesignTokens.Utility
