import DesignTokens.Css.Shadow
import DesignTokens.Proofs.Results
import DesignTokens.Proofs.Text.Words
import Mathlib.Data.List.Infix
import Mathlib.Data.List.TakeWhile

/-!
The layers of a shadow. Layers joined by commas, with white space around them or not, are split into
themselves again: what is inside parentheses never separates, and looking ahead for the start of a
layer never reads beyond the next comma.
-/
namespace DesignTokens.Css

open Text

/-! ### The start of a layer -/

/-- Nothing, or the word `inset` with white space behind it. -/
def IsInset (word : List Char) : Prop :=
  word = [] ∨ ∃ space, space ≠ [] ∧ (∀ c ∈ space, isBlank c) ∧
    word = 'i' :: 'n' :: 's' :: 'e' :: 't' :: space

def IsSign (sign : List Char) : Prop :=
  sign = [] ∨ sign = ['-']

/-- A digit, or a point and a digit. -/
def IsFigure (figure : List Char) : Prop :=
  ∃ d, isDecimal d ∧ (figure = [d] ∨ figure = ['.', d])

/-- White space, `inset` and a minus, each of them optional, and the first digit of a length. -/
def IsStart (start : List Char) : Prop :=
  ∃ space word sign figure, (∀ c ∈ space, isBlank c) ∧ IsInset word ∧ IsSign sign ∧
    IsFigure figure ∧ start = space ++ (word ++ (sign ++ figure))

/-- A text that begins like a layer. -/
def LayerStart (cs : List Char) : Prop :=
  ∃ start rest, IsStart start ∧ cs = start ++ rest

/-- What follows the word `inset`. -/
def afterInset (cs : List Char) : List Char :=
  match cs with
  | 'i' :: 'n' :: 's' :: 'e' :: 't' :: c :: tail =>
    if isBlank c then tail.dropWhile isBlank else cs
  | cs => cs

def afterSign (cs : List Char) : List Char :=
  match cs with
  | '-' :: tail => tail
  | cs => cs

def startsFigure (cs : List Char) : Bool :=
  match cs with
  | '.' :: c :: _ => isDecimal c
  | c :: _ => isDecimal c
  | [] => false

theorem startsLayer_eq (cs : List Char) :
    startsLayer cs = startsFigure (afterSign (afterInset (cs.dropWhile isBlank))) := rfl

theorem exists_afterInset (cs : List Char) : ∃ word, IsInset word ∧ cs = word ++ afterInset cs := by
  unfold afterInset
  split
  · rename_i c tail
    split
    · rename_i hc
      refine ⟨'i' :: 'n' :: 's' :: 'e' :: 't' :: c :: tail.takeWhile isBlank, .inr ?_, ?_⟩
      · refine ⟨c :: tail.takeWhile isBlank, by simp, ?_, rfl⟩
        intro e he
        rcases List.mem_cons.mp he with rfl | he
        · exact hc
        · exact List.mem_takeWhile_imp he
      · simp only [List.cons_append, List.takeWhile_append_dropWhile]
    · exact ⟨[], .inl rfl, rfl⟩
  · exact ⟨[], .inl rfl, rfl⟩

theorem exists_afterSign (cs : List Char) : ∃ sign, IsSign sign ∧ cs = sign ++ afterSign cs := by
  unfold afterSign
  split
  · exact ⟨['-'], .inr rfl, rfl⟩
  · exact ⟨[], .inl rfl, rfl⟩

theorem exists_of_startsFigure {cs : List Char} (h : startsFigure cs) :
    ∃ figure rest, IsFigure figure ∧ cs = figure ++ rest := by
  unfold startsFigure at h
  split at h
  · rename_i d rest
    exact ⟨['.', d], rest, ⟨d, h, .inr rfl⟩, rfl⟩
  · rename_i d rest _
    exact ⟨[d], rest, ⟨d, h, .inl rfl⟩, rfl⟩
  · cases h

/-- The characters that a signed length begins with. -/
def OpensLength (c : Char) : Prop :=
  c = '-' ∨ c = '.' ∨ isDecimal c

theorem isBlank_of_isDecimal {d : Char} (h : isDecimal d) : isBlank d = false := by
  by_contra hblank
  rw [Bool.not_eq_false] at hblank
  have hdecimal := forall_isBlank (P := fun c => isDecimal c = false) (by decide +kernel) hblank
  rw [h] at hdecimal
  cases hdecimal

theorem OpensLength.isBlank {c : Char} (h : OpensLength c) : isBlank c = false := by
  rcases h with rfl | rfl | h
  · rfl
  · rfl
  · exact isBlank_of_isDecimal h

theorem OpensLength.ne_i {c : Char} (h : OpensLength c) : c ≠ 'i' := by
  rintro rfl
  rcases h with h | h | h <;> cases h

theorem opensLength_of_mem {sign figure : List Char} (hsign : IsSign sign)
    (hfigure : IsFigure figure) (rest : List Char) :
    ∀ c ∈ (sign ++ (figure ++ rest)).head?, OpensLength c := by
  obtain ⟨d, hd, rfl | rfl⟩ := hfigure <;> rcases hsign with rfl | rfl <;>
    simp [OpensLength, hd]

theorem afterInset_append {word cs : List Char} (hword : IsInset word)
    (h : ∀ c ∈ cs.head?, OpensLength c) : afterInset (word ++ cs) = cs := by
  rcases hword with rfl | ⟨space, hne, hspace, rfl⟩
  · rw [List.nil_append]
    unfold afterInset
    split
    · exact absurd rfl (h 'i' rfl).ne_i
    · rfl
  · obtain ⟨c, space, rfl⟩ := List.exists_cons_of_ne_nil hne
    obtain ⟨hc, hspace⟩ := List.forall_mem_cons.mp hspace
    exact (if_pos hc).trans (dropWhile_append_stop hspace fun e he => (h e he).isBlank)

theorem startsFigure_append {sign figure : List Char} (hsign : IsSign sign)
    (hfigure : IsFigure figure) (rest : List Char) :
    startsFigure (afterSign (sign ++ (figure ++ rest))) := by
  obtain ⟨d, hd, hfigure⟩ := hfigure
  have hpoint : d ≠ '.' := by
    rintro rfl
    cases hd
  have hminus : d ≠ '-' := by
    rintro rfl
    cases hd
  rcases hfigure with rfl | rfl <;> rcases hsign with rfl | rfl <;>
    simp [afterSign, startsFigure, hpoint, hminus, hd]

/-- The look-ahead for a layer accepts the texts that begin like one. -/
theorem startsLayer_iff {cs : List Char} : startsLayer cs ↔ LayerStart cs := by
  rw [startsLayer_eq]
  constructor
  · intro h
    obtain ⟨word, hword, hafter⟩ := exists_afterInset (cs.dropWhile isBlank)
    obtain ⟨sign, hsign, hsigned⟩ := exists_afterSign (afterInset (cs.dropWhile isBlank))
    obtain ⟨figure, rest, hfigure, hfigures⟩ := exists_of_startsFigure h
    refine ⟨cs.takeWhile isBlank ++ (word ++ (sign ++ figure)), rest,
      ⟨cs.takeWhile isBlank, word, sign, figure, fun c hc => List.mem_takeWhile_imp hc, hword,
        hsign, hfigure, rfl⟩, ?_⟩
    simp only [List.append_assoc]
    rw [← hfigures, ← hsigned, ← hafter, List.takeWhile_append_dropWhile]
  · rintro ⟨_, rest, ⟨space, word, sign, figure, hspace, hword, hsign, hfigure, rfl⟩, rfl⟩
    have hopens := opensLength_of_mem hsign hfigure rest
    have hsolid : ∀ c ∈ (word ++ (sign ++ (figure ++ rest))).head?, isBlank c = false := by
      rcases hword with rfl | ⟨_, _, _, rfl⟩
      · exact fun c hc => (hopens c hc).isBlank
      · simp [isBlank]
    simp only [List.append_assoc]
    rw [dropWhile_append_stop hspace hsolid, afterInset_append hword hopens]
    exact startsFigure_append hsign hfigure rest

/-! ### How far the look-ahead reads -/

theorem IsStart.comma_not_mem {start : List Char} (h : IsStart start) : ',' ∉ start := by
  obtain ⟨space, word, sign, figure, hspace, hword, hsign, ⟨d, hd, hfigure⟩, rfl⟩ := h
  have hblank : ∀ {cs : List Char}, (∀ c ∈ cs, isBlank c) → ',' ∉ cs := by
    intro cs hcs hmem
    cases hcs _ hmem
  have hdigit : ',' ≠ d := by
    rintro rfl
    cases hd
  have hwordless : ',' ∉ word := by
    rcases hword with rfl | ⟨gap, -, hgap, rfl⟩
    · exact List.not_mem_nil
    · simpa using hblank hgap
  have hsignless : ',' ∉ sign := by
    rcases hsign with rfl | rfl <;> simp
  have hfigureless : ',' ∉ figure := by
    rcases hfigure with rfl | rfl <;> simpa using hdigit
  simp only [List.mem_append, not_or]
  exact ⟨hblank hspace, hwordless, hsignless, hfigureless⟩

theorem IsStart.exists_last {start : List Char} (h : IsStart start) :
    ∃ body d, isBlank d = false ∧ start = body ++ [d] := by
  obtain ⟨space, word, sign, figure, -, -, -, ⟨d, hd, rfl | rfl⟩, rfl⟩ := h
  · exact ⟨space ++ (word ++ sign), d, isBlank_of_isDecimal hd, by simp⟩
  · exact ⟨space ++ (word ++ (sign ++ ['.'])), d, isBlank_of_isDecimal hd, by simp⟩

theorem LayerStart.append {cs : List Char} (h : LayerStart cs) (more : List Char) :
    LayerStart (cs ++ more) := by
  obtain ⟨start, rest, hstart, rfl⟩ := h
  exact ⟨start, rest ++ more, hstart, List.append_assoc ..⟩

theorem LayerStart.blanks_append {cs blanks : List Char} (h : LayerStart cs)
    (hblanks : ∀ c ∈ blanks, isBlank c) : LayerStart (blanks ++ cs) := by
  obtain ⟨_, rest, ⟨space, word, sign, figure, hspace, hword, hsign, hfigure, rfl⟩, rfl⟩ := h
  refine ⟨(blanks ++ space) ++ (word ++ (sign ++ figure)), rest,
    ⟨blanks ++ space, word, sign, figure, ?_, hword, hsign, hfigure, rfl⟩, by simp⟩
  intro c hc
  rcases List.mem_append.mp hc with hc | hc
  · exact hblanks c hc
  · exact hspace c hc

/-- The end of a shadow, or white space and the comma before another layer. -/
def Ends (rest : List Char) : Prop :=
  rest = [] ∨ ∃ blanks more, (∀ c ∈ blanks, isBlank c) ∧ rest = blanks ++ ',' :: more

/-- Looking ahead from within a layer never reads beyond its end. -/
theorem LayerStart.of_append {cs rest : List Char} (h : LayerStart (cs ++ rest))
    (hrest : Ends rest) : LayerStart cs := by
  rcases hrest with rfl | ⟨blanks, more, hblanks, rfl⟩
  · rwa [List.append_nil] at h
  obtain ⟨start, behind, hstart, hsplit⟩ := h
  rw [← List.append_assoc] at hsplit
  have hbefore : ∃ t, cs ++ blanks = start ++ t := by
    rcases List.append_eq_append_iff.mp hsplit with ⟨a, hstarted, ha⟩ | ⟨t, ht, -⟩
    · cases a with
      | nil => exact ⟨[], by rw [hstarted, List.append_nil, List.append_nil]⟩
      | cons c a =>
        obtain ⟨rfl, -⟩ := List.cons.inj ha
        exact absurd (by simp [hstarted]) hstart.comma_not_mem
    · exact ⟨t, ht⟩
  obtain ⟨t, ht⟩ := hbefore
  rcases List.append_eq_append_iff.mp ht with ⟨a, hstarted, ha⟩ | ⟨t, ht, -⟩
  · rcases List.eq_nil_or_concat' a with rfl | ⟨a, e, rfl⟩
    · exact ⟨start, [], hstart, by rw [hstarted, List.append_nil, List.append_nil]⟩
    · -- the last digit of the start would be a blank
      obtain ⟨body, d, hd, rfl⟩ := hstart.exists_last
      rw [← List.append_assoc] at hstarted
      obtain ⟨-, hlast⟩ := List.append_inj' hstarted rfl
      obtain rfl : d = e := by simpa using hlast
      have hblank := hblanks d (by simp [ha])
      rw [hd] at hblank
      cases hblank
  · exact ⟨start, t, hstart, ht⟩

/-! ### Layers joined -/

/-- The text of a layer. -/
structure LayerText where
  text : List Char
  ne_nil : text ≠ []
  first_solid : ∀ c ∈ text.head?, isBlank c = false
  last_solid : ∀ c ∈ text.getLast?, isBlank c = false
  /-- Every parenthesis is closed. -/
  balanced : text.count '(' = text.count ')'
  /-- None is closed before it is opened. -/
  opened : ∀ before, before <+: text → before.count ')' ≤ before.count '('
  /-- No comma outside parentheses has the start of a layer behind it. -/
  whole : ∀ before after, text = before ++ ',' :: after →
    before.count '(' = before.count ')' → ¬LayerStart after

/-- A layer that follows others, with the white space on both sides of the comma before it. -/
structure NextLayer extends LayerText where
  before : List Char
  after : List Char
  before_blank : ∀ c ∈ before, isBlank c
  after_blank : ∀ c ∈ after, isBlank c
  starts : LayerStart text

/-- The layers behind the first one. -/
def joinedMore (more : List NextLayer) : List Char :=
  more.flatMap fun n => n.before ++ ',' :: (n.after ++ n.text)

def joined (first : LayerText) (more : List NextLayer) : String :=
  String.ofList (first.text ++ joinedMore more)

/-- The layers' texts. -/
def layerTexts (first : LayerText) (more : List NextLayer) : List String :=
  String.ofList first.text :: more.map fun n => String.ofList n.text

theorem ends_joinedMore (more : List NextLayer) : Ends (joinedMore more) := by
  cases more with
  | nil => exact .inl rfl
  | cons n more =>
    refine .inr ⟨n.before, n.after ++ (n.text ++ joinedMore more), n.before_blank, ?_⟩
    simp [joinedMore]

theorem trimChars_blanks {before text after : List Char} (hbefore : ∀ c ∈ before, isBlank c)
    (hafter : ∀ c ∈ after, isBlank c) (hne : text ≠ []) (hfirst : ∀ c ∈ text.head?, isBlank c = false)
    (hlast : ∀ c ∈ text.getLast?, isBlank c = false) :
    trimChars (before ++ (text ++ after)) = text := by
  have hhead : ∀ c ∈ (text ++ after).head?, isBlank c = false := by
    rwa [List.head?_append_of_ne_nil _ hne]
  have hend : ∀ c ∈ (text.reverse).head?, isBlank c = false := by
    rwa [List.head?_reverse]
  rw [trimChars, dropWhile_append_stop hbefore hhead, List.reverse_append,
    dropWhile_append_stop (by simpa using hafter) hend, List.reverse_reverse]

/-- How many parentheses are open behind a text. -/
def depthOf (seen : List Char) : Nat :=
  seen.count '(' - seen.count ')'

theorem depthAfter_depthOf {seen : List Char} {c : Char}
    (h : ∀ before, before <+: [c] → (seen ++ before).count ')' ≤ (seen ++ before).count '(') :
    depthAfter (depthOf seen) c = depthOf (seen ++ [c]) := by
  have hseen := h [] List.nil_prefix
  rw [List.append_nil] at hseen
  rw [depthOf, depthOf, List.count_append, List.count_append]
  by_cases hopen : c = '('
  · subst hopen
    simp [depthAfter]
    omega
  by_cases hclose : c = ')'
  · subst hclose
    simp [depthAfter]
    omega
  · simp [depthAfter, hopen, hclose]

/-- Text in which no comma separates is passed over; `seen` is what the depth was counted on. -/
theorem layersFrom_append (seen : List Char) {cs rest : List Char}
    (hopened : ∀ before, before <+: cs → (seen ++ before).count ')' ≤ (seen ++ before).count '(')
    (hwhole : ∀ before after, cs = before ++ ',' :: after → depthOf (seen ++ before) = 0 →
      startsLayer (after ++ rest) = false) (part : List Char) :
    layersFrom (depthOf seen) part (cs ++ rest) =
      layersFrom (depthOf (seen ++ cs)) (cs.reverse ++ part) rest := by
  induction cs generalizing seen part with
  | nil =>
    rw [List.append_nil]
    rfl
  | cons c cs ih =>
    have hstay : ¬(c == ',' && depthOf seen == 0 && startsLayer (cs ++ rest)) := by
      simp only [Bool.and_eq_true, beq_iff_eq, not_and, Bool.not_eq_true]
      rintro ⟨rfl, hdepth⟩
      exact hwhole [] cs rfl (by rwa [List.append_nil])
    have hjoin : ∀ ds, seen ++ c :: ds = seen ++ [c] ++ ds := by simp
    have hc : [c] <+: c :: cs := by simp
    rw [List.cons_append, layersFrom, if_neg hstay,
      depthAfter_depthOf fun before hbefore => hopened before (hbefore.trans hc),
      ih (seen ++ [c])]
    · simp
    · intro before hbefore
      rw [← hjoin]
      exact hopened (c :: before) (List.cons_prefix_cons.mpr ⟨rfl, hbefore⟩)
    · intro before after heq hdepth
      rw [← hjoin] at hdepth
      exact hwhole (c :: before) after (by rw [heq]; rfl) hdepth

theorem layersFrom_blanks {blanks : List Char} (h : ∀ c ∈ blanks, isBlank c)
    (part rest : List Char) :
    layersFrom 0 part (blanks ++ rest) = layersFrom 0 (blanks.reverse ++ part) rest := by
  induction blanks generalizing part with
  | nil => rfl
  | cons c blanks ih =>
    obtain ⟨hc, hblanks⟩ := List.forall_mem_cons.mp h
    have hplain : (c == ',') = false ∧ depthAfter 0 c = 0 :=
      forall_isBlank (P := fun c => (c == ',') = false ∧ depthAfter 0 c = 0) (by decide +kernel) hc
    rw [List.cons_append, layersFrom, hplain.1, hplain.2, Bool.false_and, Bool.false_and,
      if_neg Bool.false_ne_true, ih hblanks]
    simp

/-- A layer's own text is never divided. -/
theorem LayerText.layersFrom_text (t : LayerText) {rest : List Char} (hrest : Ends rest)
    (part : List Char) :
    layersFrom 0 part (t.text ++ rest) = layersFrom 0 (t.text.reverse ++ part) rest := by
  have hdepth : depthOf ([] ++ t.text) = 0 := by simp [depthOf, t.balanced]
  have hwhole : ∀ before after, t.text = before ++ ',' :: after → depthOf ([] ++ before) = 0 →
      startsLayer (after ++ rest) = false := by
    intro before after heq hzero
    have hclosed := t.opened before ⟨',' :: after, heq.symm⟩
    have hopen : before.count '(' = before.count ')' := by
      rw [List.nil_append, depthOf] at hzero
      omega
    rw [← Bool.not_eq_true, startsLayer_iff]
    exact fun hstart => t.whole before after heq hopen (hstart.of_append hrest)
  have hpass := layersFrom_append [] t.opened hwhole part
  rwa [hdepth] at hpass

theorem layersFrom_joined (t : LayerText) (more : List NextLayer) {blanks : List Char}
    (hblanks : ∀ c ∈ blanks, isBlank c) :
    layersFrom 0 blanks.reverse (t.text ++ joinedMore more) =
      t.text :: more.map fun n => n.text := by
  have htrim : ∀ after, (∀ c ∈ after, isBlank c) →
      trimChars (blanks ++ (t.text ++ after)) = t.text :=
    fun after hafter => trimChars_blanks hblanks hafter t.ne_nil t.first_solid t.last_solid
  rw [t.layersFrom_text (ends_joinedMore more)]
  -- what is left of the white space before a layer is at the start of its part, and is trimmed off
  induction more generalizing t blanks with
  | nil =>
    have hpart := htrim [] (by simp)
    rw [List.append_nil] at hpart
    simp [joinedMore, layersFrom, hpart, t.ne_nil]
  | cons n more ih =>
    have hjoin : joinedMore (n :: more) =
        n.before ++ ',' :: (n.after ++ (n.text ++ joinedMore more)) := by
      simp [joinedMore]
    have hstarts : startsLayer (n.after ++ (n.text ++ joinedMore more)) :=
      startsLayer_iff.mpr ((n.starts.append _).blanks_append n.after_blank)
    have hpart : (n.before.reverse ++ (t.text.reverse ++ blanks.reverse)).reverse =
        blanks ++ (t.text ++ n.before) := by
      simp
    rw [hjoin, layersFrom_blanks n.before_blank, layersFrom, if_pos (by simpa using hstarts),
      hpart, htrim n.before n.before_blank, layersFrom_blanks n.after_blank, List.append_nil,
      n.layersFrom_text (ends_joinedMore more), ih n.toLayerText n.after_blank fun after hafter =>
        trimChars_blanks n.after_blank hafter n.ne_nil n.first_solid n.last_solid]
    rfl

/-! ### Reading the layers -/

theorem isSome_parseShadow (name value : String) (root : Float) :
    (parseShadow name value root).isSome =
      (!(splitLayers value).isEmpty &&
        (splitLayers value).all fun text => (parseLayer text root).isSome) := by
  rw [← isSome_mapM, parseShadow]
  cases h : (splitLayers value).mapM (parseLayer · root) with
  | none => simp
  | some layers =>
    have hlength := (mapM_eq_some h).length_eq
    cases layers with
    | nil => simp_all
    | cons layer layers => simp [List.ne_nil_of_length_eq_add_one hlength]

section

variable {name value : String} {root : Float} {p : ShadowPreset}

theorem layers_of_parseShadow (h : parseShadow name value root = some p) : p.name = name ∧
    List.Forall₂ (fun text layer => parseLayer text root = some layer) (splitLayers value)
      p.layers := by
  obtain ⟨layers, hlayers, h⟩ := Option.bind_eq_some_iff.mp h
  split at h
  · cases h
  · obtain rfl := Option.some.inj h
    exact ⟨rfl, mapM_eq_some hlayers⟩

theorem parseShadow_eq_some (hne : splitLayers value ≠ []) :
    parseShadow name value root = some p ↔ p.name = name ∧
      List.Forall₂ (fun text layer => parseLayer text root = some layer) (splitLayers value)
        p.layers := by
  constructor
  · exact layers_of_parseShadow
  · rw [parseShadow]
    obtain ⟨pname, layers⟩ := p
    rintro ⟨rfl, h⟩
    have hlayers : layers ≠ [] := by
      rintro rfl
      exact hne (List.length_eq_zero_iff.mp h.length_eq)
    rw [mapM_some_of_forall₂ h]
    exact if_neg (by simpa using hlayers)

end

/-- Layers joined by commas are divided into their own texts, and a shadow is read from them exactly
when each of them can be read: its layers are what the texts are read as, in order. -/
theorem splitLayers_joined (first : LayerText) (more : List NextLayer) :
    splitLayers (joined first more) = layerTexts first more ∧
      ∀ name root,
        ((parseShadow name (joined first more) root).isSome ↔
          ∀ text ∈ layerTexts first more, (parseLayer text root).isSome) ∧
        ∀ p, parseShadow name (joined first more) root = some p ↔ p.name = name ∧
          List.Forall₂ (fun text layer => parseLayer text root = some layer)
            (layerTexts first more) p.layers := by
  have hsplit : splitLayers (joined first more) = layerTexts first more := by
    have hnone : ∀ c ∈ ([] : List Char), isBlank c := by simp
    have hjoined := layersFrom_joined first more hnone
    rw [splitLayers, joined, String.toList_ofList]
    exact (congrArg (List.map String.ofList) hjoined).trans (by simp [layerTexts])
  have hne : splitLayers (joined first more) ≠ [] := by
    rw [hsplit, layerTexts]
    exact List.cons_ne_nil _ _
  refine ⟨hsplit, fun name root => ⟨?_, fun p => ?_⟩⟩
  · rw [isSome_parseShadow, hsplit]
    simp [layerTexts]
  · rw [parseShadow_eq_some hne, hsplit]

/-- A layer with commas in its colour. -/
def outerLayer : LayerText where
  text := "0 1px rgb(0, 0, 0)".toList
  ne_nil := by decide
  first_solid := by
    simp
    decide
  last_solid := by
    simp
    decide
  balanced := by decide
  opened := by
    have hopened : ∀ before ∈ "0 1px rgb(0, 0, 0)".toList.inits,
        before.count ')' ≤ before.count '(' := by decide
    exact fun before hbefore => hopened before ((List.mem_inits _ _).mpr hbefore)
  whole := by
    have hcommas : ∀ before ∈ "0 1px rgb(0, 0, 0)".toList.inits,
        before.count '(' = before.count ')' →
          ("0 1px rgb(0, 0, 0)".toList.drop before.length).head? ≠ some ',' := by decide
    intro before after heq hcount
    refine absurd ?_ (hcommas before ((List.mem_inits _ _).mpr ⟨_, heq.symm⟩) hcount)
    rw [heq, List.drop_left]
    rfl

def innerLayer : NextLayer where
  text := "inset 0 -1px red".toList
  ne_nil := by decide
  first_solid := by
    simp
    decide
  last_solid := by
    simp
    decide
  balanced := by decide
  opened := by
    have hopened : ∀ before ∈ "inset 0 -1px red".toList.inits,
        before.count ')' ≤ before.count '(' := by decide
    exact fun before hbefore => hopened before ((List.mem_inits _ _).mpr hbefore)
  whole := by
    have hcommas : ',' ∉ "inset 0 -1px red".toList := by decide
    intro before after heq
    rw [heq] at hcommas
    exact absurd (List.mem_append_right before List.mem_cons_self) hcommas
  before := [' ', ' ']
  after := ['\n', ' ']
  before_blank := List.all_eq_true.mp rfl
  after_blank := List.all_eq_true.mp rfl
  starts := startsLayer_iff.mp (by decide)

theorem splitLayers_joined_inset :
    splitLayers "0 1px rgb(0, 0, 0)  ,\n inset 0 -1px red" =
      ["0 1px rgb(0, 0, 0)", "inset 0 -1px red"] :=
  (splitLayers_joined outerLayer [innerLayer]).1

end DesignTokens.Css
