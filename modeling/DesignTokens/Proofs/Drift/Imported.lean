import DesignTokens.Drift.DefaultRules
import DesignTokens.Proofs.Text.Spelled
import DesignTokens.Proofs.Text.Words

/-!
Imports that are recognised. Whatever else is imported with it, a name is found in a list on the line
or in parentheses, imported from a module by its full name or relative to another one, and in braces,
imported from a quoted path; but the path may hold no quotation mark, not even one of the other kind.
-/
namespace DesignTokens.Drift

open Text (Pattern Place holds isBlank isWord isWord_of_isBlank forall_head?_append
  forall_head?_cons forall_getLast?_append forall_getLast?_cons)

open Text.Pattern

/-! ### Names and lists of names -/

/-- A run of word characters. -/
structure Identifier (s : String) : Prop where
  ne_nil : s.toList ≠ []
  word : ∀ c ∈ s.toList, isWord c

instance (s : String) : Decidable (Identifier s) :=
  decidable_of_iff (s.toList ≠ [] ∧ s.toList.all isWord)
    ⟨fun ⟨hne, hword⟩ => ⟨hne, List.all_eq_true.mp hword⟩,
      fun h => ⟨h.ne_nil, List.all_eq_true.mpr h.word⟩⟩

/-- Names with commas between them, and gaps around them; a comma may follow the last one. -/
inductive Listing (isGap : Char → Bool) : List String → List Char → Prop where
  | done {gap : List Char} (hgap : ∀ c ∈ gap, isGap c) : Listing isGap [] gap
  | last {lead gap : List Char} {name : String} (hlead : ∀ c ∈ lead, isGap c)
      (hname : Identifier name) (hgap : ∀ c ∈ gap, isGap c) :
      Listing isGap [name] (lead ++ (name.toList ++ gap))
  | more {lead gap rest : List Char} {name : String} {names : List String}
      (hlead : ∀ c ∈ lead, isGap c) (hname : Identifier name) (hgap : ∀ c ∈ gap, isGap c)
      (hrest : Listing isGap names rest) :
      Listing isGap (name :: names) (lead ++ (name.toList ++ (gap ++ ',' :: rest)))

/-- What a list of names is made of. -/
def isListed (isGap : Char → Bool) (c : Char) : Bool := isWord c || c == ',' || isGap c

theorem ne_of_isListed {isGap : Char → Bool} {c : Char} (hc : isListed isGap c) (d : Char)
    (hd : isListed isGap d = false) : c ≠ d := by
  rintro rfl
  rw [hd] at hc
  cases hc

namespace Listing

variable {isGap : Char → Bool} {names : List String} {cs : List Char} {n : String}

theorem isListed_of_mem (h : Listing isGap names cs) : ∀ c ∈ cs, isListed isGap c := by
  have hgapped : ∀ {gap : List Char}, (∀ c ∈ gap, isGap c) → ∀ c ∈ gap, isListed isGap c :=
    fun hgap c hc => by simp [isListed, hgap c hc]
  have hnamed : ∀ {name : String}, Identifier name → ∀ c ∈ name.toList, isListed isGap c :=
    fun hname c hc => by simp [isListed, hname.word c hc]
  induction h with
  | done hgap => exact hgapped hgap
  | last hlead hname hgap =>
    simp only [List.forall_mem_append]
    exact ⟨hgapped hlead, hnamed hname, hgapped hgap⟩
  | more hlead hname hgap _ ih =>
    simp only [List.forall_mem_append, List.forall_mem_cons]
    exact ⟨hgapped hlead, hnamed hname, hgapped hgap, by simp [isListed], ih⟩

/-- A name in a list stands by itself, between characters that belong to no name. -/
theorem exists_split (hblank : ∀ c, isGap c → isBlank c) (h : Listing isGap names cs)
    (hn : n ∈ names) : Identifier n ∧ ∃ pre post, cs = pre ++ (n.toList ++ post) ∧
      (∀ c ∈ pre.getLast?, isWord c = false) ∧ ∀ c ∈ post.head?, isWord c = false := by
  have hedge : ∀ {gap : List Char}, (∀ c ∈ gap, isGap c) → ∀ c ∈ gap, isWord c = false :=
    fun hgap c hc => isWord_of_isBlank (hblank c (hgap c hc))
  induction h with
  | done => cases hn
  | @last lead gap name hlead hname hgap =>
    obtain rfl := List.mem_singleton.mp hn
    exact ⟨hname, lead, gap, rfl, fun c hc => hedge hlead c (List.mem_of_getLast? hc),
      fun c hc => hedge hgap c (List.mem_of_mem_head? hc)⟩
  | @more lead gap rest name names hlead hname hgap _ ih =>
    rcases List.mem_cons.mp hn with rfl | hn
    · refine ⟨hname, lead, gap ++ ',' :: rest, rfl,
        fun c hc => hedge hlead c (List.mem_of_getLast? hc), fun c hc => ?_⟩
      cases gap with
      | nil =>
        obtain rfl : ',' = c := by simpa using hc
        decide
      | cons d gap =>
        obtain rfl : d = c := by simpa using hc
        exact hedge hgap d List.mem_cons_self
    · obtain ⟨hid, pre, post, rfl, hpre, hpost⟩ := ih hn
      have hcomma : ∀ c ∈ (',' :: pre).getLast?, isWord c = false :=
        forall_getLast?_cons (by decide) hpre
      refine ⟨hid, lead ++ (name.toList ++ (gap ++ ',' :: pre)), post, by simp, ?_, hpost⟩
      simpa [List.getLast?_append] using hcomma

end Listing

/-! ### Imports -/

/-- The name of a module by its components. -/
def dotted (parents : List String) (leaf : String) : String :=
  String.intercalate "." (parents ++ [leaf])

def IsGap (cs : List Char) : Prop := cs ≠ [] ∧ ∀ c ∈ cs, isBlank c

/-- A module by its full name, or by dots and any path to its last component. -/
inductive Refers (parents : List String) (leaf : String) : List Char → Prop where
  | absolute : Refers parents leaf (dotted parents leaf).toList
  | relative {dots : List Char} {path : List String} (hne : dots ≠ []) (hdots : ∀ c ∈ dots, c = '.')
      (hpath : ∀ s ∈ path, Identifier s) :
      Refers parents leaf (dots ++ (dotted path leaf).toList)

/-- A list of names on the line, or in parentheses on several lines. -/
inductive Lists (names : List String) : List Char → Prop where
  | line {cs : List Char} (h : Listing (fun c => isBlank c && c != '\n') names cs) : Lists names cs
  | parenthesized {cs : List Char} (h : Listing isBlank names cs) :
    Lists names ('(' :: (cs ++ [')']))

/-- An import of some names from a module. -/
inductive Imports (parents : List String) (leaf : String) (names : List String) :
    List Char → Prop where
  | listed {gap gap' gap'' reference cs : List Char} (hgap : IsGap gap)
      (hreference : Refers parents leaf reference) (hgap' : IsGap gap') (hgap'' : IsGap gap'')
      (hnames : Lists names cs) : Imports parents leaf names
        ("from".toList ++ (gap ++ (reference ++ (gap' ++ ("import".toList ++ (gap'' ++ cs))))))
  | braced {gap gap' gap'' cs path : List Char} {quote : Char} (hgap : ∀ c ∈ gap, isBlank c)
      (hnames : Listing isBlank names cs) (hgap' : ∀ c ∈ gap', isBlank c)
      (hgap'' : ∀ c ∈ gap'', isBlank c) (hquote : isQuote quote)
      (hpath : ∀ c ∈ path, isQuote c = false) : Imports parents leaf names
        ("import".toList ++ (gap ++ '\x7b' :: (cs ++ '\x7d' :: (gap' ++ ("from".toList ++
          (gap'' ++ quote :: (path ++ '/' :: (leaf.toList ++ [quote]))))))))

/-! ### Parts of the patterns -/

/-- An import from a module, up to the names before the one that counts. -/
def fromLead (module : String) : List Pattern :=
  [literal "from", someBlanks, moduleReference module, someBlanks, literal "import", someBlanks,
    listStart]

theorem fromImport_eq (names : List String) (module : String) :
    fromImport names module = all (fromLead module ++ [wholeWord names]) := rfl

theorem isFree_fromLead (module : String) : (all (fromLead module)).IsFree := by
  simp [fromLead, all, IsFree, moduleReference, listStart, someBlanks]

/-- An import in braces, up to the names before the one that counts. -/
def bracedLead : List Pattern :=
  [literal "import", blanks, optional (all [literal "type", someBlanks]), char '\x7b',
    .many (· != '\x7d')]

/-- What follows a name in braces, up to the last slash of the path. -/
def bracedMiddle : List Pattern :=
  [.many (· != '\x7d'), char '\x7d', blanks, literal "from", blanks, .one isQuote,
    .many fun c => !isQuote c]

/-- The end of a path. -/
def bracedEnd (module : String) : List Pattern := [literal (leafOf module), .one isQuote]

theorem bracedImport_eq (names : List String) (module : String) : bracedImport names module =
    all (bracedLead ++ ([wholeWord names] ++ (bracedMiddle ++ ([.wordEdge] ++ bracedEnd module)))) :=
  rfl

theorem isFree_braced (module : String) :
    (all bracedLead).IsFree ∧ (all bracedMiddle).IsFree ∧ (all (bracedEnd module)).IsFree := by
  simp [bracedLead, bracedMiddle, bracedEnd, all, IsFree, blanks, someBlanks]

/-! ### Modules -/

section

variable {parents path : List String} {leaf : String}

theorem dotted_cons (s : String) (path : List String) (leaf : String) :
    dotted (s :: path) leaf = s ++ "." ++ dotted path leaf := by
  cases path with
  | nil => rfl
  | cons t path => exact String.intercalate_cons_cons

theorem leafOf_dotted (hparents : ∀ s ∈ parents, Identifier s) (hleaf : Identifier leaf) :
    leafOf (dotted parents leaf) = leaf := by
  have hsolid : ∀ s ∈ parents ++ [leaf], '.' ∉ s.toList := by
    intro s hs hdot
    have hid : Identifier s := by
      rcases List.mem_append.mp hs with hs | hs
      · exact hparents s hs
      · exact List.mem_singleton.mp hs ▸ hleaf
    exact absurd (hid.word '.' hdot) (by decide)
  have hsplit : Text.splitOn (dotted parents leaf) '.' = parents ++ [leaf] := by
    cases parents with
    | nil => exact @Text.splitOn_intercalate '.' leaf [] hsolid
    | cons first rest => exact @Text.splitOn_intercalate '.' first (rest ++ [leaf]) hsolid
  rw [leafOf, hsplit, List.getLast?_concat]
  rfl

/-- What stands before the last component ends with a dot. -/
theorem exists_dotted (leaf : String) (hne : path ≠ []) (hpath : ∀ s ∈ path, Identifier s) :
    ∃ mid, mid ≠ [] ∧ (∀ c ∈ mid, isDotted c) ∧
      (dotted path leaf).toList = mid ++ '.' :: leaf.toList := by
  induction path with
  | nil => exact absurd rfl hne
  | cons s path ih =>
    obtain ⟨hs, hpath⟩ := List.forall_mem_cons.mp hpath
    have hword : ∀ c ∈ s.toList, isDotted c := fun c hc => by simp [isDotted, hs.word c hc]
    by_cases hlast : path = []
    · subst hlast
      exact ⟨s.toList, hs.ne_nil, hword, by simp [dotted]⟩
    · obtain ⟨mid, -, hmid, hdotted⟩ := ih hlast hpath
      refine ⟨s.toList ++ '.' :: mid, List.append_ne_nil_of_left_ne_nil hs.ne_nil _, ?_, ?_⟩
      · rw [List.forall_mem_append, List.forall_mem_cons]
        exact ⟨hword, by decide, hmid⟩
      · simp [dotted_cons, hdotted]

end

/-! ### What the patterns find -/

theorem holds_eq_false_iff {test : Char → Bool} {o : Option Char} :
    holds test o = false ↔ ∀ c ∈ o, test c = false := by
  cases o <;> simp [holds]

/-- A name that stands by itself is a whole word. -/
theorem fits_wholeWord {names : List String} {n : String} {p q : Place} (hn : n ∈ names)
    (hid : Identifier n) (hspans : p.Spans n.toList q)
    (hbefore : holds isWord p.before = false) (hafter : holds isWord q.rest.head? = false) :
    (wholeWord names).Fits p q := by
  have hlead : holds isWord p.rest.head? = true := by
    obtain ⟨c, cs, hc⟩ := List.exists_cons_of_ne_nil hid.ne_nil
    rw [hspans.rest_eq, hc]
    exact hid.word c (hc ▸ List.mem_cons_self)
  have hlast : holds isWord q.before = true := by
    have hc := List.getLast?_eq_some_getLast hid.ne_nil
    rw [hspans.before_eq, hc]
    exact hid.word _ (List.getLast_mem _)
  refine ⟨p, ⟨by simp [hbefore, hlead], rfl⟩, q, ?_, by simp [hlast, hafter], rfl⟩
  exact (fits_iff_spells (isFree_oneOf names)).mpr
    ⟨n.toList, (spells_oneOf (List.ne_nil_of_mem hn)).mpr ⟨n, hn, rfl⟩, hspans⟩

theorem spells_moduleReference {parents : List String} {leaf : String} {cs : List Char}
    (hparents : ∀ s ∈ parents, Identifier s) (hleaf : Identifier leaf)
    (h : Refers parents leaf cs) : (moduleReference (dotted parents leaf)).Spells cs := by
  cases h with
  | absolute => exact .inl (spells_literal.mpr rfl)
  | @relative dots path hne hdots hpath =>
    refine .inr ?_
    have hdotted : (some' (· == '.')).Spells dots :=
      spells_some'.mpr ⟨hne, fun c hc => beq_iff_eq.mpr (hdots c hc)⟩
    rw [leafOf_dotted hparents hleaf]
    by_cases hdirect : path = []
    · subst hdirect
      exact ⟨dots, _, hdotted, ⟨[], _, .inr rfl, spells_literal.mpr rfl, rfl⟩, rfl⟩
    · obtain ⟨mid, hmid, hchars, hpath⟩ := exists_dotted leaf hdirect hpath
      have hbetween : (optional (all [some' isDotted, char '.'])).Spells (mid ++ ['.']) :=
        .inl ⟨mid, ['.'], spells_some'.mpr ⟨hmid, hchars⟩, spells_char.mpr rfl, rfl⟩
      refine ⟨dots, _, hdotted, ⟨_, _, hbetween, spells_literal.mpr rfl, rfl⟩, ?_⟩
      rw [hpath, List.append_assoc, List.singleton_append]

/-- A name of a list follows what may start a list. -/
theorem Lists.exists_split {names : List String} {cs : List Char} {n : String}
    (h : Lists names cs) (hn : n ∈ names) : Identifier n ∧ ∃ pre post,
      cs = pre ++ (n.toList ++ post) ∧ listStart.Spells pre ∧
      (∀ c ∈ pre.getLast?, isWord c = false) ∧ ∀ c ∈ post.head?, isWord c = false := by
  cases h with
  | line h =>
    obtain ⟨hid, pre, post, rfl, hpre, hpost⟩ := h.exists_split (fun c hc => by simp_all) hn
    refine ⟨hid, pre, post, rfl, .inr fun c hc => ?_, hpre, hpost⟩
    have hlisted := h.isListed_of_mem c (List.mem_append_left _ hc)
    simp [ne_of_isListed hlisted '\n' (by decide),
      ne_of_isListed hlisted '(' (by decide)]
  | @parenthesized cs h =>
    obtain ⟨hid, pre, post, rfl, hpre, hpost⟩ := h.exists_split (fun _ => id) hn
    refine ⟨hid, '(' :: pre, post ++ [')'], by simp, .inl ?_,
      forall_getLast?_cons (by decide) hpre,
      forall_head?_append hpost (forall_head?_cons (by decide))⟩
    · refine ⟨['('], pre, spells_char.mpr rfl, fun c hc => ?_, rfl⟩
      have hlisted := h.isListed_of_mem c (List.mem_append_left _ hc)
      simpa using ne_of_isListed hlisted ')' (by decide)

/-- Between a slash and an identifier is the edge of a word. -/
theorem fits_wordEdge {leaf : String} {p q : Place} {path rest : List Char} (hleaf : Identifier leaf)
    (hspans : p.Spans (path ++ ['/']) q) (hrest : q.rest = leaf.toList ++ rest) :
    Pattern.wordEdge.Fits q q := by
  obtain ⟨c, cs, hc⟩ := List.exists_cons_of_ne_nil hleaf.ne_nil
  have hhead : q.rest.head? = some c := by rw [hrest, hc, List.cons_append, List.head?_cons]
  refine ⟨?_, rfl⟩
  rw [hspans.before_eq_of_append (List.cons_ne_nil _ _), hhead]
  simp only [holds, List.getLast?_singleton, hleaf.word c (hc ▸ List.mem_cons_self), ne_eq,
    Bool.not_eq_true]
  decide

theorem spells_bracedLead {gap pre : List Char} (hgap : ∀ c ∈ gap, isBlank c)
    (hpre : ∀ c ∈ pre, c != '\x7d') :
    (all bracedLead).Spells ("import".toList ++ (gap ++ '\x7b' :: pre)) :=
  ⟨_, _, spells_literal.mpr rfl, ⟨_, _, spells_blanks.mpr hgap, ⟨_, _, .inr rfl,
    ⟨_, _, spells_char.mpr rfl, hpre, rfl⟩, rfl⟩, rfl⟩, rfl⟩

theorem spells_bracedMiddle {post gap gap' path : List Char} {quote : Char}
    (hpost : ∀ c ∈ post, c != '\x7d') (hgap : ∀ c ∈ gap, isBlank c) (hgap' : ∀ c ∈ gap', isBlank c)
    (hquote : isQuote quote) (hpath : ∀ c ∈ path, isQuote c = false) :
    (all bracedMiddle).Spells (post ++ '\x7d' :: (gap ++ ("from".toList ++
      (gap' ++ quote :: (path ++ ['/']))))) := by
  refine ⟨_, _, hpost, ⟨_, _, spells_char.mpr rfl, ⟨_, _, spells_blanks.mpr hgap,
    ⟨_, _, spells_literal.mpr rfl, ⟨_, _, spells_blanks.mpr hgap', ⟨_, path ++ ['/'],
      ⟨quote, hquote, rfl⟩, ?_, rfl⟩, rfl⟩, rfl⟩, rfl⟩, rfl⟩, rfl⟩
  exact List.forall_mem_append.mpr ⟨fun c hc => by simp [hpath c hc], by simp [isQuote]⟩

theorem spells_bracedEnd {parents : List String} {leaf : String} {quote : Char}
    (hparents : ∀ s ∈ parents, Identifier s) (hleaf : Identifier leaf) (hquote : isQuote quote) :
    (all (bracedEnd (dotted parents leaf))).Spells (leaf.toList ++ [quote]) := by
  rw [bracedEnd, leafOf_dotted hparents hleaf]
  exact ⟨_, _, spells_literal.mpr rfl, ⟨quote, hquote, rfl⟩, rfl⟩

section

variable {parents names listed : List String} {leaf n : String}
  (hparents : ∀ s ∈ parents, Identifier s) (hleaf : Identifier leaf) (hn : n ∈ names)
  (hlisted : n ∈ listed)
include hparents hleaf hn hlisted

theorem exists_fits_fromImport {gap gap' gap'' reference cs after : List Char} (hgap : IsGap gap)
    (hreference : Refers parents leaf reference) (hgap' : IsGap gap') (hgap'' : IsGap gap'')
    (h : Lists listed cs) (hafter : ∀ c ∈ after.head?, isWord c = false) {p : Place}
    (hp : p.rest = "from".toList ++ (gap ++ (reference ++ (gap' ++ ("import".toList ++
      (gap'' ++ cs))))) ++ after) :
    ∃ q, (fromImport names (dotted parents leaf)).Fits p q := by
  obtain ⟨hid, pre, post, rfl, hstart, hpre, hpost⟩ := h.exists_split hlisted
  let lead := "from".toList ++ (gap ++ (reference ++ (gap' ++ ("import".toList ++ (gap'' ++ pre)))))
  have hspells : (all (fromLead (dotted parents leaf))).Spells lead :=
    ⟨_, _, spells_literal.mpr rfl, ⟨_, _, spells_someBlanks.mpr hgap,
      ⟨_, _, spells_moduleReference hparents hleaf hreference, ⟨_, _, spells_someBlanks.mpr hgap',
        ⟨_, _, spells_literal.mpr rfl, ⟨_, _, spells_someBlanks.mpr hgap'', hstart, rfl⟩, rfl⟩,
          rfl⟩, rfl⟩, rfl⟩, rfl⟩
  let m := p.after lead (n.toList ++ (post ++ after))
  have hlead : p.Spans lead m := Place.spans_of_rest (by simp [hp, lead])
  have hbefore : holds isWord m.before = false := by
    obtain ⟨hne, hblank⟩ := hgap''
    have hlast : ∀ c ∈ (gap'' ++ pre).getLast?, isWord c = false := forall_getLast?_append
      (fun c hc => isWord_of_isBlank (hblank c (List.mem_of_getLast? hc))) hpre
    have hend : p.Spans (("from".toList ++ (gap ++ (reference ++ (gap' ++ "import".toList)))) ++
        (gap'' ++ pre)) m := by simpa [lead] using hlead
    rw [hend.before_eq_of_append (List.append_ne_nil_of_left_ne_nil hne pre)]
    exact holds_eq_false_iff.mpr hlast
  let q := m.after n.toList (post ++ after)
  rw [fromImport_eq]
  refine ⟨q, (fits_all_append (fromLead _) _).mpr
    ⟨m, (fits_iff_spells (isFree_fromLead _)).mpr ⟨lead, hspells, hlead⟩, ?_⟩⟩
  exact fits_wholeWord hn hid (Place.spans_of_rest rfl) hbefore
    (holds_eq_false_iff.mpr (forall_head?_append hpost hafter))

theorem exists_fits_bracedImport {gap gap' gap'' cs path after : List Char} {quote : Char}
    (hgap : ∀ c ∈ gap, isBlank c) (h : Listing isBlank listed cs) (hgap' : ∀ c ∈ gap', isBlank c)
    (hgap'' : ∀ c ∈ gap'', isBlank c) (hquote : isQuote quote)
    (hpath : ∀ c ∈ path, isQuote c = false) {p : Place}
    (hp : p.rest = "import".toList ++ (gap ++ '\x7b' :: (cs ++ '\x7d' :: (gap' ++
      ("from".toList ++ (gap'' ++ quote :: (path ++ '/' :: (leaf.toList ++ [quote]))))))) ++
        after) :
    ∃ q, (bracedImport names (dotted parents leaf)).Fits p q := by
  obtain ⟨hid, pre, post, rfl, hpre, hpost⟩ := h.exists_split (fun _ => id) hlisted
  have hinside : ∀ c ∈ pre ++ (n.toList ++ post), c != '\x7d' := fun c hc =>
    bne_iff_ne.mpr (ne_of_isListed (h.isListed_of_mem c hc) _ (by decide))
  simp only [List.forall_mem_append] at hinside
  obtain ⟨hinpre, -, hinpost⟩ := hinside
  let lead := "import".toList ++ (gap ++ '\x7b' :: pre)
  let middle := post ++ '\x7d' :: (gap' ++ ("from".toList ++ (gap'' ++ quote :: (path ++ ['/']))))
  let tail := leaf.toList ++ [quote]
  obtain ⟨hfree, hfree', hfree''⟩ := isFree_braced (dotted parents leaf)
  let m := p.after lead (n.toList ++ (middle ++ (tail ++ after)))
  let m' := m.after n.toList (middle ++ (tail ++ after))
  let m'' := m'.after middle (tail ++ after)
  have hm : p.Spans lead m := Place.spans_of_rest (by simp [hp, lead, middle, tail])
  have hm'' : m'.Spans middle m'' := Place.spans_of_rest rfl
  have hword : (wholeWord names).Fits m m' := by
    refine fits_wholeWord hn hid (Place.spans_of_rest rfl) ?_ ?_
    · have hend : p.Spans (("import".toList ++ gap) ++ ('\x7b' :: pre)) m := by
        simpa [lead] using hm
      rw [hend.before_eq_of_append (List.cons_ne_nil _ _)]
      exact holds_eq_false_iff.mpr (forall_getLast?_cons (by decide) hpre)
    · have hrest : m'.rest = post ++ '\x7d' :: (gap' ++ ("from".toList ++ (gap'' ++ quote ::
          (path ++ '/' :: (tail ++ after))))) := by simp [m', middle]
      rw [hrest]
      exact holds_eq_false_iff.mpr (forall_head?_append hpost (forall_head?_cons (by decide)))
  have hedge : Pattern.wordEdge.Fits m'' m'' := by
    have hslash : m'.Spans ((post ++ '\x7d' :: (gap' ++ ("from".toList ++
        (gap'' ++ quote :: path)))) ++ ['/']) m'' := by simpa [middle] using hm''
    exact fits_wordEdge hleaf hslash (List.append_assoc leaf.toList [quote] after)
  let q := m''.after tail after
  rw [bracedImport_eq]
  refine ⟨q, (fits_all_append bracedLead _).mpr
    ⟨m, (fits_iff_spells hfree).mpr ⟨lead, spells_bracedLead hgap hinpre, hm⟩, ?_⟩⟩
  refine (fits_all_append [wholeWord names] _).mpr ⟨m', hword, ?_⟩
  refine (fits_all_append bracedMiddle _).mpr ⟨m'', (fits_iff_spells hfree').mpr
    ⟨middle, spells_bracedMiddle hinpost hgap' hgap'' hquote hpath, hm''⟩, ?_⟩
  exact (fits_all_append [.wordEdge] _).mpr ⟨m'', hedge, (fits_iff_spells hfree'').mpr
    ⟨tail, spells_bracedEnd hparents hleaf hquote, Place.spans_of_rest rfl⟩⟩

/-- An import is found wherever it stands, if no word goes on after it, and a rule that requires it
leaves nothing. -/
theorem importOf_found {cs : List Char} (h : Imports parents leaf listed cs) (before : List Char)
    {after : List Char} (hafter : ∀ c ∈ after.head?, isWord c = false) :
    (importOf names (dotted parents leaf)).found (String.ofList (before ++ (cs ++ after))) ∧
      ∀ r : Rule, r.required = some (importOf names (dotted parents leaf)) →
        ∀ path, r.evaluate path (String.ofList (before ++ (cs ++ after))) = [] := by
  have hfound : (importOf names (dotted parents leaf)).found
      (String.ofList (before ++ (cs ++ after))) := by
    refine found_of_rest (fun p hp => ?_) before
    cases h with
    | listed hgap hreference hgap' hgap'' hnames =>
      obtain ⟨q, hq⟩ := exists_fits_fromImport hparents hleaf hn hlisted hgap hreference hgap'
        hgap'' hnames hafter hp
      exact ⟨q, .inl hq⟩
    | braced hgap hnames hgap' hgap'' hquote hpath =>
      obtain ⟨q, hq⟩ := exists_fits_bracedImport hparents hleaf hn hlisted hgap hnames hgap'
        hgap'' hquote hpath hp
      exact ⟨q, .inr hq⟩
  refine ⟨hfound, fun r hr path => ?_⟩
  have hsatisfied : r.isSatisfied (String.ofList (before ++ (cs ++ after))) := by
    rw [Rule.isSatisfied, hr]
    exact hfound
  rw [Rule.evaluate, hsatisfied, Bool.or_true, if_pos rfl]

end

/-- A relative import of two names, each on a line of its own. -/
def relativeImport : List Char :=
  "from ..design.constants import (\n    OPACITY_FULL,\n    OPACITY,\n)".toList

theorem imports_relativeImport :
    Imports ["design_sync"] "constants" ["OPACITY_FULL", "OPACITY"] relativeImport := by
  have hmargin : ∀ c ∈ "\n    ".toList, isBlank c := List.all_eq_true.mp (by decide)
  have hbreak : ∀ c ∈ ['\n'], isBlank c := List.all_eq_true.mp (by decide)
  have hgap : IsGap [' '] := ⟨List.cons_ne_nil _ _, List.all_eq_true.mp (by decide)⟩
  have hlast : Listing isBlank ["OPACITY"] "\n    OPACITY,\n".toList :=
    .more hmargin (by decide +kernel) (List.forall_mem_nil _) (.done hbreak)
  have hnames : Listing isBlank ["OPACITY_FULL", "OPACITY"]
      "\n    OPACITY_FULL,\n    OPACITY,\n".toList :=
    .more hmargin (by decide +kernel) (List.forall_mem_nil _) hlast
  have hreference : Refers ["design_sync"] "constants" "..design.constants".toList :=
    @Refers.relative _ _ ['.', '.'] ["design"] (List.cons_ne_nil _ _) (by simp) (by decide +kernel)
  exact .listed hgap hreference hgap hgap (.parenthesized hnames)

theorem importOf_found_relative :
    (importOf ["OPACITY"] defaultConstantsModule).found (String.ofList
        ("# layout\n".toList ++ (relativeImport ++ "\nnode.opacity = 0.5\n".toList))) ∧
      ∀ r : Rule, r.required = some (importOf ["OPACITY"] defaultConstantsModule) →
        ∀ path, r.evaluate path (String.ofList ("# layout\n".toList ++
          (relativeImport ++ "\nnode.opacity = 0.5\n".toList))) = [] := by
  have hparents : ∀ s ∈ ["design_sync"], Identifier s := by decide +kernel
  have hafter : ∀ c ∈ "\nnode.opacity = 0.5\n".toList.head?, isWord c = false :=
    forall_head?_cons (by decide)
  have hmodule : dotted ["design_sync"] "constants" = defaultConstantsModule := by decide +kernel
  rw [← hmodule]
  exact importOf_found hparents (by decide +kernel) (List.mem_singleton.mpr rfl)
    (List.mem_cons_of_mem _ (List.mem_singleton.mpr rfl)) imports_relativeImport _ hafter

/-- An apostrophe in a path in double quotes hides the import. -/
def apostropheImport : String :=
  "import \x7b OPACITY \x7d from \"../it's/constants\";\nnode.opacity = 0.5;\n"

theorem apostropheImport_not_found :
    (importOf ["OPACITY"] defaultConstantsModule).found apostropheImport = false ∧
      (evaluateAll (defaultRules defaultConstantsModule) "src/node.ts" apostropheImport).map
        (fun v => (v.ruleId, v.line)) = [("DRIFT.HARDCODED_OPACITY", some 2)] := by
  decide +kernel

end DesignTokens.Drift
