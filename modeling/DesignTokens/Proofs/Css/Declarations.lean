import DesignTokens.Css.Property
import DesignTokens.Proofs.Tables
import DesignTokens.Proofs.Text.Words
import DesignTokens.Text.Order
import Mathlib.Data.List.TakeWhile

/-!
What a style sheet declares. Of the declarations of a property the last one counts. A sheet is written
as blocks within blocks, declarations, white space and comments; in any layout, and whatever its
comments hold, its own declarations are found and nothing else.
-/
namespace DesignTokens.Css

open Text

/-- The value in the last declaration of a property. -/
def declared? (css name : String) : Option String :=
  (declarations false (removeComments css.toList)).reverse.lookup name

theorem get?_customProperties (css name : String) :
    Table.get? name (customProperties css) = declared? css name := by
  rw [customProperties, Table.get?_ofPairs, declared?]

/-! ### Sheets and their texts -/

/-- What may stand between the parts of a sheet: a blank, or a comment, which holds anything but an
end of a comment. -/
inductive Gap where
  | blank (c : Char) (h : isBlank c)
  | comment (content : List Char) (h : ¬['*', '/'] <:+: content)

/-- A declaration of a custom property. -/
structure Custom where
  /-- The name after its two hyphens. -/
  name : List Char
  /-- What stands before the colon. -/
  space : List Char
  /-- The value, with the white space around it. -/
  value : List Char
  name_ne_nil : name ≠ []
  name_chars : ∀ c ∈ name, isNameChar c
  space_blank : ∀ c ∈ space, isBlank c
  value_ne_nil : value ≠ []
  value_chars : ∀ c ∈ value, isValueChar c
  value_plain : ¬['/', '*'] <:+: value

/-- Any other declaration, without the semicolon that ends it. -/
structure Other where
  text : List Char
  nameless : ¬['-', '-'] <:+: text
  plain : ¬['/', '*'] <:+: text

/-- A selector, or a part of one. Semicolons and braces are no part of it. -/
structure Selector where
  text : List Char
  chars : ∀ c ∈ text, isValueChar c
  plain : ¬['/', '*'] <:+: text

/-- The items of a sheet. There may be gaps in the selector of a block, and before and behind it. -/
inductive Item where
  | gap (g : Gap)
  | custom (d : Custom)
  | other (d : Other)
  | block (selector : Selector) (more : List (Gap × Selector)) (items : List Item)

def Gap.text : Gap → List Char
  | .blank c _ => [c]
  | .comment content _ => '/' :: '*' :: (content ++ ['*', '/'])

def Custom.text (d : Custom) : List Char :=
  '-' :: '-' :: (d.name ++ (d.space ++ ':' :: (d.value ++ [';'])))

/-- The text before the opening brace of a block. -/
def selectorText (selector : Selector) (more : List (Gap × Selector)) : List Char :=
  selector.text ++ more.flatMap fun p => p.1.text ++ p.2.text

mutual

def Item.text : Item → List Char
  | .gap g => g.text
  | .custom d => d.text
  | .other d => d.text ++ [';']
  | .block selector more items =>
    selectorText selector more ++ '\x7b' :: (Item.texts items ++ ['\x7d'])

def Item.texts : List Item → List Char
  | [] => []
  | i :: items => i.text ++ Item.texts items

end

/-- The property and its value, each stretch of white space in it made one space. -/
def Custom.declared (d : Custom) : String × String :=
  (String.ofList ('-' :: '-' :: d.name), collapse (String.ofList d.value))

mutual

/-- The declarations of custom properties in an item, those of inner blocks included. -/
def Item.declared : Item → List (String × String)
  | .custom d => [d.declared]
  | .block _ _ items => Item.declaredIn items
  | _ => []

def Item.declaredIn : List Item → List (String × String)
  | [] => []
  | i :: items => i.declared ++ Item.declaredIn items

end

/-! ### Comments -/

theorem pair_infix_cons {a b c : Char} {cs : List Char} :
    [a, b] <:+: c :: cs ↔ (c = a ∧ cs.head? = some b) ∨ [a, b] <:+: cs := by
  rw [List.infix_cons_iff, List.cons_prefix_cons]
  cases cs with
  | nil => simp
  | cons d ds => simp [List.cons_prefix_cons, eq_comm]

theorem removeComments_cons {c : Char} {cs : List Char} (h : ¬(c = '/' ∧ cs.head? = some '*')) :
    removeComments (c :: cs) = c :: removeComments cs := by
  cases cs with
  | nil => simp [removeComments]
  | cons d ds =>
    rw [removeComments]
    intro heq
    simp_all

/-- Text before what cannot end the start of a comment. -/
theorem removeComments_append {cs rest : List Char} (h : ¬['/', '*'] <:+: cs)
    (hrest : rest.head? ≠ some '*') :
    removeComments (cs ++ rest) = cs ++ removeComments rest := by
  induction cs with
  | nil => rfl
  | cons c cs ih =>
    obtain ⟨hc, hcs⟩ := not_or.mp (mt pair_infix_cons.mpr h)
    rw [List.cons_append, removeComments_cons, ih hcs, List.cons_append]
    cases cs with
    | nil => exact fun hstart => hrest hstart.2
    | cons d ds => exact hc

theorem removeComments_of_not_mem {cs : List Char} (h : '/' ∉ cs) (rest : List Char) :
    removeComments (cs ++ rest) = cs ++ removeComments rest := by
  induction cs with
  | nil => rfl
  | cons c cs ih =>
    obtain ⟨hc, hcs⟩ := not_or.mp (mt List.mem_cons.mpr h)
    rw [List.cons_append, removeComments_cons (fun hstart => hc hstart.1.symm), ih hcs,
      List.cons_append]

theorem afterComment?_cons {c : Char} {cs : List Char} (h : ¬(c = '*' ∧ cs.head? = some '/')) :
    (afterComment? (c :: cs)).map Subtype.val = (afterComment? cs).map Subtype.val := by
  have hskip : afterComment? (c :: cs) =
      (afterComment? cs).map fun r => ⟨r.1, Nat.lt_succ_of_lt r.2⟩ := by
    rw [afterComment?]
    rintro cs' rfl rfl
    exact h ⟨rfl, rfl⟩
  rw [hskip, Option.map_map]
  rfl

theorem afterComment?_append {content : List Char} (h : ¬['*', '/'] <:+: content)
    (rest : List Char) :
    (afterComment? (content ++ '*' :: '/' :: rest)).map Subtype.val = some rest := by
  induction content with
  | nil => rfl
  | cons c cs ih =>
    obtain ⟨hc, hcs⟩ := not_or.mp (mt pair_infix_cons.mpr h)
    rw [List.cons_append, afterComment?_cons, ih hcs]
    cases cs with
    | nil => simp
    | cons d ds => exact hc

/-- A comment goes from its start to the first end. -/
theorem removeComments_comment {content : List Char} (h : ¬['*', '/'] <:+: content)
    (rest : List Char) :
    removeComments ('/' :: '*' :: (content ++ '*' :: '/' :: rest)) = removeComments rest := by
  obtain ⟨r, hr, hrest⟩ := Option.map_eq_some_iff.mp (afterComment?_append h rest)
  rw [removeComments, hr]
  exact congrArg removeComments hrest

/-- What is left of a gap without comments. -/
def Gap.bare : Gap → List Char
  | .blank c _ => [c]
  | .comment .. => []

theorem Gap.removeComments_text (g : Gap) (rest : List Char) :
    removeComments (g.text ++ rest) = g.bare ++ removeComments rest := by
  cases g with
  | blank c h =>
    have hslash : c ≠ '/' := by
      rintro rfl
      cases h
    exact removeComments_cons fun hstart => hslash hstart.1
  | comment content h =>
    have hjoin : (Gap.comment content h).text ++ rest =
        '/' :: '*' :: (content ++ '*' :: '/' :: rest) := by
      simp [Gap.text]
    rw [hjoin, removeComments_comment h]
    rfl

/-! ### Characters -/

theorem isNameChar_of_isBlank {c : Char} (h : isBlank c) : isNameChar c = false :=
  forall_isBlank (P := fun c => isNameChar c = false) (by decide +kernel) h

theorem isValueChar_of_isBlank {c : Char} (h : isBlank c) : isValueChar c :=
  forall_isBlank (P := fun c => isValueChar c = true) (by decide +kernel) h

theorem isValueChar_of_isNameChar {c : Char} (h : isNameChar c) : isValueChar c := by
  by_contra hvalue
  simp only [isValueChar, Bool.not_eq_true', Bool.not_eq_false, Bool.or_eq_true, beq_iff_eq]
    at hvalue
  rcases hvalue with (rfl | rfl) | rfl <;> revert h <;> decide

/-- What is left of the text before the opening brace of a block without comments. -/
def bareSelector (selector : Selector) (more : List (Gap × Selector)) : List Char :=
  selector.text ++ more.flatMap fun p => p.1.bare ++ p.2.text

theorem head?_more (more : List (Gap × Selector)) (rest : List Char) :
    ((more.flatMap fun p => p.1.text ++ p.2.text) ++ '\x7b' :: rest).head? ≠ some '*' := by
  cases more with
  | nil => simp
  | cons p more =>
    obtain ⟨g, selector⟩ := p
    cases g with
    | blank c h =>
      have hstar : c ≠ '*' := by
        rintro rfl
        cases h
      simpa [Gap.text] using hstar
    | comment content h => simp [Gap.text]

theorem removeComments_selectorText (selector : Selector) (more : List (Gap × Selector))
    (rest : List Char) :
    removeComments (selectorText selector more ++ '\x7b' :: rest) =
      bareSelector selector more ++ '\x7b' :: removeComments rest := by
  rw [selectorText, bareSelector, List.append_assoc,
    removeComments_append selector.plain (head?_more more rest), List.append_assoc]
  congr 1
  induction more with
  | nil => exact removeComments_cons (by simp)
  | cons p more ih =>
    obtain ⟨g, next⟩ := p
    rw [List.flatMap_cons, List.append_assoc, List.append_assoc, g.removeComments_text,
      removeComments_append next.plain (head?_more more rest), ih, List.flatMap_cons]
    simp only [List.append_assoc]

/-- In a declaration only the value can hold a slash. -/
theorem Custom.removeComments_text (d : Custom) (rest : List Char) :
    removeComments (d.text ++ rest) = d.text ++ removeComments rest := by
  have hsplit : ∀ cs, d.text ++ cs =
      ('-' :: '-' :: (d.name ++ (d.space ++ [':']))) ++ (d.value ++ ';' :: cs) := by
    intro cs
    simp [Custom.text]
  have hslash : '/' ∉ '-' :: '-' :: (d.name ++ (d.space ++ [':'])) := by
    simp only [List.mem_cons, List.mem_append, List.not_mem_nil, or_false]
    rintro (h | h | h | h | h)
    · cases h
    · cases h
    · cases d.name_chars _ h
    · cases d.space_blank _ h
    · cases h
  rw [hsplit, hsplit, removeComments_of_not_mem hslash,
    removeComments_append d.value_plain (by simp), removeComments_cons (by simp)]

/-! ### Declarations -/

/-- A declaration begins with two hyphens, and no brace comes before the semicolon that ends it. -/
theorem declaration?_eq_some {cs rest : List Char} {d : String × String}
    (h : declaration? cs = some (d, rest)) :
    ∃ body, (∀ c ∈ body, isValueChar c) ∧ cs = '-' :: '-' :: (body ++ ';' :: rest) := by
  have hname := List.takeWhile_append_dropWhile (p := isNameChar) (l := cs)
  have hspace := List.takeWhile_append_dropWhile (p := isBlank) (l := cs.dropWhile isNameChar)
  have hnamed : ∀ c ∈ cs.takeWhile isNameChar, isNameChar c := fun c hc => List.mem_takeWhile_imp hc
  have hblank : ∀ c ∈ (cs.dropWhile isNameChar).takeWhile isBlank, isBlank c :=
    fun c hc => List.mem_takeWhile_imp hc
  simp only [declaration?] at h
  split at h
  · rename_i c name behind heqname hcolon
    have hvalue := List.takeWhile_append_dropWhile (p := isValueChar) (l := behind)
    have hvalued : ∀ c ∈ behind.takeWhile isValueChar, isValueChar c :=
      fun c hc => List.mem_takeWhile_imp hc
    split at h
    · rename_i rest' heqvalue hsemicolon
      obtain rfl : rest' = rest := congrArg Prod.snd (Option.some.inj h)
      generalize (cs.dropWhile isNameChar).takeWhile isBlank = space at hspace hblank
      generalize behind.takeWhile isValueChar = value at hvalue hvalued
      rw [heqname] at hname hnamed
      rw [hcolon] at hspace
      rw [hsemicolon] at hvalue
      refine ⟨c :: name ++ (space ++ ':' :: value), ?_, ?_⟩
      · intro e he
        rcases List.mem_append.mp he with he | he
        · exact isValueChar_of_isNameChar
            (hnamed e (List.mem_cons_of_mem _ (List.mem_cons_of_mem _ he)))
        rcases List.mem_append.mp he with he | he
        · exact isValueChar_of_isBlank (hblank e he)
        rcases List.mem_cons.mp he with rfl | he
        · decide
        · exact hvalued e he
      · rw [← hname, ← hspace, ← hvalue]
        simp
    · cases h
  · cases h

theorem declaration?_eq_none {cs : List Char}
    (h : ∀ body rest, (∀ c ∈ body, isValueChar c) → cs ≠ '-' :: '-' :: (body ++ ';' :: rest)) :
    declaration? cs = none := by
  rw [Option.eq_none_iff_forall_ne_some]
  rintro ⟨d, rest⟩ hd
  obtain ⟨body, hbody, heq⟩ := declaration?_eq_some hd
  exact h body rest hbody heq

theorem declarations_cons {c : Char} {cs : List Char} (h : declaration? (c :: cs) = none)
    (inName : Bool) : declarations inName (c :: cs) = declarations (isNameChar c) cs := by
  rw [declarations, h, ite_self]

/-- Nothing is declared where no declaration begins. -/
theorem declarations_pass {c : Char} (hc : isNameChar c = false) {cs rest : List Char}
    (h : ∀ before after, cs = before ++ after → declaration? (after ++ c :: rest) = none)
    (inName : Bool) :
    declarations inName (cs ++ c :: rest) = declarations false rest := by
  induction cs generalizing inName with
  | nil => rw [List.nil_append, declarations_cons (h [] [] rfl), hc]
  | cons d cs ih =>
    have hd : declaration? (d :: (cs ++ c :: rest)) = none := h [] (d :: cs) rfl
    rw [List.cons_append, declarations_cons hd]
    exact ih (fun before after heq => h (d :: before) after (congrArg (d :: ·) heq)) _

theorem declarations_single {c : Char} (hc : isNameChar c = false) (rest : List Char) :
    declarations false (c :: rest) = declarations false rest := by
  have hnone : declaration? (c :: rest) = none := by
    refine declaration?_eq_none fun body rest' _ heq => ?_
    obtain ⟨rfl, -⟩ := List.cons.inj heq
    cases hc
  rw [declarations_cons hnone, hc]

theorem Gap.declarations_bare (g : Gap) (rest : List Char) :
    declarations false (g.bare ++ rest) = declarations false rest := by
  cases g with
  | blank c h => exact declarations_single (isNameChar_of_isBlank h) rest
  | comment content h => rfl

theorem declarations_other {cs : List Char} (h : ¬['-', '-'] <:+: cs) (rest : List Char) :
    declarations false (cs ++ ';' :: rest) = declarations false rest := by
  refine declarations_pass (by decide) ?_ _
  rintro before after rfl
  refine declaration?_eq_none fun body rest' _ heq => ?_
  match after with
  | [] => cases heq
  | [c] => cases heq
  | c :: e :: after =>
    injection heq with hc heq
    injection heq with he
    exact h ⟨before, after, by simp [hc, he]⟩

/-- A declaration that begins before a block would end with its brace. -/
theorem declarations_selector {cs : List Char} (h : ∀ c ∈ cs, isValueChar c) (rest : List Char) :
    declarations false (cs ++ '\x7b' :: rest) = declarations false rest := by
  refine declarations_pass (by decide) ?_ _
  rintro before after rfl
  refine declaration?_eq_none fun body rest' hbody heq => ?_
  have hstarted : ∀ c ∈ '-' :: '-' :: body, isValueChar c := by
    simp only [List.mem_cons]
    rintro c (rfl | rfl | hc)
    · decide
    · decide
    · exact hbody c hc
  have hdrop := congrArg (List.dropWhile isValueChar) heq
  have hbrace : '\x7b' :: rest = ';' :: rest' := by
    rwa [dropWhile_append_stop (fun c hc => h c (List.mem_append_right _ hc))
        (by simp [isValueChar]),
      ← List.cons_append, ← List.cons_append,
      dropWhile_append_stop hstarted (by simp [isValueChar])] at hdrop
  cases hbrace

theorem isValueChar_of_mem_bareSelector {selector : Selector} {more : List (Gap × Selector)}
    {c : Char} (h : c ∈ bareSelector selector more) : isValueChar c := by
  rcases List.mem_append.mp h with h | h
  · exact selector.chars c h
  · obtain ⟨⟨g, next⟩, -, h⟩ := List.mem_flatMap.mp h
    rcases List.mem_append.mp h with h | h
    · cases g with
      | blank d hd =>
        obtain rfl := List.mem_singleton.mp h
        exact isValueChar_of_isBlank hd
      | comment content _ => cases h
    · exact next.chars c h

theorem Custom.declaration?_text (d : Custom) (rest : List Char) :
    declaration? (d.text ++ rest) = some (d.declared, rest) := by
  have hsplit : d.text ++ rest =
      ('-' :: '-' :: d.name) ++ (d.space ++ ':' :: (d.value ++ ';' :: rest)) := by
    simp [Custom.text]
  have hname : ∀ c ∈ '-' :: '-' :: d.name, isNameChar c := by
    simp only [List.mem_cons]
    rintro c (rfl | rfl | hc)
    · decide
    · decide
    · exact d.name_chars c hc
  have hstop : ∀ c ∈ (d.space ++ ':' :: (d.value ++ ';' :: rest)).head?, isNameChar c = false := by
    cases hspace : d.space with
    | nil => simp [isNameChar, isWord]
    | cons c space =>
      have hc := d.space_blank c (by simp [hspace])
      simpa using isNameChar_of_isBlank hc
  obtain ⟨c, name, hcons⟩ := List.exists_cons_of_ne_nil d.name_ne_nil
  obtain ⟨e, value, hvalue⟩ := List.exists_cons_of_ne_nil d.value_ne_nil
  have hsemicolon : ∀ c ∈ (';' :: rest).head?, isValueChar c = false := by simp [isValueChar]
  have htake := takeWhile_append_stop d.value_chars hsemicolon
  have hdrop := dropWhile_append_stop d.value_chars hsemicolon
  rw [hsplit, declaration?, takeWhile_append_stop hname hstop, dropWhile_append_stop hname hstop,
    dropWhile_append_stop d.space_blank (by simp [isBlank])]
  simp only [hcons, htake, hdrop, Custom.declared]
  simp only [hvalue]

theorem Custom.declarations_text (d : Custom) (rest : List Char) :
    declarations false (d.text ++ rest) = d.declared :: declarations false rest := by
  have hdeclaration := d.declaration?_text rest
  rw [Custom.text, List.cons_append] at hdeclaration ⊢
  rw [declarations, if_neg Bool.false_ne_true, hdeclaration]
  refine if_pos ?_
  simp only [List.length_append, List.length_cons]
  omega

mutual

/-- What an item declares, and then what follows it. -/
theorem Item.declarations_text (i : Item) (rest : List Char) :
    declarations false (removeComments (i.text ++ rest)) =
      i.declared ++ declarations false (removeComments rest) := by
  match i with
  | .gap g =>
    rw [Item.text, g.removeComments_text, g.declarations_bare]
    rfl
  | .custom d =>
    rw [Item.text, d.removeComments_text, d.declarations_text]
    rfl
  | .other d =>
    rw [Item.text, List.append_assoc, removeComments_append d.plain (by simp), List.singleton_append,
      removeComments_cons (by simp), declarations_other d.nameless]
    rfl
  | .block selector more items =>
    -- the items of the block are followed by its closing brace, where nothing is declared
    have hsplit : (Item.block selector more items).text ++ rest =
        selectorText selector more ++ '\x7b' :: (Item.texts items ++ '\x7d' :: rest) := by
      simp [Item.text]
    rw [hsplit, removeComments_selectorText,
      declarations_selector fun c hc => isValueChar_of_mem_bareSelector hc,
      Item.declarations_texts items, removeComments_cons (by simp), declarations_single (by decide),
      Item.declared]

theorem Item.declarations_texts (items : List Item) (rest : List Char) :
    declarations false (removeComments (Item.texts items ++ rest)) =
      Item.declaredIn items ++ declarations false (removeComments rest) := by
  match items with
  | [] => rfl
  | i :: items =>
    rw [Item.texts, List.append_assoc, Item.declarations_text i, Item.declarations_texts items,
      Item.declaredIn, List.append_assoc]

end

/-- The properties of a sheet are those that it declares, in the order of their first declarations,
each with the value of its last one. -/
theorem customProperties_texts (items : List Item) :
    Table.keys (customProperties (String.ofList (Item.texts items))) =
        distinct ((Item.declaredIn items).map Prod.fst) ∧
      ∀ name, Table.get? name (customProperties (String.ofList (Item.texts items))) =
        (Item.declaredIn items).reverse.lookup name := by
  have hdeclared := Item.declarations_texts items []
  rw [List.append_nil] at hdeclared
  have hproperties : customProperties (String.ofList (Item.texts items)) =
      Table.ofPairs (Item.declaredIn items) := by
    rw [customProperties, String.toList_ofList, hdeclared]
    simp [removeComments, declarations]
  rw [hproperties]
  exact ⟨Table.keys_ofPairs _, fun name => Table.get?_ofPairs name _⟩

/-- A name that is declared in a block, in a block within it, and in two comments. -/
def nestedSheet : List Item :=
  let narrow (value : List Char) (hne : value ≠ []) (hchars : value.all isValueChar)
      (hplain : ¬['/', '*'] <:+: value) : Custom :=
    ⟨['a'], [' '], value, by decide, List.all_eq_true.mp rfl, List.all_eq_true.mp rfl, hne,
      List.all_eq_true.mp hchars, hplain⟩
  [.block ⟨":root".toList, List.all_eq_true.mp rfl, by decide⟩
    [(.comment "--a: 1px;".toList (by decide), ⟨[' '], List.all_eq_true.mp rfl, by decide⟩)]
    [.custom (narrow " 2px".toList (by decide) rfl (by decide)),
      .other ⟨"color: red".toList, by decide, by decide⟩,
      .block ⟨"@media x ".toList, List.all_eq_true.mp rfl, by decide⟩ []
        [.custom (narrow "3px\n 4px".toList (by decide) rfl (by decide))],
      .gap (.comment "--a: 5px;".toList (by decide))]]

theorem customProperties_texts_nested :
    Table.get? "--a" (customProperties
      ":root/*--a: 1px;*/ \x7b--a : 2px;color: red;@media x \x7b--a :3px\n 4px;\x7d/*--a: 5px;*/\x7d")
        = some "3px 4px" :=
  (customProperties_texts nestedSheet).2 "--a"

end DesignTokens.Css
