import DesignTokens.Proofs.Json.Characters
import DesignTokens.Proofs.Json.Numbers
import DesignTokens.Proofs.Json.Strings
import DesignTokens.Proofs.Tables

/-!
Values that are written and read again. The text of a value is read as the value wherever it stands,
if no number in it is lost in text and no object repeats a name.
-/
namespace DesignTokens.Json

/-- A value that its text keeps. -/
inductive Writable : Json → Prop where
  | null : Writable .null
  | bool (b : Bool) : Writable (.bool b)
  | num {n : Number} (h : Plain n) : Writable (.num n)
  | str (s : String) : Writable (.str s)
  | arr {items : List Json} (h : ∀ v ∈ items, Writable v) : Writable (.arr items)
  | obj {fields : Table Json} (hn : (Table.keys fields).Nodup)
      (h : ∀ p ∈ fields, Writable p.2) : Writable (.obj fields)

attribute [simp] Writable.null Writable.bool Writable.str

@[simp] theorem writable_arr_iff {items : List Json} :
    Writable (.arr items) ↔ ∀ v ∈ items, Writable v := by
  constructor
  · intro h
    cases h with
    | arr h => exact h
  · exact .arr

@[simp] theorem writable_obj_iff {fields : Table Json} :
    Writable (.obj fields) ↔ (Table.keys fields).Nodup ∧ ∀ p ∈ fields, Writable p.2 := by
  constructor
  · intro h
    cases h with
    | obj hn h => exact ⟨hn, h⟩
  · rintro ⟨hn, h⟩
    exact .obj hn h

@[simp] theorem writable_ofFloat_iff {x : Float} : Writable (ofFloat x) ↔ Decimal.isFinite x := by
  constructor
  · intro h
    cases h with
    | num h =>
      cases h with
      | float h => exact h
  · exact fun h => .num (.float h)

@[simp] theorem writable_ofInt_iff {n : Int} :
    Writable (ofInt n) ↔ n.natAbs < 10 ^ Decimal.integerDigitLimit := by
  constructor
  · intro h
    cases h with
    | num h =>
      cases h with
      | int h => exact h
  · exact fun h => .num (.int h)

/-! ### Lines -/

theorem skip_append (o : Nat) {blanks : List Char} (rest : List Char)
    (hblanks : ∀ c ∈ blanks, isSpace c) (hrest : ∀ c ∈ rest.head?, isSpace c = false) :
    ∃ o', Cursor.skip ⟨o, blanks ++ rest⟩ = ⟨o', rest⟩ := by
  have hnone : rest.dropWhile isSpace = rest := by
    cases rest with
    | nil => rfl
    | cons c rest => rw [List.dropWhile_cons, hrest c rfl]; rfl
  refine ⟨o + ((blanks ++ rest).takeWhile isSpace).length, ?_⟩
  rw [Cursor.skip, Cursor.skipWhile]
  simp only [List.dropWhile_append_of_pos hblanks, hnone]

theorem skip_of_head (o : Nat) {c : Char} (hc : isSpace c = false) (rest : List Char) :
    Cursor.skip ⟨o, c :: rest⟩ = ⟨o, c :: rest⟩ := by
  rw [Cursor.skip, Cursor.skipWhile]
  simp [hc]

/-- A line break and the indentation of the next line. -/
def margin (level : Nat) : List Char := '\n' :: List.replicate (2 * level) ' '

theorem ends_margin (level : Nat) (rest : List Char) : Ends (margin level ++ rest) := ends_newline _

theorem skip_margin (o level : Nat) (rest : List Char)
    (hrest : ∀ c ∈ rest.head?, isSpace c = false) :
    ∃ o', Cursor.skip ⟨o, margin level ++ rest⟩ = ⟨o', rest⟩ := by
  refine skip_append o rest (fun c hc => ?_) hrest
  rcases List.mem_cons.mp hc with rfl | hc
  · rfl
  · rw [(List.mem_replicate.mp hc).2]
    rfl

/-- Lines with commas between them. -/
def joined (level : Nat) (texts : List (List Char)) : List Char :=
  (',' :: margin level).intercalate texts

theorem joined_singleton (level : Nat) (text : List Char) : joined level [text] = text :=
  List.intercalate_singleton

theorem joined_cons_cons (level : Nat) (t₁ t₂ : List Char) (texts : List (List Char)) :
    joined level (t₁ :: t₂ :: texts) =
      t₁ ++ ',' :: (margin level ++ joined level (t₂ :: texts)) := by
  rw [joined, List.intercalate_cons_cons, List.append_assoc]
  rfl

/-- Lines start as the first of them. -/
theorem exists_joined_cons (level : Nat) (text : List Char) (texts : List (List Char)) :
    ∃ more, joined level (text :: texts) = text ++ more := by
  cases texts with
  | nil => exact ⟨[], by rw [joined_singleton, List.append_nil]⟩
  | cons t ts => exact ⟨_, joined_cons_cons level text t ts⟩

theorem toList_block (opening closing : String) (a b : Char) (ha : opening.toList = [a])
    (hb : closing.toList = [b]) (level : Nat) {lines : List String} (h : lines ≠ [])
    (rest : List Char) : (block opening closing level lines).toList ++ rest =
      a :: (margin (level + 1) ++ (joined (level + 1) (lines.map String.toList) ++
        (margin level ++ b :: rest))) := by
  have hlines : lines.isEmpty = false := List.isEmpty_eq_false_iff.mpr h
  have hbreak : "\n".toList = ['\n'] := rfl
  have hcomma : ",\n".toList = [',', '\n'] := rfl
  simp [block, hlines, indentation, margin, joined, String.toList_intercalate, ha, hb, hbreak,
    hcomma]

theorem toList_block_nil (opening closing : String) (a b : Char) (ha : opening.toList = [a])
    (hb : closing.toList = [b]) (level : Nat) (rest : List Char) :
    (block opening closing level []).toList ++ rest = a :: b :: rest := by
  simp [block, ha, hb]

theorem head?_block {opening closing : String} {a : Char} (ha : opening.toList = [a]) (level : Nat)
    (lines : List String) : (block opening closing level lines).toList.head? = some a := by
  rw [block]
  split <;> simp [ha]

/-! ### Lists -/

/-- A text that is read as a value, whatever ends it. -/
structure ReadFrom (v : Json) (text : List Char) : Prop where
  starts : ∃ c ∈ text.head?, isSpace c = false ∧ c ≠ ']'
  value : ∀ fuel o rest, text.length < fuel → Ends rest →
    ∃ o', readValue fuel ⟨o, text ++ rest⟩ = .ok (v, ⟨o', rest⟩)

section

variable {v : Json} {text : List Char} (h : ReadFrom v text)
include h

theorem ReadFrom.head (rest : List Char) : ∀ c ∈ (text ++ rest).head?, isSpace c = false := by
  obtain ⟨c, hc, hspace, -⟩ := h.starts
  obtain ⟨cs, rfl⟩ := List.head?_eq_some_iff.mp hc
  rintro d ⟨⟩
  exact hspace

theorem ReadFrom.ne_closing (rest ds : List Char) : text ++ rest ≠ ']' :: ds := by
  obtain ⟨c, hc, -, hclosing⟩ := h.starts
  obtain ⟨cs, rfl⟩ := List.head?_eq_some_iff.mp hc
  exact fun heq => hclosing (List.cons.inj heq).1

end

section

variable {fuel o : Nat} {v : Json} {acc : List Json} {c c' : Cursor} {rest : List Char}
  (hvalue : readValue fuel c = .ok (v, c'))
include hvalue

theorem readItems_last (hend : c'.skip = ⟨o, ']' :: rest⟩) :
    readItems (fuel + 1) acc c = .ok (.arr (v :: acc).reverse, ⟨o + 1, rest⟩) := by
  rw [readItems, hvalue]
  dsimp only [bind, Except.bind]
  rw [hend]
  rfl

theorem readItems_next (hend : c'.skip = ⟨o, ',' :: rest⟩) :
    readItems (fuel + 1) acc c = readItems fuel (v :: acc) (Cursor.skip ⟨o + 1, rest⟩) := by
  rw [readItems, hvalue]
  dsimp only [bind, Except.bind]
  rw [hend]
  rfl

end

/-- A list is read item by item. -/
theorem readItems_joined {items : List Json} {texts : List (List Char)}
    (h : List.Forall₂ ReadFrom items texts) (hne : items ≠ []) (level outer : Nat) :
    ∀ fuel o acc rest, (joined level texts).length + 1 < fuel →
      ∃ o', readItems fuel acc ⟨o, joined level texts ++ (margin outer ++ ']' :: rest)⟩ =
        .ok (.arr (acc.reverse ++ items), ⟨o', rest⟩) := by
  induction h with
  | nil => exact absurd rfl hne
  | @cons v text items texts hv htail ih =>
    intro fuel o acc rest hfuel
    obtain ⟨fuel, rfl⟩ : ∃ n, fuel = n + 1 := ⟨fuel - 1, by omega⟩
    cases htail with
    | nil =>
      rw [joined_singleton] at hfuel ⊢
      obtain ⟨o₁, hvalue⟩ := hv.value fuel o _ (by omega) (ends_margin outer (']' :: rest))
      obtain ⟨o₂, hend⟩ := skip_margin o₁ outer (']' :: rest) (by rintro c ⟨⟩; rfl)
      exact ⟨o₂ + 1, by rw [readItems_last hvalue hend, List.reverse_cons]⟩
    | @cons w text' items texts hw htail =>
      rw [joined_cons_cons] at hfuel ⊢
      rw [List.length_append, List.length_cons, List.length_append] at hfuel
      rw [List.append_assoc, List.cons_append, List.append_assoc]
      obtain ⟨o₁, hvalue⟩ := hv.value fuel o _ (by omega) (ends_comma (margin level ++
        (joined level (text' :: texts) ++ (margin outer ++ ']' :: rest))))
      obtain ⟨more, hmore⟩ := exists_joined_cons level text' texts
      obtain ⟨o₂, hskip⟩ := skip_margin (o₁ + 1) level
        (joined level (text' :: texts) ++ (margin outer ++ ']' :: rest))
        (by rw [hmore, List.append_assoc]; exact hw.head _)
      obtain ⟨o₃, hrest⟩ := ih (by simp) fuel o₂ (v :: acc) rest (by omega)
      refine ⟨o₃, ?_⟩
      rw [readItems_next hvalue (skip_of_head o₁ rfl _), hskip, hrest, List.reverse_cons,
        List.append_assoc, List.singleton_append]

theorem readValue_list {fuel o : Nat} {cs : List Char}
    (h : ∀ ds, (Cursor.skip ⟨o + 1, cs⟩).rest ≠ ']' :: ds) :
    readValue (fuel + 1) ⟨o, '[' :: cs⟩ = readItems fuel [] (Cursor.skip ⟨o + 1, cs⟩) := by
  rw [readValue]
  split
  · simp_all
  · simp_all
  · rename_i tail htail
    obtain rfl : cs = tail := (List.cons.inj htail).2
    dsimp only
    split
    · exact absurd ‹_› (h _)
    · rfl
  · simp_all

theorem ReadFrom.arr {items : List Json} {lines : List String} (level : Nat)
    (h : List.Forall₂ ReadFrom items (lines.map String.toList)) :
    ReadFrom (.arr items) (block "[" "]" level lines).toList where
  starts := ⟨'[', head?_block rfl level lines, rfl, by decide⟩
  value := by
    intro fuel o rest hfuel _
    obtain ⟨fuel, rfl⟩ : ∃ n, fuel = n + 1 := ⟨fuel - 1, by omega⟩
    cases lines with
    | nil =>
      cases h
      exact ⟨o + 2, by rw [toList_block_nil "[" "]" '[' ']' rfl rfl]; rfl⟩
    | cons line lines =>
      obtain ⟨v, items, hv, hitems, rfl⟩ := List.forall₂_cons_right_iff.mp h
      have hblock := toList_block "[" "]" '[' ']' rfl rfl level (List.cons_ne_nil line lines)
      have hlength := congrArg List.length (hblock [])
      simp only [List.append_nil, List.length_cons, List.length_append] at hlength
      obtain ⟨more, hmore⟩ := exists_joined_cons (level + 1) line.toList (lines.map String.toList)
      obtain ⟨o₁, hskip⟩ := skip_margin (o + 1) (level + 1)
        (joined (level + 1) ((line :: lines).map String.toList) ++
          (margin level ++ ']' :: rest))
        (by rw [List.map_cons, hmore, List.append_assoc]; exact hv.head _)
      obtain ⟨o₂, hread⟩ := readItems_joined h (by simp) (level + 1) level fuel o₁ [] rest
        (by omega)
      refine ⟨o₂, ?_⟩
      rw [hblock, readValue_list, hskip, hread]
      · rfl
      · intro ds
        rw [hskip, List.map_cons, hmore, List.append_assoc]
        exact hv.ne_closing _ ds

/-! ### Objects -/

/-- A member ends its object, or is followed by the next one. -/
theorem readFields_member {fuel o o₁ : Nat} {name cs cs' : List Char} {v : Json}
    {fields : Table Json} {c c' : Cursor} (hname : readString o (o + 1) cs = .ok (name, c))
    (hcolon : c.skip = ⟨o₁, ':' :: cs'⟩)
    (hvalue : readValue fuel (Cursor.skip ⟨o₁ + 1, cs'⟩) = .ok (v, c')) :
    (∀ {o₂ rest}, c'.skip = ⟨o₂, '\x7d' :: rest⟩ →
      readFields (fuel + 1) fields ⟨o, '"' :: cs⟩ =
        .ok (.obj (Table.put (String.ofList name) v fields), ⟨o₂ + 1, rest⟩)) ∧
    ∀ {o₂ rest}, c'.skip = ⟨o₂, ',' :: rest⟩ →
      readFields (fuel + 1) fields ⟨o, '"' :: cs⟩ =
        readFields fuel (Table.put (String.ofList name) v fields) (Cursor.skip ⟨o₂ + 1, rest⟩) := by
  rw [readFields]
  change (∀ {o₂ rest}, _ → (readString o (o + 1) cs >>= _) = _) ∧
    ∀ {o₂ rest}, _ → (readString o (o + 1) cs >>= _) = _
  rw [hname]
  dsimp only [bind, Except.bind]
  rw [hcolon]
  change (∀ {o₂ rest}, _ → (readValue fuel (Cursor.skip ⟨o₁ + 1, cs'⟩) >>= _) = _) ∧
    ∀ {o₂ rest}, _ → (readValue fuel (Cursor.skip ⟨o₁ + 1, cs'⟩) >>= _) = _
  rw [hvalue]
  dsimp only [bind, Except.bind]
  constructor
  all_goals
    intro o₂ rest hend
    rw [hend]
    rfl

/-- The text of a member whose value has the text `text`. -/
def memberText (name : String) (text : List Char) : List Char :=
  '"' :: (name.toList.flatMap escapeChar ++ '"' :: ':' :: ' ' :: text)

theorem memberText_append (name : String) (text rest : List Char) :
    memberText name text ++ rest =
      '"' :: (name.toList.flatMap escapeChar ++ '"' :: ':' :: ' ' :: (text ++ rest)) := by
  simp [memberText]

def MemberFrom (p : String × Json) (text : List Char) : Prop :=
  ∃ t, text = memberText p.1 t ∧ ReadFrom p.2 t

theorem head_memberText (name : String) (text rest : List Char) :
    ∀ c ∈ (memberText name text ++ rest).head?, isSpace c = false := by
  rintro c ⟨⟩
  rfl

/-- The name of a member and its value, which ends in front of `tail`. -/
theorem ReadFrom.member {v : Json} {text : List Char} (h : ReadFrom v text) (fuel : Nat)
    (name : String) (hfuel : (memberText name text).length ≤ fuel) (o : Nat) {tail : List Char}
    (htail : Ends tail) :
    ∃ o₁ o₂, readString o (o + 1) (name.toList.flatMap escapeChar ++
        '"' :: ':' :: ' ' :: (text ++ tail)) =
          .ok (name.toList, ⟨o₁, ':' :: ' ' :: (text ++ tail)⟩) ∧
      readValue fuel (Cursor.skip ⟨o₁ + 1, ' ' :: (text ++ tail)⟩) = .ok (v, ⟨o₂, tail⟩) := by
  have hlength : text.length < fuel := by
    simp only [memberText, List.length_cons, List.length_append] at hfuel
    omega
  obtain ⟨o₁, hname⟩ := readString_flatMap o (o + 1) name.toList (':' :: ' ' :: (text ++ tail))
  have hblank : ∀ c ∈ [' '], isSpace c := by simp [isSpace]
  obtain ⟨o', hskip⟩ := skip_append (o₁ + 1) (text ++ tail) hblank (h.head tail)
  obtain ⟨o₂, hvalue⟩ := h.value fuel o' tail hlength htail
  exact ⟨o₁, o₂, hname, hskip ▸ hvalue⟩

/-- An object is read member by member, and keeps the members in order. -/
theorem readFields_joined {fields : Table Json} {texts : List (List Char)}
    (h : List.Forall₂ MemberFrom fields texts) (hne : fields ≠ []) (level outer : Nat) :
    ∀ fuel o (acc : Table Json) rest, (joined level texts).length + 1 < fuel →
      (Table.keys (acc ++ fields)).Nodup →
      ∃ o', readFields fuel acc ⟨o, joined level texts ++ (margin outer ++ '\x7d' :: rest)⟩ =
        .ok (.obj (acc ++ fields), ⟨o', rest⟩) := by
  induction h with
  | nil => exact absurd rfl hne
  | @cons p text fields texts hp htail ih =>
    intro fuel o acc rest hfuel hn
    obtain ⟨fuel, rfl⟩ : ∃ n, fuel = n + 1 := ⟨fuel - 1, by omega⟩
    obtain ⟨name, v⟩ := p
    obtain ⟨t, htext, hv⟩ := hp
    obtain rfl : text = memberText name t := htext
    have hput : Table.put (String.ofList name.toList) v acc = acc ++ [(name, v)] := by
      rw [String.ofList_toList]
      refine Table.put_of_not_mem v fun hname => ?_
      rw [Table.keys, List.map_append] at hn
      exact (List.nodup_append.mp hn).2.2 name hname name (by simp) rfl
    cases htail with
    | nil =>
      rw [joined_singleton] at hfuel ⊢
      obtain ⟨o₁, o₂, hname, hvalue⟩ := hv.member fuel name (by omega) o
        (ends_margin outer ('\x7d' :: rest))
      obtain ⟨o₃, hend⟩ := skip_margin o₂ outer ('\x7d' :: rest) (by rintro c ⟨⟩; rfl)
      refine ⟨o₃ + 1, ?_⟩
      rw [memberText_append, (readFields_member hname (skip_of_head o₁ rfl _) hvalue).1 hend, hput]
    | @cons q text' fields texts hq htail =>
      rw [joined_cons_cons] at hfuel ⊢
      rw [List.length_append, List.length_cons, List.length_append] at hfuel
      rw [List.append_assoc, List.cons_append, List.append_assoc]
      obtain ⟨o₁, o₂, hname, hvalue⟩ := hv.member fuel name (by omega) o
        (ends_comma (margin level ++ (joined level (text' :: texts) ++
          (margin outer ++ '\x7d' :: rest))))
      obtain ⟨more, hmore⟩ := exists_joined_cons level text' texts
      obtain ⟨o₃, hskip⟩ := skip_margin (o₂ + 1) level
        (joined level (text' :: texts) ++ (margin outer ++ '\x7d' :: rest))
        (by
          obtain ⟨t', rfl, -⟩ := hq
          rw [hmore, List.append_assoc]
          exact head_memberText _ _ _)
      obtain ⟨o₄, hrest⟩ := ih (by simp) fuel o₃ (acc ++ [(name, v)]) rest (by omega)
        (by rwa [List.append_assoc])
      refine ⟨o₄, ?_⟩
      rw [memberText_append, (readFields_member hname (skip_of_head o₁ rfl _) hvalue).2
        (skip_of_head o₂ rfl _), hput, hskip, hrest, List.append_assoc, List.singleton_append]

theorem readValue_object {fuel o : Nat} {cs : List Char}
    (h : ∀ ds, (Cursor.skip ⟨o + 1, cs⟩).rest ≠ '\x7d' :: ds) :
    readValue (fuel + 1) ⟨o, '\x7b' :: cs⟩ = readFields fuel [] (Cursor.skip ⟨o + 1, cs⟩) := by
  rw [readValue]
  split
  · simp_all
  · rename_i tail htail
    obtain rfl : cs = tail := (List.cons.inj htail).2
    dsimp only
    split
    · exact absurd ‹_› (h _)
    · rfl
  · simp_all
  · simp_all

theorem ReadFrom.obj {fields : Table Json} {lines : List String} (level : Nat)
    (h : List.Forall₂ MemberFrom fields (lines.map String.toList))
    (hn : (Table.keys fields).Nodup) :
    ReadFrom (.obj fields) (block "\x7b" "\x7d" level lines).toList where
  starts := ⟨'\x7b', head?_block rfl level lines, rfl, by decide⟩
  value := by
    intro fuel o rest hfuel _
    obtain ⟨fuel, rfl⟩ : ∃ n, fuel = n + 1 := ⟨fuel - 1, by omega⟩
    cases lines with
    | nil =>
      cases h
      exact ⟨o + 2, by rw [toList_block_nil "\x7b" "\x7d" '\x7b' '\x7d' rfl rfl]; rfl⟩
    | cons line lines =>
      obtain ⟨p, fields, ⟨t, ht, hp⟩, hfields, rfl⟩ := List.forall₂_cons_right_iff.mp h
      have hblock := toList_block "\x7b" "\x7d" '\x7b' '\x7d' rfl rfl level
        (List.cons_ne_nil line lines)
      have hlength := congrArg List.length (hblock [])
      simp only [List.append_nil, List.length_cons, List.length_append] at hlength
      obtain ⟨more, hmore⟩ := exists_joined_cons (level + 1) line.toList (lines.map String.toList)
      have hstart : joined (level + 1) ((line :: lines).map String.toList) =
          memberText p.1 t ++ more := by
        rw [List.map_cons, hmore, ht]
      obtain ⟨o₁, hskip⟩ := skip_margin (o + 1) (level + 1)
        (joined (level + 1) ((line :: lines).map String.toList) ++
          (margin level ++ '\x7d' :: rest))
        (by rw [hstart, List.append_assoc]; exact head_memberText _ _ _)
      obtain ⟨o₂, hread⟩ := readFields_joined h (by simp) (level + 1) level fuel o₁ [] rest
        (by omega) hn
      refine ⟨o₂, ?_⟩
      rw [hblock, readValue_object, hskip, hread]
      · rfl
      · intro ds
        rw [hskip, hstart]
        exact fun heq => absurd (List.cons.inj heq).1 (by decide)

/-! ### Values -/

theorem ReadFrom.str (s : String) : ReadFrom (.str s) (stringText s).toList where
  starts := ⟨'"', by simp [stringText], rfl, by decide⟩
  value := by
    intro fuel o rest hfuel _
    obtain ⟨fuel, rfl⟩ : ∃ n, fuel = n + 1 := ⟨fuel - 1, by omega⟩
    obtain ⟨o', hread⟩ := readString_flatMap o (o + 1) s.toList rest
    refine ⟨o', ?_⟩
    have htext : (stringText s).toList ++ rest =
        '"' :: (s.toList.flatMap escapeChar ++ '"' :: rest) := by
      simp [stringText]
    rw [htext, readValue]
    change (readString o (o + 1) (s.toList.flatMap escapeChar ++ '"' :: rest) >>= _) = _
    rw [hread]
    change Except.ok (Json.str (String.ofList s.toList), _) = _
    rw [String.ofList_toList]

theorem ReadFrom.num {n : Number} (h : Plain n) : ReadFrom (.num n) (numberText n).toList where
  starts := by
    obtain ⟨m, negative, hm, htext, -⟩ := exists_numeral_numberText h
    obtain ⟨c, cs, hchars, hc, -⟩ := hm.exists_cons
    have hdigit := Decimal.isAsciiDigit_iff.mp hc
    have hspace : isSpace c = false ∧ c ≠ ']' := by
      refine ⟨?_, ?_⟩
      · simp only [isSpace, Bool.or_eq_false_iff, beq_eq_false_iff_ne]
        refine ⟨⟨⟨?_, ?_⟩, ?_⟩, ?_⟩ <;> rintro rfl <;> simp at hdigit
      · rintro rfl
        simp at hdigit
    rw [htext, hchars]
    cases negative
    · exact ⟨c, rfl, hspace⟩
    · exact ⟨'-', rfl, rfl, by decide⟩
  value := by
    intro fuel o rest hfuel hrest
    obtain ⟨fuel, rfl⟩ : ∃ n, fuel = n + 1 := ⟨fuel - 1, by omega⟩
    exact readValue_number fuel o h hrest

theorem ReadFrom.literal (name : String) {v : Json} (h : (name, v) ∈ literals.take 3) :
    ReadFrom v name.toList where
  starts := by
    simp only [literals, List.take, List.mem_cons, List.not_mem_nil, or_false, Prod.mk.injEq] at h
    rcases h with ⟨rfl, -⟩ | ⟨rfl, -⟩ | ⟨rfl, -⟩ <;> exact ⟨_, rfl, rfl, by decide⟩
  value := by
    intro fuel o rest hfuel _
    obtain ⟨fuel, rfl⟩ : ∃ n, fuel = n + 1 := ⟨fuel - 1, by omega⟩
    simp only [literals, List.take, List.mem_cons, List.not_mem_nil, or_false, Prod.mk.injEq] at h
    rcases h with ⟨rfl, rfl⟩ | ⟨rfl, rfl⟩ | ⟨rfl, rfl⟩ <;> exact ⟨_, rfl⟩

mutual

/-- The text of a value is read as the value. -/
theorem readFrom_prettyAt (level : Nat) :
    (v : Json) → Writable v → ReadFrom v (prettyAt level v).toList
  | .null, _ => .literal "null" (by simp [literals])
  | .bool true, _ => .literal "true" (by simp [literals])
  | .bool false, _ => .literal "false" (by simp [literals])
  | .num _, .num h => .num h
  | .str s, _ => .str s
  | .arr items, .arr h => .arr level (readFrom_prettyItems (level + 1) items h)
  | .obj fields, .obj hn h => .obj level (readFrom_prettyFields (level + 1) fields h) hn

theorem readFrom_prettyItems (level : Nat) : (items : List Json) → (∀ v ∈ items, Writable v) →
    List.Forall₂ ReadFrom items ((prettyItems level items).map String.toList)
  | [], _ => .nil
  | v :: items, h => .cons (readFrom_prettyAt level v (h v List.mem_cons_self))
      (readFrom_prettyItems level items fun w hw => h w (List.mem_cons_of_mem v hw))

theorem readFrom_prettyFields (level : Nat) : (fields : Table Json) →
    (∀ p ∈ fields, Writable p.2) →
    List.Forall₂ MemberFrom fields ((prettyFields level fields).map String.toList)
  | [], _ => .nil
  | (name, v) :: fields, h => .cons
      ⟨(prettyAt level v).toList, by
        have hcolon : ": ".toList = [':', ' '] := rfl
        simp [memberText, stringText, hcolon],
        readFrom_prettyAt level v (h _ List.mem_cons_self)⟩
      (readFrom_prettyFields level fields fun p hp => h p (List.mem_cons_of_mem _ hp))

end

/-- A value is read from its text with a final line break. -/
theorem read_pretty {v : Json} (h : Writable v) : read (v.pretty ++ "\n") = .ok v := by
  have hfrom := readFrom_prettyAt 0 v h
  have htext : (v.pretty ++ "\n").toList = (prettyAt 0 v).toList ++ ['\n'] := String.toList_append
  have hmark : '\uFEFF' ∉ (v.pretty ++ "\n").toList := not_mem_pretty (by decide) v
  have hchars : readChars (v.pretty ++ "\n").toList = .ok v := by
    have hnone : ∀ c ∈ ([] : List Char), isSpace c := by simp
    have hbreak : ∀ c ∈ ['\n'], isSpace c := by simp [isSpace]
    obtain ⟨o, hstart⟩ := skip_append 0 _ hnone (hfrom.head ['\n'])
    obtain ⟨o₁, hvalue⟩ := hfrom.value (2 * ((prettyAt 0 v).toList ++ ['\n']).length + 2) o ['\n']
      (by rw [List.length_append]; omega) (ends_newline [])
    obtain ⟨o₂, hend⟩ := skip_append o₁ [] hbreak (by simp)
    rw [List.nil_append] at hstart
    rw [List.append_nil] at hend
    rw [htext, readChars, hstart, hvalue]
    dsimp only [bind, Except.bind]
    rw [hend]
    rfl
  rw [read]
  split
  · rename_i tail htail
    exact absurd (htail ▸ List.mem_cons_self) hmark
  · exact hchars

end DesignTokens.Json
