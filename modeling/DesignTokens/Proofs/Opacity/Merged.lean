import DesignTokens.Proofs.Opacity.Sources
import Mathlib.Data.List.Sort
import Mathlib.Data.Prod.Lex
import Mathlib.Data.String.Basic

/-!
Opacity modifiers of one source and of several. A source has its pairs of a token and a percentage in
the order in which they first occur; several sources have the pairs of all of them in order, whatever
the order of the sources.
-/
namespace DesignTokens.OpacityModifier

variable {ms : List OpacityModifier} {source : String} {sources : List String}

/-- The token and the percentage. Pairs are ordered by token and then by percentage; texts have the
order of code points. -/
def pair (m : OpacityModifier) : String ×ₗ ℕ := toLex (m.token, m.opacity)

theorem variableName_beq (m m' : OpacityModifier) :
    (m.variableName == m'.variableName) = (m.pair == m'.pair) := by
  rw [Bool.eq_iff_iff, beq_iff_eq, beq_iff_eq, variableName_eq_iff, pair, pair, toLex_inj,
    Prod.mk.injEq]

theorem le_iff (a b : OpacityModifier) : le a b ↔ a.pair ≤ b.pair := by
  rw [le, pair, pair, Prod.Lex.toLex_le_toLex]
  rcases lt_trichotomy a.token b.token with hlt | heq | hgt
  · simp [hlt]
  · simp [heq]
  · simp [hgt, hgt.not_gt, hgt.ne']

/-! ### One source -/

/-- All matches of a source, one after the other. -/
def occurrences (source : String) : List (String ×ₗ ℕ) := (scanAll false source.toList).map pair

/-- What comes first among the items of a kind comes first among all. -/
theorem idxOf_lt_of_filter {α : Type} [BEq α] [LawfulBEq α] {p : α → Bool} {a b : α} {xs : List α}
    (ha : p a) (hb : p b) (h : (xs.filter p).idxOf a < (xs.filter p).idxOf b) :
    xs.idxOf a < xs.idxOf b := by
  induction xs with
  | nil => simp at h
  | cons x xs ih =>
    rw [List.idxOf_cons, List.idxOf_cons]
    by_cases hx : p x
    · rw [List.filter_cons_of_pos hx, List.idxOf_cons, List.idxOf_cons] at h
      cases hxa : x == a <;> cases hxb : x == b <;>
        simp only [hxa, hxb, cond_true, cond_false] at h ⊢ <;> omega
    · have hother : ∀ y, p y → (x == y) = false := by
        intro y hy
        rw [beq_eq_false_iff_ne]
        rintro rfl
        exact hx hy
      rw [List.filter_cons_of_neg hx] at h
      rw [hother a ha, hother b hb]
      exact Nat.succ_lt_succ (ih h)

/-- Without repetitions, items stand in the order of their first occurrences. -/
theorem pairwise_idxOf_eraseDups {α : Type} [BEq α] [LawfulBEq α] :
    ∀ xs : List α, xs.eraseDups.Pairwise fun a b => xs.idxOf a < xs.idxOf b
  | [] => .nil
  | x :: xs => by
    have hother : ∀ a ∈ (xs.filter fun b => !b == x).eraseDups, (a == x) = false := by
      intro a ha
      simpa using (List.mem_filter.mp (List.mem_eraseDups.mp ha)).2
    have hidx : ∀ a ∈ (xs.filter fun b => !b == x).eraseDups,
        (x :: xs).idxOf a = xs.idxOf a + 1 := by
      intro a ha
      rw [List.idxOf_cons, Bool.beq_comm, hother a ha, cond_false]
    rw [List.eraseDups_cons]
    refine List.pairwise_cons.mpr ⟨fun a ha => ?_, ?_⟩
    · rw [hidx a ha, List.idxOf_cons_self]
      exact Nat.succ_pos _
    · refine (pairwise_idxOf_eraseDups (xs.filter fun b => !b == x)).imp_of_mem
        fun {a b} ha hb hlt => ?_
      rw [hidx a ha, hidx b hb]
      exact Nat.succ_lt_succ
        (idxOf_lt_of_filter (by simp [hother a ha]) (by simp [hother b hb]) hlt)
termination_by xs => xs.length
decreasing_by exact Nat.lt_succ_of_le (List.length_filter_le _ _)

/-- Of the modifiers with one pair the first is kept. -/
theorem map_pair_distinct (ms : List OpacityModifier) :
    (distinct ms).map pair = (ms.map pair).eraseDups := by
  have hfold : ∀ ms kept : List OpacityModifier,
      (ms.foldl (fun kept m =>
        if kept.any (·.variableName == m.variableName) then kept else m :: kept) kept).reverse.map
          pair = kept.reverse.map pair ++
            ((ms.map pair).filter fun p => !(kept.map pair).contains p).eraseDups := by
    intro ms
    induction ms with
    | nil => simp
    | cons m ms ih =>
      intro kept
      have hany : kept.any (·.variableName == m.variableName) = (kept.map pair).contains m.pair := by
        simp only [variableName_beq, List.contains_eq_any_beq, List.any_map, Function.comp_def,
          Bool.beq_comm]
      rw [List.foldl_cons, hany, List.map_cons]
      split
      · rename_i hold
        rw [ih, List.filter_cons_of_neg (by simpa using hold)]
      · rename_i hnew
        have hrest : ((ms.map pair).filter fun p => !((m :: kept).map pair).contains p) =
            ((ms.map pair).filter fun p => !(kept.map pair).contains p).filter
              fun p => !p == m.pair := by
          simp only [List.filter_filter, List.map_cons, List.contains_cons, Bool.not_or]
        rw [ih, List.filter_cons_of_pos (by simpa using hnew), List.eraseDups_cons, hrest]
        simp
  exact (hfold ms []).trans (by simp)

theorem nodup_map_pair_distinct (ms : List OpacityModifier) : ((distinct ms).map pair).Nodup := by
  rw [map_pair_distinct]
  refine (pairwise_idxOf_eraseDups _).imp ?_
  rintro p _ hlt rfl
  exact lt_irrefl _ hlt

theorem map_pair_ofSource (source : String) : (ofSource source).map pair =
    ((occurrences source).filter fun p => (ofLex p).2 ≤ 100).eraseDups := by
  rw [ofSource, map_pair_distinct, occurrences, List.filter_map]
  rfl

/-- The pairs of a source are what it matches up to one hundred percent. -/
theorem mem_map_pair_ofSource {p : String ×ₗ ℕ} :
    p ∈ (ofSource source).map pair ↔ p ∈ occurrences source ∧ (ofLex p).2 ≤ 100 := by
  rw [map_pair_ofSource, List.mem_eraseDups, List.mem_filter, decide_eq_true_iff]

/-- The pairs of a source stand in the order of their first matches. -/
theorem pairwise_idxOf_ofSource (source : String) : ((ofSource source).map pair).Pairwise
    fun p q => (occurrences source).idxOf p < (occurrences source).idxOf q := by
  rw [map_pair_ofSource]
  refine (pairwise_idxOf_eraseDups _).imp_of_mem fun {p q} hp hq hlt => ?_
  exact idxOf_lt_of_filter (List.mem_filter.mp (List.mem_eraseDups.mp hp)).2
    (List.mem_filter.mp (List.mem_eraseDups.mp hq)).2 hlt

/-! ### Several sources -/

theorem mem_map_pair_ofSources {p : String ×ₗ ℕ} : p ∈ (ofSources sources).map pair ↔
    ∃ source ∈ sources, p ∈ (ofSource source).map pair := by
  rw [ofSources, ((List.mergeSort_perm _ le).map pair).mem_iff, map_pair_distinct,
    List.mem_eraseDups, List.map_flatMap, List.mem_flatMap]

/-- The pairs of several sources increase. -/
theorem pairwise_ofSources (sources : List String) :
    ((ofSources sources).map pair).Pairwise (· < ·) := by
  have htrans : ∀ a b c, le a b → le b c → le a c := by
    simp only [le_iff]
    exact fun a b c => le_trans
  have htotal : ∀ a b, le a b || le b a := by
    intro a b
    rw [Bool.or_eq_true, le_iff, le_iff]
    exact le_total a.pair b.pair
  have hnodup : ((ofSources sources).map pair).Nodup :=
    ((List.mergeSort_perm _ le).map pair).nodup_iff.mpr (nodup_map_pair_distinct _)
  have hsorted := List.pairwise_mergeSort htrans htotal (distinct (sources.flatMap ofSource))
  have hle : ((ofSources sources).map pair).Pairwise (· ≤ ·) :=
    List.pairwise_map.mpr (hsorted.imp fun h => (le_iff _ _).mp h)
  exact hle.imp₂ (fun _ _ => lt_of_le_of_ne) hnodup

/-- Several sources have the pairs of all of them, each once and in order, however the sources are
ordered and repeated; one source has its pairs in the order of their first matches. -/
theorem ofSources_merged (sources : List String) :
    ((ofSources sources).map pair).Pairwise (· < ·) ∧
      ((ofSources sources).map variableName).Nodup ∧
      (∀ p, p ∈ (ofSources sources).map pair ↔
        ∃ source ∈ sources, p ∈ (ofSource source).map pair) ∧
      (∀ others : List String, (∀ source, source ∈ others ↔ source ∈ sources) →
        (ofSources others).map pair = (ofSources sources).map pair) ∧
      ∀ source,
        (∀ p, p ∈ (ofSource source).map pair ↔ p ∈ occurrences source ∧ (ofLex p).2 ≤ 100) ∧
        ((ofSource source).map pair).Nodup ∧
        ((ofSource source).map pair).Pairwise
          fun p q => (occurrences source).idxOf p < (occurrences source).idxOf q := by
  have hsorted := pairwise_ofSources sources
  refine ⟨hsorted, ?_, fun p => mem_map_pair_ofSources, ?_, fun source => ⟨fun p =>
    mem_map_pair_ofSource, nodup_map_pair_distinct _, pairwise_idxOf_ofSource source⟩⟩
  · rw [List.Nodup, List.pairwise_map]
    refine (List.pairwise_map.mp hsorted).imp fun {m m'} hlt heq => hlt.ne ?_
    rw [pair, pair, (variableName_eq_iff.mp heq).1, (variableName_eq_iff.mp heq).2]
  · intro others hsame
    refine (pairwise_ofSources others).eq_of_mem_iff hsorted fun p => ?_
    rw [mem_map_pair_ofSources, mem_map_pair_ofSources]
    simp only [hsame]

theorem ofSources_merged_twoSources :
    (ofSources ["ring-b/7", "bg-b/70 bg-a/70", "ring-b/7"]).map pair =
      (ofSources ["bg-b/70 bg-a/70", "ring-b/7"]).map pair ∧
    (ofSources ["bg-b/70 bg-a/70", "ring-b/7"]).map pair =
      [toLex ("a", 70), toLex ("b", 7), toLex ("b", 70)] := by
  have hsame : ∀ source, source ∈ ["ring-b/7", "bg-b/70 bg-a/70", "ring-b/7"] ↔
      source ∈ ["bg-b/70 bg-a/70", "ring-b/7"] := by
    intro source
    simp only [List.mem_cons, List.not_mem_nil, or_false]
    tauto
  obtain ⟨-, -, -, hothers, -⟩ := ofSources_merged ["bg-b/70 bg-a/70", "ring-b/7"]
  exact ⟨hothers _ hsame, by cbv⟩

end DesignTokens.OpacityModifier
