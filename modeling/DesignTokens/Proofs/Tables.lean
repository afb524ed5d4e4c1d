import DesignTokens.Table
import DesignTokens.Text.Order
import Mathlib.Data.Finset.Card
import Mathlib.Data.List.Forall2
import Mathlib.Tactic.Tauto

/-!
Tables and the pairs that they hold. A look-up finds a pair of the table, and finds every pair of a
table whose names are distinct.
-/
namespace DesignTokens.Table

variable {α : Type}

theorem mem_of_get? {key : String} {v : α} {t : Table α} (h : get? key t = some v) :
    (key, v) ∈ t := by
  induction t with
  | nil => cases h
  | cons p t ih =>
    obtain ⟨k, w⟩ := p
    rw [get?_cons] at h
    split at h
    · rename_i hk
      obtain rfl : k = key := by simpa using hk
      simp_all
    · exact List.mem_cons_of_mem _ (ih h)

theorem get?_of_mem {key : String} {v : α} {t : Table α} (hn : (keys t).Nodup)
    (h : (key, v) ∈ t) : get? key t = some v := by
  induction t with
  | nil => cases h
  | cons p t ih =>
    obtain ⟨k, w⟩ := p
    obtain ⟨hk, hn⟩ := List.nodup_cons.mp hn
    rcases List.mem_cons.mp h with heq | hmem
    · cases heq
      simp [get?]
    · have hne : k ≠ key := by
        intro e
        exact hk (List.mem_map.mpr ⟨(key, v), hmem, e.symm⟩)
      rw [get?_cons, if_neg (by simpa using hne), ih hn hmem]

theorem get?_eq_none_iff {key : String} {t : Table α} : get? key t = none ↔ key ∉ keys t := by
  induction t with
  | nil => simp [keys]
  | cons p t ih =>
    obtain ⟨k, v⟩ := p
    by_cases h : k = key
    · simp [get?_cons, keys, h]
    · have h' : ¬key = k := fun e => h e.symm
      simpa [get?_cons, keys, h, h'] using ih

theorem exists_get?_of_mem_keys {key : String} {t : Table α} (h : key ∈ keys t) :
    ∃ v, get? key t = some v := by
  rw [← Option.isSome_iff_exists, Option.isSome_iff_ne_none, Ne, get?_eq_none_iff]
  exact not_not_intro h

/-- A table whose names are distinct is known by its names and by what is found under them. -/
theorem ext_get? {s t : Table α} (hkeys : keys s = keys t) (hn : (keys s).Nodup)
    (h : ∀ key, get? key s = get? key t) : s = t := by
  induction s generalizing t with
  | nil =>
    cases t with
    | nil => rfl
    | cons q t => cases hkeys
  | cons p s ih =>
    obtain ⟨k, v⟩ := p
    cases t with
    | nil => cases hkeys
    | cons q t =>
      obtain ⟨k', w⟩ := q
      obtain ⟨rfl, htail⟩ := List.cons.inj hkeys
      obtain ⟨hk, hn⟩ := List.nodup_cons.mp hn
      have hk' : k ∉ keys t := by
        rw [keys, ← htail]
        exact hk
      have hhead := h k
      simp only [get?_cons, beq_self_eq_true, if_true, Option.some.injEq] at hhead
      have hrest : ∀ key, get? key s = get? key t := by
        intro key
        by_cases e : k = key
        · subst e
          rw [get?_eq_none_iff.mpr hk, get?_eq_none_iff.mpr hk']
        · simpa [get?_cons, e] using h key
      rw [hhead, ih htail hn hrest]

theorem put_of_not_mem {key : String} (v : α) {t : Table α} (h : key ∉ keys t) :
    put key v t = t ++ [(key, v)] := by
  induction t with
  | nil => rfl
  | cons p t ih =>
    obtain ⟨k, w⟩ := p
    obtain ⟨hk, ht⟩ := not_or.mp (mt List.mem_cons.mpr h)
    rw [put, if_neg (by simpa using Ne.symm hk), ih ht, List.cons_append]

/-- Writing what is there changes nothing. -/
theorem put_of_get? {key : String} {v : α} {t : Table α} (h : get? key t = some v) :
    put key v t = t := by
  induction t with
  | nil => cases h
  | cons p t ih =>
    obtain ⟨k, w⟩ := p
    rw [get?_cons] at h
    by_cases hk : k = key
    · rw [if_pos (by simpa using hk)] at h
      rw [put, if_pos (by simpa using hk), Option.some.inj h]
    · rw [if_neg (by simpa using hk)] at h
      rw [put, if_neg (by simpa using hk), ih h]

/-- Writing keeps the names distinct. -/
theorem nodup_keys_put (key : String) (v : α) {t : Table α} (hn : (keys t).Nodup) :
    (keys (put key v t)).Nodup := by
  rw [keys_put]
  split
  · exact hn
  · rename_i h
    exact List.nodup_append.mpr ⟨hn, by simp, by
      intro a ha b hb e
      obtain rfl : b = key := by simpa using hb
      exact h (e ▸ ha)⟩

theorem mem_put {key : String} {v : α} {p : String × α} {t : Table α} (h : p ∈ put key v t) :
    p = (key, v) ∨ p ∈ t := by
  induction t with
  | nil => exact .inl (by simpa [put] using h)
  | cons q t ih =>
    obtain ⟨k, w⟩ := q
    rw [put] at h
    split at h
    · rename_i hk
      obtain rfl : k = key := by simpa using hk
      rcases List.mem_cons.mp h with rfl | h
      · exact .inl rfl
      · exact .inr (List.mem_cons_of_mem _ h)
    · rcases List.mem_cons.mp h with rfl | h
      · exact .inr List.mem_cons_self
      · exact (ih h).imp_right (List.mem_cons_of_mem _)

/-- A table without one of its names is shorter by one. -/
theorem length_erase {key : String} {t : Table α} (hn : (keys t).Nodup) (h : key ∈ keys t) :
    (erase key t).length + 1 = t.length := by
  induction t with
  | nil => cases h
  | cons p t ih =>
    obtain ⟨k, v⟩ := p
    obtain ⟨hk, hn⟩ := List.nodup_cons.mp hn
    by_cases e : k = key
    · subst e
      have hrest : t.filter (·.1 != k) = t := by
        rw [List.filter_eq_self]
        intro q hq
        have hne : q.1 ≠ k := fun e => hk (List.mem_map.mpr ⟨q, hq, e⟩)
        simpa using hne
      simp [erase, hrest]
    · have hmem : key ∈ keys t := (List.mem_cons.mp h).resolve_left (Ne.symm e)
      simpa [erase, e] using ih hn hmem

/-- Writing pairs into a table: the last pair under a name counts, and before the table's own. -/
theorem get?_foldl_put (key : String) (pairs : List (String × α)) (t : Table α) :
    get? key (pairs.foldl (fun t p => put p.1 p.2 t) t) =
      (pairs.reverse.lookup key).or (get? key t) := by
  induction pairs generalizing t with
  | nil => rfl
  | cons p pairs ih =>
    obtain ⟨k, v⟩ := p
    rw [List.foldl_cons, ih, List.reverse_cons, List.lookup_append]
    by_cases h : key = k
    · subst h
      simp
    · simp [get?_put_of_ne h, List.lookup_cons, beq_eq_false_iff_ne.mpr h]

theorem get?_ofPairs (key : String) (pairs : List (String × α)) :
    get? key (ofPairs pairs) = pairs.reverse.lookup key := by
  rw [ofPairs, get?_foldl_put, get?_nil, Option.or_none]

theorem isSome_get?_ofPairs {key : String} {v : α} {pairs : List (String × α)}
    (h : (key, v) ∈ pairs) : (get? key (ofPairs pairs)).isSome := by
  rw [get?_ofPairs, List.lookup_isSome_iff]
  exact ⟨(key, v), List.mem_reverse.mpr h, beq_self_eq_true key⟩

theorem mem_foldl_put {p : String × α} {pairs : List (String × α)} {t : Table α}
    (h : p ∈ pairs.foldl (fun t p => put p.1 p.2 t) t) : p ∈ pairs ∨ p ∈ t := by
  induction pairs generalizing t with
  | nil => exact .inr h
  | cons q pairs ih =>
    rcases ih h with h | h
    · exact .inl (List.mem_cons_of_mem _ h)
    · rcases mem_put h with rfl | h
      · exact .inl List.mem_cons_self
      · exact .inr h

theorem mem_of_mem_ofPairs {p : String × α} {pairs : List (String × α)} (h : p ∈ ofPairs pairs) :
    p ∈ pairs := by
  simpa using mem_foldl_put h

theorem nodup_keys_foldl_put (pairs : List (String × α)) {t : Table α} (hn : (keys t).Nodup) :
    (keys (pairs.foldl (fun t p => put p.1 p.2 t) t)).Nodup := by
  induction pairs generalizing t with
  | nil => exact hn
  | cons p pairs ih => exact ih (nodup_keys_put p.1 p.2 hn)

theorem nodup_keys_ofPairs (pairs : List (String × α)) : (keys (ofPairs pairs)).Nodup :=
  nodup_keys_foldl_put pairs List.nodup_nil

theorem foldl_put_of_nodup (pairs : List (String × α)) {t : Table α}
    (hn : (keys (t ++ pairs)).Nodup) :
    pairs.foldl (fun t p => put p.1 p.2 t) t = t ++ pairs := by
  induction pairs generalizing t with
  | nil => rw [List.foldl_nil, List.append_nil]
  | cons p pairs ih =>
    have hjoin : t ++ p :: pairs = t ++ [p] ++ pairs := by simp
    have hnew : p.1 ∉ keys t := by
      intro hmem
      rw [keys, List.map_append, List.map_cons] at hn
      exact (List.nodup_append.mp hn).2.2 p.1 hmem p.1 List.mem_cons_self rfl
    rw [List.foldl_cons, put_of_not_mem _ hnew, hjoin]
    exact ih (hjoin ▸ hn)

/-- Pairs whose names are distinct are a table as they stand. -/
theorem ofPairs_of_nodup {pairs : List (String × α)} (hn : (keys pairs).Nodup) :
    ofPairs pairs = pairs :=
  foldl_put_of_nodup pairs hn

theorem keys_foldl_put (pairs : List (String × α)) (t : Table α) :
    keys (pairs.foldl (fun t p => put p.1 p.2 t) t) =
      keys t ++ (Text.distinct (keys pairs)).filter (· ∉ keys t) := by
  induction pairs generalizing t with
  | nil => simp [keys, Text.distinct]
  | cons p pairs ih =>
    have hcons : Text.distinct (keys (p :: pairs)) =
        p.1 :: (Text.distinct (keys pairs)).filter (· != p.1) := rfl
    rw [List.foldl_cons, ih, hcons, keys_put, List.filter_cons, List.filter_filter]
    by_cases h : p.1 ∈ keys t
    · have hsame : ∀ k ∈ Text.distinct (keys pairs),
          decide (k ∉ keys t) = (decide (k ∉ keys t) && k != p.1) := by
        intro k _
        by_cases hk : k = p.1 <;> simp [hk, h]
      rw [if_pos h, if_neg (by simpa using h), List.filter_congr hsame]
    · have hsame : ∀ k ∈ Text.distinct (keys pairs),
          decide (k ∉ keys t ++ [p.1]) = (decide (k ∉ keys t) && k != p.1) := by
        intro k _
        by_cases hk : k = p.1 <;> simp [hk]
      rw [if_neg h, if_pos (by simpa using h), List.filter_congr hsame, List.append_assoc,
        List.singleton_append]

/-- The names of pairs that are written into an empty table. -/
theorem keys_ofPairs (pairs : List (String × α)) :
    keys (ofPairs pairs) = Text.distinct (keys pairs) := by
  rw [ofPairs, keys_foldl_put]
  simp [keys]

theorem mem_keys_foldl_put {key : String} (pairs : List (String × α)) (t : Table α) :
    key ∈ keys (pairs.foldl (fun t p => put p.1 p.2 t) t) ↔ key ∈ keys pairs ∨ key ∈ keys t := by
  induction pairs generalizing t with
  | nil => simp [keys]
  | cons p pairs ih =>
    have hput : key ∈ keys (put p.1 p.2 t) ↔ key = p.1 ∨ key ∈ keys t := by
      rw [keys_put]
      split
      · rename_i hold
        constructor
        · exact .inr
        · rintro (rfl | h)
          · exact hold
          · exact h
      · simp [or_comm]
    have hcons : key ∈ keys (p :: pairs) ↔ key = p.1 ∨ key ∈ keys pairs := List.mem_cons
    rw [List.foldl_cons, ih, hput, hcons]
    tauto

/-- What is written under a name of its own is found there. -/
theorem get?_foldl_put_of_mem {key : String} {v : α} {pairs : List (String × α)}
    (hn : (keys pairs).Nodup) (h : (key, v) ∈ pairs) (t : Table α) :
    get? key (pairs.foldl (fun t p => put p.1 p.2 t) t) = some v := by
  have hreverse : (keys pairs.reverse).Nodup := by
    rw [keys, List.map_reverse]
    exact List.nodup_reverse.mpr hn
  have hlookup : pairs.reverse.lookup key = get? key pairs.reverse := by
    induction pairs.reverse with
    | nil => rfl
    | cons p ps ih =>
      rw [get?_cons, List.lookup_cons, ih, Bool.beq_comm]
      cases p.1 == key <;> rfl
  rw [get?_foldl_put, hlookup, get?_of_mem hreverse (List.mem_reverse.mpr h), Option.some_or]

/-- Pairs with names of their own that are written into a table of one pair: one more, unless one of
them takes its place. -/
theorem length_foldl_put_singleton (p : String × α) {pairs : List (String × α)}
    (hn : (keys pairs).Nodup) :
    (pairs.foldl (fun t p => put p.1 p.2 t) [p]).length =
      if p.1 ∈ keys pairs then pairs.length else 1 + pairs.length := by
  have hlength : ∀ t : Table α, t.length = (keys t).length := fun t => (List.length_map _).symm
  have hone : (keys [p]).Nodup := List.nodup_singleton p.1
  have hset : (keys (pairs.foldl (fun t p => put p.1 p.2 t) [p])).toFinset =
      insert p.1 (keys pairs).toFinset := by
    ext key
    have hp : key ∈ keys [p] ↔ key = p.1 := List.mem_singleton
    rw [List.mem_toFinset, mem_keys_foldl_put, hp, Finset.mem_insert, List.mem_toFinset, or_comm]
  have hcard := congrArg Finset.card hset
  rw [List.toFinset_card_of_nodup (nodup_keys_foldl_put pairs hone),
    Finset.card_insert_eq_ite, List.toFinset_card_of_nodup hn] at hcard
  rw [hlength, hcard, ← hlength, Nat.add_comm]
  simp only [List.mem_toFinset]

/-- What stood under a name does not matter once it is written. -/
theorem put_congr {key : String} {s t : Table α} (hkeys : keys s = keys t) (hn : (keys s).Nodup)
    (h : ∀ other, other ≠ key → get? other s = get? other t) (v : α) :
    put key v s = put key v t := by
  refine ext_get? ?_ (nodup_keys_put key v hn) ?_
  · rw [keys_put, keys_put, hkeys]
  · intro other
    by_cases e : other = key
    · rw [e, get?_put_self, get?_put_self]
    · rw [get?_put_of_ne e, get?_put_of_ne e, h other e]

/-! ### Tables pair by pair -/

variable {β : Type}

/-- The same names in the same order, with related values under them. -/
def Related (R : α → β → Prop) (s : Table α) (t : Table β) : Prop :=
  List.Forall₂ (fun p q => q.1 = p.1 ∧ R p.2 q.2) s t

variable {R : α → β → Prop} {s : Table α} {t : Table β}

theorem Related.keys_eq (h : Related R s t) : keys t = keys s := by
  induction h with
  | nil => rfl
  | cons hp _ ih => simp_all [keys]

theorem Related.exists_of_mem (h : Related R s t) {name : String} {b : β} (hb : (name, b) ∈ t) :
    ∃ a, (name, a) ∈ s ∧ R a b := by
  induction h with
  | nil => cases hb
  | @cons p q _ _ hp _ ih =>
    obtain ⟨k, a⟩ := p
    rcases List.mem_cons.mp hb with rfl | hb
    · obtain ⟨rfl, ha⟩ := hp
      exact ⟨a, List.mem_cons_self, ha⟩
    · obtain ⟨a, ha, hab⟩ := ih hb
      exact ⟨a, List.mem_cons_of_mem _ ha, hab⟩

end DesignTokens.Table
