import DesignTokens.Proofs.Tables
import DesignTokens.Proofs.Text.Words
import DesignTokens.Theme.Data

/-!
Values by their paths. A sequence of keys leads through the objects of a snapshot to a value. Its keys
joined by dots are a path to that value as long as no key has a dot of its own; a key that has one,
such as the name of a half step, is taken for several. Every other path fails at the first of its keys
that is not there: as a missing name below an object, and as a value without names below all else.
-/
namespace DesignTokens

open Text

namespace Json

/-- Whether keys lead from a value through objects to another one. -/
inductive Leads : Json → List String → Json → Prop
  | here (v : Json) : Leads v [] v
  | step {fields : Table Json} {key : String} {v w : Json} {keys : List String}
      (hv : Table.get? key fields = some v) (hw : Leads v keys w) : Leads (.obj fields) (key :: keys) w

/-- How a value has nothing under a key: an object lacks it, and what is no object has no keys. -/
def IsLack (key : String) (v : Json) (e : Mismatch) : Prop :=
  (∃ fields, v = .obj fields) ∧ e = .missingName key ∨
    (∀ fields, v ≠ .obj fields) ∧ e = .noNames v.typeName

variable {v w : Json} {key : String} {keys : List String} {fields : Table Json}

theorem leads_nil : Leads v [] w ↔ w = v := by
  constructor
  · rintro ⟨⟩
    rfl
  · rintro rfl
    exact .here w

theorem leads_obj_cons :
    Leads (.obj fields) (key :: keys) w ↔ ∃ v, Table.get? key fields = some v ∧ Leads v keys w := by
  constructor
  · rintro (_ | ⟨hv, hw⟩)
    exact ⟨_, hv, hw⟩
  · rintro ⟨v, hv, hw⟩
    exact .step hv hw

theorem leads_cons_iff :
    Leads v (key :: keys) w ↔ ∃ x, v.member key = .ok x ∧ Leads x keys w := by
  cases v with
  | obj fields =>
    rw [leads_obj_cons, member]
    cases Table.get? key fields <;> simp
  | null | bool | num | str | arr =>
    constructor
    · rintro ⟨⟩
    · rintro ⟨x, ⟨⟩, -⟩

theorem isLack_of_member {e : Mismatch} (h : v.member key = .error e) : IsLack key v e := by
  cases v with
  | obj fields =>
    rw [member] at h
    split at h
    · cases h
    · exact .inl ⟨⟨fields, rfl⟩, (Except.error.inj h).symm⟩
  | null | bool | num | str | arr =>
    exact .inr ⟨fun fields => by simp, (Except.error.inj h).symm⟩

theorem foldlM_member_eq_ok :
    keys.foldlM (fun x key => x.member key) v = .ok w ↔ Leads v keys w := by
  induction keys generalizing v with
  | nil =>
    rw [leads_nil, List.foldlM_nil, eq_comm]
    exact ⟨Except.ok.inj, congrArg Except.ok⟩
  | cons key keys ih =>
    rw [leads_cons_iff, List.foldlM_cons]
    cases hx : v.member key with
    | error e => simp [bind, Except.bind]
    | ok x => simpa [bind, Except.bind] using ih

/-- Keys that lead nowhere fail at the first one that is not there. -/
theorem foldlM_member_eq_error (h : ∀ w, ¬Leads v keys w) :
    ∃ before key after x e, keys = before ++ key :: after ∧ Leads v before x ∧
      (∀ w, ¬Leads v (before ++ [key]) w) ∧
      keys.foldlM (fun x key => x.member key) v = .error e ∧ IsLack key x e := by
  induction keys generalizing v with
  | nil => exact absurd (.here v) (h v)
  | cons key keys ih =>
    cases hx : v.member key with
    | error e =>
      refine ⟨[], key, keys, v, e, rfl, .here v, ?_, ?_, isLack_of_member hx⟩
      · intro w hw
        obtain ⟨x, hx', -⟩ := leads_cons_iff.mp hw
        rw [hx] at hx'
        cases hx'
      · rw [List.foldlM_cons, hx]
        rfl
    | ok x =>
      have hbelow : ∀ keys w, Leads v (key :: keys) w ↔ Leads x keys w := by
        intro keys w
        simp [leads_cons_iff, hx]
      obtain ⟨before, next, after, y, e, rfl, hy, hnone, herror, hlack⟩ :=
        ih fun w hw => h w ((hbelow _ w).mpr hw)
      refine ⟨key :: before, next, after, y, e, rfl, (hbelow _ y).mpr hy, ?_, ?_, hlack⟩
      · intro w hw
        exact hnone w ((hbelow _ w).mp hw)
      · rw [List.foldlM_cons, hx]
        exact herror

/-! ### Keys with dots -/

/-- The keys that are read from the keys joined by dots. -/
def atDots (keys : List String) : List String := keys.flatMap (splitOn · '.')

/-- A value below which no keys of which one has a dot are found by their path. -/
def HidesDots (v : Json) : Prop :=
  ∀ keys w, (∃ key ∈ keys, '.' ∈ key.toList) → Leads v keys w → ¬Leads v (atDots keys) w

theorem atDots_cons (key : String) (keys : List String) :
    atDots (key :: keys) = splitOn key '.' ++ atDots keys := rfl

theorem splitOn_joined (h : keys ≠ []) : splitOn (String.intercalate "." keys) '.' = atDots keys := by
  obtain ⟨first, rest, rfl⟩ := List.exists_cons_of_ne_nil h
  exact splitOn_intercalate_eq_flatMap first rest

theorem hidesDots_of_not_obj (h : ∀ fields, v ≠ .obj fields) : v.HidesDots := by
  rintro keys w ⟨key, hkey, -⟩ hw
  cases hw with
  | here => cases hkey
  | step => exact absurd rfl (h _)

/-- A key with a dot is taken for two keys or more. -/
theorem exists_of_leads_atDots (hdot : '.' ∈ key.toList)
    (h : Leads (.obj fields) (atDots (key :: keys)) w) :
    ∃ first second more x, Table.get? first fields = some x ∧
      Leads x (second :: (more ++ atDots keys)) w := by
  obtain ⟨first, second, more, hsplit⟩ := exists_splitOn_of_mem hdot
  rw [atDots_cons, hsplit, List.cons_append, leads_obj_cons] at h
  obtain ⟨x, hx, hw⟩ := h
  exact ⟨first, second, more, x, hx, hw⟩

theorem hidesDots_obj (hbelow : ∀ p ∈ fields, p.2.HidesDots)
    (h : ∀ key x keys w, '.' ∈ key.toList → Table.get? key fields = some x → Leads x keys w →
      ¬Leads (.obj fields) (atDots (key :: keys)) w) :
    (Json.obj fields).HidesDots := by
  intro keys w hdot hw hsplit
  cases hw with
  | here => simp at hdot
  | @step _ first x _ keys hx hw =>
    by_cases hfirst : '.' ∈ first.toList
    · exact h first x keys w hfirst hx hw hsplit
    have hrest : ∃ key ∈ keys, '.' ∈ key.toList := by simpa [hfirst] using hdot
    rw [atDots_cons, splitOn_of_not_mem hfirst, List.singleton_append, leads_obj_cons] at hsplit
    obtain ⟨x', hx', hw'⟩ := hsplit
    obtain rfl : x' = x := Option.some.inj (hx'.symm.trans hx)
    exact hbelow _ (Table.mem_of_get? hx) keys w hrest hw hw'

/-- An object whose own keys have no dots. -/
theorem hidesDots_record (h : ∀ p ∈ fields, '.' ∉ p.1.toList ∧ p.2.HidesDots) :
    (Json.obj fields).HidesDots :=
  hidesDots_obj (fun p hp => (h p hp).2) fun _ _ _ _ hdot hx _ =>
    absurd hdot (h _ (Table.mem_of_get? hx)).1

/-- A table of values that are no objects. -/
theorem hidesDots_leaves (h : ∀ p ∈ fields, ∀ members, p.2 ≠ .obj members) :
    (Json.obj fields).HidesDots := by
  refine hidesDots_obj (fun p hp => hidesDots_of_not_obj (h p hp)) ?_
  intro key x keys w hdot _ _ hsplit
  obtain ⟨first, second, more, y, hy, hw⟩ := exists_of_leads_atDots hdot hsplit
  cases hw
  exact h _ (Table.mem_of_get? hy) _ rfl

end Json

/-! ### Snapshots as objects -/

namespace Theme

open Json

variable {name key path : String} {keys : List String} {layer v w : Json}

theorem hidesDots_mapValues {α : Type} {toJson : α → Json} (t : Table α)
    (h : ∀ a members, toJson a ≠ .obj members) : (Json.obj (Table.mapValues toJson t)).HidesDots := by
  refine hidesDots_leaves ?_
  intro p hp
  obtain ⟨q, -, rfl⟩ := List.mem_map.mp hp
  exact h q.2

theorem ne_obj_ofFloat (x : Float) (members : Table Json) : Json.ofFloat x ≠ .obj members := by
  simp [Json.ofFloat]

/-- Below a shadow there is its list of layers, which is no shadow. -/
theorem hidesDots_shadows (t : Table ShadowPreset) :
    (Json.obj (Table.mapValues ShadowPreset.toJson t)).HidesDots := by
  refine hidesDots_obj ?_ ?_
  · intro p hp
    obtain ⟨q, -, rfl⟩ := List.mem_map.mp hp
    exact hidesDots_leaves (by simp)
  · intro key x keys w hdot hx hw hsplit
    obtain ⟨first, second, more, y, hy, hlayers⟩ := exists_of_leads_atDots hdot hsplit
    rw [Table.get?_mapValues, Option.map_eq_some_iff] at hx hy
    obtain ⟨p, -, rfl⟩ := hx
    obtain ⟨q, -, rfl⟩ := hy
    rw [ShadowPreset.toJson, leads_obj_cons] at hlayers
    obtain ⟨layers, hget, hlayers⟩ := hlayers
    obtain rfl : layers = .arr (q.layers.map ShadowLayer.toJson) := by
      rw [Table.get?_cons] at hget
      split at hget
      · exact (Option.some.inj hget).symm
      · cases hget
    cases keys with
    | nil =>
      rw [leads_nil] at hw
      subst hw
      generalize more ++ atDots [] = rest at hlayers
      cases hlayers
    | cons next keys =>
      obtain ⟨c, cs, hc⟩ := List.exists_cons_of_ne_nil (splitOn_ne_nil next '.')
      rw [atDots_cons, hc] at hlayers
      generalize hrest : more ++ (c :: cs ++ atDots keys) = rest at hlayers
      cases hlayers
      simp at hrest

theorem Scales.hidesDots (s : Scales) : s.toJson.HidesDots := by
  have hspacing : s.spacing.toJson.HidesDots := by
    refine hidesDots_record ?_
    simp only [List.forall_mem_cons, List.not_mem_nil, false_imp_iff, implies_true, and_true]
    exact ⟨⟨by decide, hidesDots_of_not_obj (ne_obj_ofFloat _)⟩,
      ⟨by decide, hidesDots_of_not_obj (ne_obj_ofFloat _)⟩,
      by decide, hidesDots_mapValues _ ne_obj_ofFloat⟩
  refine hidesDots_record ?_
  simp only [List.forall_mem_cons, List.not_mem_nil, false_imp_iff, implies_true, and_true]
  exact ⟨⟨by decide, hspacing⟩, ⟨by decide, hidesDots_mapValues _ ne_obj_ofFloat⟩,
    ⟨by decide, hidesDots_mapValues _ ne_obj_ofFloat⟩,
    ⟨by decide, hidesDots_mapValues _ fun n members => by simp [Json.ofInt]⟩,
    by decide, hidesDots_shadows _⟩

/-- The scales of a layer are no layers themselves, and have no dots in their names. -/
theorem Scales.first_key {s : Scales} (h : Leads s.toJson (key :: keys) w) :
    key ∉ ["tailwind", "computed"] ∧ '.' ∉ key.toList := by
  rw [Scales.toJson, leads_obj_cons] at h
  obtain ⟨v, hv, -⟩ := h
  have hmem : key ∈ ["spacing", "borderRadius", "fontSize", "fontWeight", "shadows"] :=
    List.mem_map_of_mem (f := Prod.fst) (Table.mem_of_get? hv)
  have hnames : ∀ key ∈ ["spacing", "borderRadius", "fontSize", "fontWeight", "shadows"],
      key ∉ ["tailwind", "computed"] ∧ '.' ∉ key.toList := by decide
  exact hnames key hmem

namespace Snapshot

variable {s : Snapshot}

theorem of_get?_layers (h : Table.get? name s.layers = some layer) :
    name ∈ ["tailwind", "computed"] ∧ '.' ∉ name.toList ∧ layer.HidesDots := by
  have hmem := Table.mem_of_get? h
  simp only [layers, List.mem_cons, Prod.mk.injEq, List.not_mem_nil, or_false] at hmem
  rcases hmem with ⟨rfl, rfl⟩ | ⟨rfl, rfl⟩
  · exact ⟨by decide, by decide, s.framework.hidesDots⟩
  · exact ⟨by decide, by decide, s.computed.hidesDots⟩

/-- Whether keys lead to a value, in the computed scales or in the layer that the first one names. -/
inductive Finds (s : Snapshot) : List String → Json → Prop
  | computed {keys : List String} {v : Json} (h : Leads s.computed.toJson keys v) : Finds s keys v
  | layer {name : String} {layer v : Json} {keys : List String}
      (hlayer : Table.get? name s.layers = some layer) (h : Leads layer keys v) :
      Finds s (name :: keys) v

theorem finds_of_layer (hlayer : Table.get? name s.layers = some layer) :
    s.Finds (name :: keys) v ↔ Leads layer keys v := by
  constructor
  · intro h
    cases h with
    | computed h => exact absurd (of_get?_layers hlayer).1 (Scales.first_key h).1
    | layer hlayer' h =>
      obtain rfl := Option.some.inj (hlayer'.symm.trans hlayer)
      exact h
  · exact .layer hlayer

theorem finds_of_none (hnone : Table.get? name s.layers = none) :
    s.Finds (name :: keys) v ↔ Leads s.computed.toJson (name :: keys) v := by
  constructor
  · intro h
    cases h with
    | computed h => exact h
    | layer hlayer h =>
      rw [hnone] at hlayer
      cases hlayer
  · exact .computed

/-- A path is read at its dots. -/
theorem lookup_eq_ok : s.lookup path = .ok v ↔ s.Finds (splitOn path '.') v := by
  obtain ⟨name, keys, hsplit⟩ := List.exists_cons_of_ne_nil (splitOn_ne_nil path '.')
  rw [lookup, hsplit]
  cases hlayer : Table.get? name s.layers with
  | none => simp only [hlayer, foldlM_member_eq_ok, finds_of_none hlayer]
  | some layer => simp only [hlayer, foldlM_member_eq_ok, finds_of_layer hlayer]

theorem lookup_eq_error (h : ∀ v, ¬s.Finds (splitOn path '.') v) :
    ∃ before key after w e, splitOn path '.' = before ++ key :: after ∧ s.Finds before w ∧
      (∀ v, ¬s.Finds (before ++ [key]) v) ∧ s.lookup path = .error e ∧ IsLack key w e := by
  obtain ⟨name, keys, hsplit⟩ := List.exists_cons_of_ne_nil (splitOn_ne_nil path '.')
  rw [hsplit] at h
  rw [lookup, hsplit]
  cases hlayer : Table.get? name s.layers with
  | none =>
    simp only [finds_of_none hlayer] at h
    obtain ⟨before, key, after, w, e, hkeys, hw, hnone, herror⟩ := foldlM_member_eq_error h
    refine ⟨before, key, after, w, e, hkeys, .computed hw, ?_, by simpa only [hlayer] using herror⟩
    -- up to the key that is not there the path has the first key of the whole path
    obtain ⟨more, hmore⟩ : ∃ more, before ++ [key] = name :: more := by
      cases before with
      | nil => exact ⟨[], by rw [(List.cons.inj hkeys).1]; rfl⟩
      | cons first before => exact ⟨before ++ [key], by rw [(List.cons.inj hkeys).1]; rfl⟩
    intro v hv
    rw [hmore, finds_of_none hlayer, ← hmore] at hv
    exact hnone v hv
  | some layer =>
    simp only [finds_of_layer hlayer] at h
    obtain ⟨before, key, after, w, e, rfl, hw, hnone, herror⟩ := foldlM_member_eq_error h
    refine ⟨name :: before, key, after, w, e, rfl, .layer hlayer hw, ?_,
      by simpa only [hlayer] using herror⟩
    intro v hv
    exact hnone v ((finds_of_layer hlayer).mp hv)

/-- Of keys with dots the path leads elsewhere, if anywhere. -/
theorem Finds.not_atDots (h : s.Finds keys v) (hdot : ∃ key ∈ keys, '.' ∈ key.toList) :
    ¬s.Finds (atDots keys) v := by
  intro hsplit
  cases h with
  | computed h =>
    cases keys with
    | nil => simp at hdot
    | cons first keys =>
      obtain ⟨hfirst, hplain⟩ := Scales.first_key h
      have hnone : Table.get? first s.layers = none := by
        by_contra hlayer
        obtain ⟨layer, hlayer⟩ := Option.ne_none_iff_exists'.mp hlayer
        exact hfirst (of_get?_layers hlayer).1
      refine s.computed.hidesDots _ v hdot h ?_
      rw [atDots_cons, splitOn_of_not_mem hplain] at hsplit ⊢
      exact (finds_of_none hnone).mp hsplit
  | @layer name layer _ keys hlayer h =>
    obtain ⟨-, hname, hhides⟩ := of_get?_layers hlayer
    have hrest : ∃ key ∈ keys, '.' ∈ key.toList := by simpa [hname] using hdot
    rw [atDots_cons, splitOn_of_not_mem hname] at hsplit
    exact hhides keys v hrest h ((finds_of_layer hlayer).mp hsplit)

/-- Keys joined by dots are a path to the value that the keys lead to exactly if none of them has a
dot itself. Every path that is not made of such keys fails at the first of its parts that is not
there: as a missing name in an object, and as a value without names in any other value. -/
theorem lookup_joined (s : Snapshot) :
    (∀ keys v, keys ≠ [] → s.Finds keys v →
      (s.lookup (String.intercalate "." keys) = .ok v ↔ ∀ key ∈ keys, '.' ∉ key.toList)) ∧
    ∀ path, (∀ keys v, keys ≠ [] → (∀ key ∈ keys, '.' ∉ key.toList) → s.Finds keys v →
        path ≠ String.intercalate "." keys) →
      ∃ before key after w e, splitOn path '.' = before ++ key :: after ∧ s.Finds before w ∧
        (∀ v, ¬s.Finds (before ++ [key]) v) ∧ s.lookup path = .error e ∧ IsLack key w e := by
  constructor
  · intro keys v hne hfinds
    rw [lookup_eq_ok, splitOn_joined hne]
    constructor
    · intro hfound key hkey hdot
      exact hfinds.not_atDots ⟨key, hkey, hdot⟩ hfound
    · intro hplain
      rwa [atDots, flatMap_splitOn hplain]
  · intro path hother
    refine lookup_eq_error fun v hfound => ?_
    exact hother _ v (splitOn_ne_nil path '.') (fun key hkey => not_mem_of_mem_splitOn hkey) hfound
      (intercalate_splitOn path).symm

/-- Scales with a half step in the spacing. -/
def halved : Snapshot :=
  let scales : Scales :=
    { spacing := ⟨4, 0.25, [("0", 0), ("0.5", 2)]⟩, borderRadius := [], fontSize := [("base", 16)],
      fontWeight := [], shadows := [] }
  ⟨scales, scales, []⟩

theorem lookup_joined_halved :
    halved.Finds ["fontSize", "base"] (Json.ofFloat 16) ∧
      halved.lookup "fontSize.base" = .ok (Json.ofFloat 16) := by
  have hfinds : halved.Finds ["fontSize", "base"] (Json.ofFloat 16) :=
    .computed (.step rfl (.step rfl (.here _)))
  have hplain : ∀ key ∈ ["fontSize", "base"], '.' ∉ key.toList := by decide
  exact ⟨hfinds, ((lookup_joined halved).1 _ _ (by simp) hfinds).mpr hplain⟩

/-- No keys, with dots or without, make a path beyond a font size. -/
theorem not_finds_beyond {keys : List String} {v : Json} (hfinds : halved.Finds keys v) :
    String.intercalate "." keys ≠ "fontSize.base.x" := by
  intro hpath
  have hne : keys ≠ [] := by
    rintro rfl
    exact absurd hpath (by decide)
  have hdots : atDots keys = ["fontSize", "base", "x"] := by
    rw [← splitOn_joined hne, hpath]
    rfl
  cases hfinds with
  | @layer name _ _ keys hlayer _ =>
    obtain ⟨hname, hplain, -⟩ := of_get?_layers hlayer
    rw [atDots_cons, splitOn_of_not_mem hplain] at hdots
    obtain ⟨rfl, -⟩ := List.cons.inj hdots
    exact absurd hname (by decide)
  | computed h =>
    cases keys with
    | nil => cases hdots
    | cons first keys =>
      rw [atDots_cons, splitOn_of_not_mem (Scales.first_key h).2] at hdots
      obtain ⟨rfl, hdots⟩ := List.cons.inj hdots
      obtain ⟨sizes, hsizes, h⟩ := leads_obj_cons.mp h
      obtain rfl : sizes = .obj [("base", Json.ofFloat 16)] := (Option.some.inj hsizes).symm
      cases keys with
      | nil => cases hdots
      | cons second keys =>
        obtain ⟨size, hsize, h⟩ := leads_obj_cons.mp h
        have hmem := Table.mem_of_get? hsize
        obtain ⟨rfl, rfl⟩ : second = "base" ∧ size = Json.ofFloat 16 := by simpa using hmem
        have hbase : splitOn "base" '.' = ["base"] := rfl
        rw [atDots_cons, hbase] at hdots
        cases h
        cases hdots

/-- A half step is not found under its path, and beyond a size there is no missing name. -/
theorem lookup_halved :
    (halved.Finds ["spacing", "scale", "0.5"] (Json.ofFloat 2) ∧
      halved.lookup (String.intercalate "." ["spacing", "scale", "0.5"]) =
        .error (.noNames "float")) ∧
      (∀ keys v, halved.Finds keys v → String.intercalate "." keys ≠ "fontSize.base.x") ∧
      halved.lookup "fontSize.base.x" = .error (.noNames "float") ∧
      (Mismatch.noNames "float").kind ≠ .name :=
  ⟨⟨.computed (.step rfl (.step rfl (.step rfl (.here _)))), rfl⟩, fun _ _ => not_finds_beyond, rfl,
    by decide⟩

end Snapshot

end Theme

end DesignTokens
