import DesignTokens.Proofs.Registry.Accepted

/-!
Loading entry by entry. A registry loads if each of its entries loads as a registry of its own, and
gives the same components. If it does not, the fault is that of one entry: the first that fails the
schema, or else the first that claims a name under which it does not stand.
-/
namespace DesignTokens.Registry

/-! ### Single entries -/

/-- The entry has the declared form. -/
def FitsSchema (p : String × Json) : Prop := ∃ e, ComponentEntry.ofJson p.2 = .valid e

/-- The entry claims a name under which it does not stand. -/
def Misnamed (p : String × Json) : Prop :=
  ∃ fields name, p.2 = .obj fields ∧ Table.get? "name" fields = some (.str name) ∧ name ≠ p.1

/-- The component that a fault is about. -/
def Fault.component? : Fault → Option String
  | .invalid first _ => first.place.1
  | .misnamed key _ => some key
  | _ => none

variable {source : String} {p : String × Json} {c : String × Component} {entries : Table Json}
  {r : Registry}

theorem failure?_named {e : ComponentEntry} (h : ComponentEntry.ofJson p.2 = .valid e) :
    failure? (named (p.1, e)) = none ↔ ¬ Misnamed p := by
  have hmisnamed : Misnamed p ↔ ∃ name, e.name = some name ∧ name ≠ p.1 := by
    obtain ⟨fields, hfields, hread⟩ := ComponentEntry.ofJson_eq_valid.mp h
    have hname := Checked.eq_some_iff_of_nullable (fun _ _ => Checked.text_eq_valid)
      (fun _ => by simp) hread.name
    simp [Misnamed, hfields, hname]
  rw [hmisnamed, named]
  cases e.name with
  | none => simp
  | some name => by_cases hname : name = p.1 <;> simp [hname]

theorem exists_loads_iff : (∃ c, Loads p c) ↔ FitsSchema p ∧ ¬ Misnamed p := by
  constructor
  · rintro ⟨c, e, he, hnamed⟩
    refine ⟨⟨e, he⟩, (failure?_named he).mp ?_⟩
    rw [hnamed, failure?_ok]
  · rintro ⟨⟨e, he⟩, hname⟩
    obtain ⟨c, hc⟩ := failure?_eq_none_iff.mp ((failure?_named he).mpr hname)
    exact ⟨c, e, he, hc⟩

/-! ### Registries -/

/-- Without a name for the components, the members of an object are the entries. -/
theorem ofJson_eq_ofEntries (h : Table.get? "components" entries = none) :
    ofJson source (.obj entries) = ofEntries source entries := by
  rw [ofJson, h]

theorem ofEntries_singleton_eq_ok_iff :
    ofEntries source [p] = .ok ⟨[c], source⟩ ↔ Loads p c := by
  rw [ofEntries_eq_ok_iff]
  simp

theorem exists_ofEntries_iff :
    (∃ r, ofEntries source entries = .ok r) ↔ ∀ p ∈ entries, ∃ c, Loads p c := by
  rw [← exists_forall₂_iff]
  constructor
  · rintro ⟨r, hr⟩
    exact ⟨r.components, (ofEntries_eq_ok_iff.mp hr).1⟩
  · rintro ⟨components, hcomponents⟩
    exact ⟨⟨components, source⟩, ofEntries_eq_ok_iff.mpr ⟨hcomponents, rfl⟩⟩

/-- What a fault says names the component that it is about. -/
theorem Fault.diagnostic?_of_component? {f : Fault} {k : String} (h : f.component? = some k) :
    ∃ message prop suggestion,
      f.diagnostic? source = some (.registry message (some k) prop source suggestion) := by
  cases f with
  | invalid first more =>
    rcases hplace : first.place with ⟨component, prop, rest⟩
    rw [component?, hplace] at h
    obtain rfl : component = some k := h
    rw [diagnostic?, hplace]
    exact ⟨_, prop, none, rfl⟩
  | misnamed key name =>
    obtain rfl := Option.some.inj h
    exact ⟨_, none, _, rfl⟩
  | _ => cases h

theorem Problem.place_of_path {p : Problem} {k : String} {path : List String}
    (h : p.path = k :: path) : p.place.1 = some k := by
  rw [place, h]
  split <;> simp_all

theorem component?_of_named {q : String × ComponentEntry} {f : Fault} (h : named q = .error f) :
    f.component? = some q.1 := by
  rw [named] at h
  split at h
  · split at h
    · cases h
    · obtain rfl := Except.error.inj h
      rfl
  · cases h

/-- The fault is that of the first entry that fails the schema, or else of the first misnamed one. -/
theorem ofEntries_eq_error {f : Fault} (h : ofEntries source entries = .error f) :
    ∃ before p after, entries = before ++ p :: after ∧ f.component? = some p.1 ∧
      ((¬ FitsSchema p ∧ ∀ q ∈ before, FitsSchema q) ∨
        ((∀ q ∈ entries, FitsSchema q) ∧ Misnamed p ∧ ∀ q ∈ before, ¬ Misnamed q)) := by
  rw [ofEntries] at h
  split at h
  · rename_i first more hinvalid
    obtain rfl := Except.error.inj h
    obtain ⟨before, p, after, hentries, ⟨path, hpath⟩, hp, hbefore⟩ :=
      Checked.tableOf_eq_invalid hinvalid
    refine ⟨before, p, after, hentries, ?_, .inl ⟨hp, hbefore⟩⟩
    rw [Fault.component?, Problem.place_of_path hpath]
  · rename_i checked hchecked
    obtain ⟨_, hfields, hall⟩ := Checked.tableOf_eq_valid.mp hchecked
    obtain rfl := Json.obj.inj hfields
    have hfit : ∀ q ∈ entries, FitsSchema q := by
      intro q hq
      obtain ⟨e, -, -, he⟩ := exists_right_of_forall₂ hall hq
      exact ⟨e.2, he⟩
    have hfailure := failure?_eq_some_iff.mpr h
    rw [failure?_bind_pure, failure?_mapM, List.findSome?_eq_some_iff] at hfailure
    obtain ⟨named₁, q, named₂, rfl, hq, hbefore⟩ := hfailure
    obtain ⟨before, rest, rfl, hall₁, hall₂⟩ := forall₂_append_right hall
    obtain ⟨p, after, ⟨hkey, he⟩, -, rfl⟩ := List.forall₂_cons_right_iff.mp hall₂
    obtain ⟨k, e⟩ := q
    obtain rfl : k = p.1 := hkey
    refine ⟨before, p, after, rfl, component?_of_named (failure?_eq_some_iff.mp hq),
      .inr ⟨hfit, ?_, ?_⟩⟩
    · by_contra hnot
      rw [(failure?_named he).mpr hnot] at hq
      cases hq
    · intro q hq
      obtain ⟨⟨k, e⟩, hmem, hkey, he⟩ := exists_right_of_forall₂ hall₁ hq
      obtain rfl : k = q.1 := hkey
      exact (failure?_named he).mp (hbefore _ hmem)

/-- A registry loads as its entries do, each as a registry of its own: all of them have to, the
components are theirs, and a fault is about the first entry that fails the schema or else about the
first that claims another name. -/
theorem ofJson_by_entries (h : Table.get? "components" entries = none) :
    ((∃ r, ofJson source (.obj entries) = .ok r) ↔
      ∀ p ∈ entries, ∃ r, ofJson source (.obj [p]) = .ok r) ∧
    (∀ r, ofJson source (.obj entries) = .ok r → r.names = Table.keys entries ∧
      List.Forall₂ (fun p c => ofJson source (.obj [p]) = .ok ⟨[c], source⟩) entries r.components) ∧
    ∀ f, ofJson source (.obj entries) = .error f →
      ∃ before p after, entries = before ++ p :: after ∧
        f.component? = some p.1 ∧
        (∃ message prop suggestion,
          f.diagnostic? source = some (.registry message (some p.1) prop source suggestion)) ∧
        (∃ f', ofJson source (.obj [p]) = .error f') ∧
        ((¬ FitsSchema p ∧ ∀ q ∈ before, FitsSchema q) ∨
          ((∀ q ∈ entries, FitsSchema q) ∧ Misnamed p ∧ ∀ q ∈ before, ¬ Misnamed q)) := by
  have hsingle : ∀ p ∈ entries, ofJson source (.obj [p]) = ofEntries source [p] := by
    intro p hp
    refine ofJson_eq_ofEntries (Table.get?_eq_none_iff.mpr fun hkey => ?_)
    have hname : "components" = p.1 := by simpa [Table.keys] using hkey
    exact Table.get?_eq_none_iff.mp h (hname ▸ List.mem_map_of_mem hp)
  rw [ofJson_eq_ofEntries h]
  refine ⟨?_, ?_, ?_⟩
  · rw [exists_ofEntries_iff]
    refine forall₂_congr fun p hp => ?_
    rw [hsingle p hp, exists_ofEntries_iff, List.forall_mem_singleton]
  · intro r hr
    obtain ⟨hall, -⟩ := ofEntries_eq_ok_iff.mp hr
    have hnames : Table.Related (fun _ _ => True) entries r.components :=
      hall.imp fun _ _ hp => ⟨hp.key_eq, trivial⟩
    refine ⟨hnames.keys_eq, ((List.forall₂_and_left _ _).mpr ⟨hsingle, hall⟩).imp ?_⟩
    rintro p c ⟨hp, hc⟩
    rw [hp, ofEntries_singleton_eq_ok_iff.mpr hc]
  · intro f hf
    obtain ⟨before, p, after, hentries, hcomponent, hwhy⟩ := ofEntries_eq_error hf
    have hp : p ∈ entries := by simp [hentries]
    refine ⟨before, p, after, hentries, hcomponent, Fault.diagnostic?_of_component? hcomponent, ?_,
      hwhy⟩
    rw [hsingle p hp]
    cases hr : ofEntries source [p] with
    | error f' => exact ⟨f', rfl⟩
    | ok r =>
      obtain ⟨hfits, hname⟩ := exists_loads_iff.mp
        (exists_ofEntries_iff.mp ⟨r, hr⟩ p (List.mem_singleton_self p))
      rcases hwhy with ⟨hunfit, -⟩ | ⟨-, hmisnamed, -⟩
      · exact absurd hfits hunfit
      · exact absurd hmisnamed hname

/-- A sound entry, one that claims the name of another, and one that is no object. -/
def faultyEntries : Table Json :=
  [("Tag", .obj [("description", .str ""), ("category", .str "")]),
    ("Box", .obj [("name", .str "Tag"), ("description", .str ""), ("category", .str "")]),
    ("Icon", .null)]

/-- The fault of the schema comes first, although the misnamed entry stands before it. -/
theorem ofJson_faultyEntries : ∃ f v, Table.get? "components" faultyEntries = none ∧
    ofJson "" (.obj faultyEntries) = .error f ∧ f.component? = some "Icon" ∧
    ("Icon", v) ∈ faultyEntries ∧ ∃ f', ofJson "" (.obj [("Icon", v)]) = .error f' := by
  have hcomponents : Table.get? "components" faultyEntries = none := by decide
  have hload : ofJson "" (.obj faultyEntries) =
      .error (.invalid ⟨["Icon"], .notEntry .component⟩ 0) := by
    with_unfolding_all rfl
  obtain ⟨before, ⟨k, v⟩, after, hentries, hcomponent, -, hsingle, -⟩ :=
    (ofJson_by_entries hcomponents).2.2 _ hload
  obtain rfl : "Icon" = k := Option.some.inj hcomponent
  exact ⟨_, v, hcomponents, hload, hcomponent, by simp [hentries], hsingle⟩

end DesignTokens.Registry
