import DesignTokens.Proofs.File.Saved
import DesignTokens.Proofs.Json.Characters
import DesignTokens.Proofs.Json.RoundTrip
import DesignTokens.Proofs.Theme.Regular

/-!
The text of theme data, and the files that hold it. The text is read as the data that it was written
for, if the snapshot comes from a build and all its numbers are finite; and from these data, once
they are in a file, the snapshot is loaded again.
-/
namespace DesignTokens

open Json (Writable)

theorem writable_mapValues {α : Type} {write : α → Json} {t : Table α}
    (hn : (Table.keys t).Nodup) (h : ∀ p ∈ t, Writable (write p.2)) :
    Writable (.obj (Table.mapValues write t)) := by
  refine .obj ?_ ?_
  · rwa [Table.keys, Table.mapValues, List.map_map]
  · intro p hp
    obtain ⟨q, hq, rfl⟩ := List.mem_map.mp hp
    exact h q hq

theorem ShadowLayer.writable {l : ShadowLayer} (hfloats : ∀ x ∈ l.floats, Decimal.isFinite x)
    (hcolor : ∃ text, l.color = .str text) : Writable l.toJson := by
  obtain ⟨x, y, blur, spread, opacity, color, inset⟩ := l
  obtain ⟨text, rfl⟩ := hcolor
  simp only [floats, List.forall_mem_cons] at hfloats
  cases inset <;> simp [toJson, Table.keys, hfloats]

theorem OpacityModifier.writable {m : OpacityModifier}
    (h : m.opacity < 10 ^ Decimal.integerDigitLimit) : Writable m.toJson := by
  have hopacity : Writable (.ofNat m.opacity) := Json.writable_ofInt_iff.mpr h
  simp [toJson, Table.keys, hopacity]

namespace Theme

theorem writable_floatsToJson {t : Table Float} (hn : (Table.keys t).Nodup)
    (h : ∀ p ∈ t, Decimal.isFinite p.2) : Writable (floatsToJson t) :=
  writable_mapValues hn fun p hp => Json.writable_ofFloat_iff.mpr (h p hp)

theorem Scales.Regular.writable {s : Scales} (h : s.Regular) (hfinite : s.Finite) :
    Writable s.toJson := by
  obtain ⟨hspacing, hradii, hsizes, hlayers⟩ := Scales.forall_mem_floats.mp hfinite
  obtain ⟨hpx, hrem, hscale⟩ := SpacingScale.forall_mem_floats.mp hspacing
  have hweights : Writable (.obj (Table.mapValues Json.ofInt s.fontWeight)) := by
    refine writable_mapValues h.fontWeight fun p hp => Json.writable_ofInt_iff.mpr ?_
    have hrange := h.weights p hp
    have hshort : p.2.natAbs < 10 ^ 4 := by omega
    exact hshort.trans_le (Nat.pow_le_pow_right (by decide) (by decide))
  have hshadows : Writable (.obj (Table.mapValues ShadowPreset.toJson s.shadows)) := by
    refine writable_mapValues h.shadows fun p hp => ?_
    have hall : ∀ l ∈ p.2.layers, Writable l.toJson :=
      fun l hl => l.writable (hlayers p hp l hl) (h.colors p hp l hl)
    simpa [ShadowPreset.toJson, Table.keys] using hall
  simp [Scales.toJson, SpacingScale.toJson, Table.keys, hpx, hrem,
    writable_floatsToJson h.scale hscale, writable_floatsToJson h.borderRadius hradii,
    writable_floatsToJson h.fontSize hsizes, hweights, hshadows]

/-- The data of a snapshot are read from their text, unless an opacity is too long to be written. -/
theorem read_artifact {s : Snapshot} (hframework : s.framework.Regular)
    (hcomputed : s.computed.Regular) (hfinite : s.framework.Finite ∧ s.computed.Finite)
    (hsources : ∀ v ∈ s.sources, ∃ text, v = .str text) (stamp : String)
    {ms : List OpacityModifier} (hms : ∀ m ∈ ms, m.opacity < 10 ^ Decimal.integerDigitLimit) :
    Json.read ((s.artifact stamp ms).pretty ++ "\n") = .ok (s.artifact stamp ms) := by
  have hlayers := And.intro (hframework.writable hfinite.1) (hcomputed.writable hfinite.2)
  have hstrings : ∀ v ∈ s.sources, Writable v := by
    intro v hv
    obtain ⟨text, rfl⟩ := hsources v hv
    exact .str text
  have hmodifiers : ∀ v ∈ ms.map OpacityModifier.toJson, Writable v :=
    List.forall_mem_map.mpr fun m hm => m.writable (hms m hm)
  refine Json.read_pretty ?_
  cases ms with
  | nil => simpa [Snapshot.artifact, Snapshot.layers, Table.keys, hlayers] using hstrings
  | cons m ms =>
    simpa [Snapshot.artifact, Snapshot.layers, Table.keys, hlayers] using
      And.intro hstrings hmodifiers

/-- The sources of a build are named by texts. -/
theorem sources_of_build {spec : Spec} {framework frameworkSource projectSource : String}
    {project : Option String} {s : Snapshot}
    (h : spec.build framework project frameworkSource projectSource = .ok s) :
    ∀ v ∈ s.sources, ∃ text, v = .str text := by
  obtain ⟨base, -, h⟩ := bind_eq_ok h
  split at h
  · obtain rfl := Except.ok.inj h
    exact List.forall_mem_singleton.mpr ⟨frameworkSource, rfl⟩
  · obtain ⟨scales, -, h⟩ := bind_eq_ok h
    obtain rfl := Except.ok.inj h
    exact List.forall_mem_cons.mpr ⟨⟨frameworkSource, rfl⟩,
      List.forall_mem_singleton.mpr ⟨projectSource, rfl⟩⟩

/-! ### Theme data files -/

/-- The snapshot of a build is loaded from the file that it is written to, whatever opacities stand
next to it, if JSON text is read as the value that it was written for. -/
theorem themeData_of_saveJson {spec : Spec} {framework frameworkSource projectSource : String}
    {project : Option String} {s : Snapshot}
    (hbuild : spec.build framework project frameworkSource projectSource = .ok s) (stamp : String)
    (ms : List OpacityModifier)
    (hjson : Json.read ((s.artifact stamp ms).pretty ++ "\n") = .ok (s.artifact stamp ms))
    {w w' : Workspace} {p : Path} (hsave : w.saveJson p (s.artifact stamp ms) = .ok w') :
    w'.themeData p = .ok s := by
  obtain ⟨hframework, hcomputed⟩ := namesShadows_of_build hbuild
  have htext : w'.text p = .ok ((s.artifact stamp ms).pretty ++ "\n") :=
    Workspace.text_of_save (mapError_eq_ok hsave) (Json.not_mem_pretty (by decide) _)
  have hread := Snapshot.ofJson_artifact hframework hcomputed stamp ms
  simp only [Workspace.themeData, htext, hjson, hread, Except.mapError, bind, Except.bind]

/-- A project for the framework with one token of each family. -/
def briefProject : String := "--text-xs: 0.7501rem;"

theorem finite_brief {project : Option String} (hproject : project ∈ [none, some briefProject])
    {s : Snapshot} (h : Spec.brief.build briefSheet project "framework" "project" = .ok s) :
    s.framework.Finite ∧ s.computed.Finite := by
  have hall : ∀ project ∈ [none, some briefProject],
      (Spec.brief.build briefSheet project "framework" "project").toOption.all
        fun s => s.framework.Finite ∧ s.computed.Finite := by decide +kernel
  have hfinite := hall project hproject
  rw [h] at hfinite
  exact of_decide_eq_true hfinite

/-- The inset layer and the odd font size come back from a file at the root. -/
theorem themeData_of_saveJson_brief :
    ∃ s w, Spec.brief.build briefSheet (some briefProject) "framework" "project" = .ok s ∧
      Json.read ((s.artifact "now" [⟨"primary", 20, "bg-primary/20"⟩]).pretty ++ "\n") =
        .ok (s.artifact "now" [⟨"primary", 20, "bg-primary/20"⟩]) ∧
      Workspace.saveJson ⟨⟨.root, []⟩, [], []⟩ ⟨.root, ["theme.json"]⟩
        (s.artifact "now" [⟨"primary", 20, "bg-primary/20"⟩]) = .ok w ∧
      w.themeData ⟨.root, ["theme.json"]⟩ = .ok s := by
  obtain ⟨s, hbuild⟩ := exists_build_brief (some briefProject)
  have hfixed : Spec.brief.FixedRegular := fixedRegular_default rfl
  obtain ⟨hframework, hcomputed⟩ := regular_of_build hfixed hbuild
  have hms : ∀ m ∈ [(⟨"primary", 20, "bg-primary/20"⟩ : OpacityModifier)],
      m.opacity < 10 ^ Decimal.integerDigitLimit := by
    have hpower : 10 ^ 2 ≤ 10 ^ Decimal.integerDigitLimit :=
      Nat.pow_le_pow_right (by decide) (by decide)
    exact List.forall_mem_singleton.mpr (lt_of_lt_of_le (by decide) hpower)
  have hread := read_artifact hframework hcomputed (finite_brief (by simp) hbuild)
    (sources_of_build hbuild) "now" hms
  have hsave : ∀ v, ∃ w, Workspace.saveJson ⟨⟨.root, []⟩, [], []⟩ ⟨.root, ["theme.json"]⟩ v =
      .ok w := fun _ => ⟨_, rfl⟩
  obtain ⟨w, hw⟩ := hsave (s.artifact "now" [⟨"primary", 20, "bg-primary/20"⟩])
  exact ⟨s, w, hbuild, hread, hw, themeData_of_saveJson hbuild "now" _ hread hw⟩

end Theme

end DesignTokens
