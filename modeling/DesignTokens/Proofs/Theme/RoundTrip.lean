import DesignTokens.Proofs.Theme.Scales
import DesignTokens.Project.Outputs

/-!
Snapshots that are written and read again. Each record is read from what it is written as, a shadow
under its own name, and so are the snapshots of builds from the content of their theme data files.
-/
namespace DesignTokens

open Json (Mismatch)

theorem ShadowLayer.ofJson_toJson (l : ShadowLayer) : ShadowLayer.ofJson l.toJson = .ok l := by
  obtain ⟨x, y, blur, spread, opacity, color, inset⟩ := l
  cases inset <;> rfl

theorem ShadowPreset.ofJson_toJson (p : ShadowPreset) :
    ShadowPreset.ofJson p.name p.toJson = .ok p := by
  obtain ⟨name, layers⟩ := p
  have hlayers := mapM_map_eq_ok layers fun l _ => ShadowLayer.ofJson_toJson l
  change ((layers.map ShadowLayer.toJson).mapM ShadowLayer.ofJson >>= fun layers =>
    .ok (⟨name, layers⟩ : ShadowPreset)) = _
  rw [hlayers]
  rfl

namespace Theme

variable {α : Type}

theorem readTable_mapValues (read : String → Json → Except Mismatch α) (write : α → Json)
    (t : Table α) (h : ∀ p ∈ t, read p.1 (write p.2) = .ok p.2) :
    readTable (.obj (Table.mapValues write t)) read = .ok t := by
  refine mapM_map_eq_ok t fun p hp => ?_
  simp only [h p hp]
  rfl

theorem readTable_floatsToJson (t : Table Float) :
    readTable (floatsToJson t) (fun _ v => v.toFloat) = .ok t :=
  readTable_mapValues _ _ t fun _ _ => rfl

theorem SpacingScale.ofJson_toJson (s : SpacingScale) : SpacingScale.ofJson s.toJson = .ok s := by
  obtain ⟨px, rem, scale⟩ := s
  change (readTable (floatsToJson scale) (fun _ v => v.toFloat) >>= fun scale =>
    .ok (⟨px, rem, scale⟩ : SpacingScale)) = _
  rw [readTable_floatsToJson]
  rfl

/-- Every shadow is named as its key. -/
def Scales.NamesShadows (s : Scales) : Prop := ∀ p ∈ s.shadows, p.2.name = p.1

theorem Scales.ofJson_toJson {s : Scales} (h : s.NamesShadows) :
    Scales.ofJson s.toJson = .ok s := by
  obtain ⟨spacing, borderRadius, fontSize, fontWeight, shadows⟩ := s
  have hweights := readTable_mapValues (fun _ v => v.toInt) Json.ofInt fontWeight
    fun _ _ => rfl
  have hshadows := readTable_mapValues ShadowPreset.ofJson ShadowPreset.toJson shadows
    fun p hp => by rw [← h p hp, ShadowPreset.ofJson_toJson]
  change (SpacingScale.ofJson spacing.toJson >>= fun spacing =>
    readTable (floatsToJson borderRadius) (fun _ v => v.toFloat) >>= fun borderRadius =>
    readTable (floatsToJson fontSize) (fun _ v => v.toFloat) >>= fun fontSize =>
    readTable (.obj (Table.mapValues Json.ofInt fontWeight)) (fun _ v => v.toInt) >>=
      fun fontWeight =>
    readTable (.obj (Table.mapValues ShadowPreset.toJson shadows)) ShadowPreset.ofJson >>=
      fun shadows => .ok (⟨spacing, borderRadius, fontSize, fontWeight, shadows⟩ : Scales)) = _
  rw [SpacingScale.ofJson_toJson, readTable_floatsToJson, readTable_floatsToJson, hweights,
    hshadows]
  rfl

theorem Snapshot.ofJson_artifact {s : Snapshot} (hf : s.framework.NamesShadows)
    (hc : s.computed.NamesShadows) (stamp : String) (ms : List OpacityModifier) :
    Snapshot.ofJson (s.artifact stamp ms) = .ok s := by
  obtain ⟨framework, computed, sources⟩ := s
  change (Scales.ofJson framework.toJson >>= fun framework => Scales.ofJson computed.toJson >>=
    fun computed => .ok (⟨framework, computed, sources⟩ : Snapshot)) = _
  rw [Scales.ofJson_toJson hf, Scales.ofJson_toJson hc]
  rfl

/-! ### The shadows of a build -/

theorem name_of_parseShadow {key raw : String} {root : Float} {p : ShadowPreset}
    (h : Css.parseShadow key raw root = some p) : p.name = key := by
  obtain ⟨layers, -, h⟩ := Option.bind_eq_some_iff.mp h
  split at h
  · cases h
  · obtain rfl := Option.some.inj h
    rfl

variable {spec : Spec} {props : Table String} {source : String}

theorem Spec.Yields.namesShadows {s : Scales} (h : spec.Yields props source s) :
    s.NamesShadows := by
  intro p hp
  obtain ⟨-, hshadow⟩ := mem_of_tabulate h.shadows hp
  obtain ⟨raw, -, hraw⟩ := Option.bind_eq_some_iff.mp (require_eq_ok hshadow)
  exact name_of_parseShadow hraw

theorem namesShadows_of_computed {base c : Scales} (h : spec.computed base props source = .ok c)
    (hbase : base.NamesShadows) : c.NamesShadows := by
  obtain ⟨spacing, -, rfl⟩ := computed_eq_ok h
  have hread : ∀ key raw preset, Css.parseShadow key raw spec.rootFontSize = some preset →
      preset.name = key :=
    fun _ _ _ => name_of_parseShadow
  exact forall_mem_override props spec.shadowLead
    (P := fun key (preset : ShadowPreset) => preset.name = key) hbase hread

theorem namesShadows_of_build {framework frameworkSource projectSource : String}
    {project : Option String} {s : Snapshot}
    (h : spec.build framework project frameworkSource projectSource = .ok s) :
    s.framework.NamesShadows ∧ s.computed.NamesShadows := by
  obtain ⟨hframework, hcomputed⟩ := build_eq_ok h
  have hbase := (yields_of_framework hframework).namesShadows
  refine ⟨hbase, ?_⟩
  rcases hcomputed with hsame | ⟨css, hcss⟩
  · rw [hsame]
    exact hbase
  · exact namesShadows_of_computed hcss hbase

end Theme

end DesignTokens
