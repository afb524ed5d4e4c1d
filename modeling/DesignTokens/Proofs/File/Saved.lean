import DesignTokens.File.Workspace
import DesignTokens.Project.Outputs
import DesignTokens.Proofs.Results
import DesignTokens.Proofs.Text.Encoding

/-!
Files that are written and read again. Writing changes no folder, so a path leads to the same place
before and after, and what stands there afterwards is what was written. A folder that is made
changes no file, and a file that is written changes no other one.
-/
namespace DesignTokens.Workspace

variable {w w' : Workspace} {p q : Path}

theorem lookup_put (q : Path) (bytes : Text.Bytes) (files : List (Path × Text.Bytes)) :
    (put q bytes files).lookup q = some bytes := by
  rw [put]
  split
  · rename_i h
    induction files with
    | nil => simp at h
    | cons f files ih =>
      obtain ⟨r, old⟩ := f
      by_cases hr : r = q
      · simp [hr]
      · have hq : (q == r) = false := beq_eq_false_iff_ne.mpr (Ne.symm hr)
        simp only [List.lookup_cons, hq] at h
        simpa [hr, List.lookup_cons, hq] using ih h
  · rename_i h
    have hnone : files.lookup q = none := Option.not_isSome_iff_eq_none.mp h
    simp [List.lookup_append, hnone]

/-- Only folders matter to a path that leads somewhere. -/
theorem walk_eq_ok {start : Path} {parts : List String} (hhere : w'.here = w.here)
    (hfolders : w'.folders = w.folders) (h : w.walk start parts = .ok q) :
    w'.walk start parts = .ok q := by
  induction parts generalizing start with
  | nil => exact h
  | cons part parts ih =>
    have hsame : w'.hasFolder start = w.hasFolder start := by
      rw [hasFolder, hasFolder, hhere, hfolders]
    rw [walk] at h ⊢
    rw [hsame]
    split at h
    · rename_i hfolder
      rw [if_pos hfolder, ih h]
    · cases h

theorem bytes_of_write {bytes : Text.Bytes} (h : w.write p bytes = .ok w') :
    w'.bytes p = .ok bytes := by
  obtain ⟨q, hq, h⟩ := bind_eq_ok h
  split at h
  · cases h
  · obtain rfl := Except.ok.inj h
    have hplace : locate { w with files := put q bytes w.files } p = .ok q :=
      walk_eq_ok (w := w) rfl rfl hq
    have hcontents : contents? { w with files := put q bytes w.files } q = some bytes :=
      lookup_put q bytes w.files
    rw [Workspace.bytes, hplace, bind_ok, hcontents]
    rfl

/-- A text without carriage returns is read from its bytes. -/
theorem text_of_bytes {s : String} (h : w.bytes p = .ok (Text.encodeUtf8 s))
    (hs : '\r' ∉ s.toList) : w.text p = .ok s := by
  rw [text, h, bind_ok, Text.decodeUtf8_encodeUtf8]
  simp only [Text.unifyBreaks_of_not_mem hs, String.ofList_toList]
  rfl

/-- A text without carriage returns is read back from the file it is saved in. -/
theorem text_of_save {s : String} (h : w.save p s = .ok w') (hs : '\r' ∉ s.toList) :
    w'.text p = .ok s := by
  obtain ⟨w₁, -, hwrite⟩ := bind_eq_ok h
  exact text_of_bytes (bytes_of_write hwrite) hs

/-! ### What writing leaves alone -/

/-- A file has been written that holds the text of a value, and all other files are as they were. -/
structure Saves (w : Workspace) (p : Path) (v : Json) (w' : Workspace) : Prop where
  bytes : w'.bytes p = .ok (Text.encodeUtf8 (v.pretty ++ "\n"))
  others : ∀ q, w'.locate p ≠ .ok q → w'.contents? q = w.contents? q

end DesignTokens.Workspace
