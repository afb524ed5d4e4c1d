import DesignTokens.Proofs.File.Saved

/-!
Actions that write last. Steps that only look at the workspace leave it as it is; where nothing but
such steps stands before the one that saves, a run that ends early has written nothing.
-/
namespace DesignTokens.Action

variable {α β : Type} {w : Workspace}

/-! ### Steps -/

theorem on_bind (x : Action α) (f : α → Action β) (p : Progress) :
    (x >>= f).on p = match x.on p with
      | (.ok a, q) => (f a).on q
      | (.error e, q) => (.error e, q) := by
  rcases h : x.on p with ⟨r, q⟩
  rw [on] at h
  rw [on, ExceptT.run_bind, StateT.run_bind, h]
  cases r <;> rfl

/-- In a workspace, an action leaves the workspace as it is and has this result. -/
def Yields (x : Action α) (w : Workspace) (r : Except Failure α) : Prop :=
  ∀ entries, ∃ entries', x.on ⟨w, entries⟩ = (r, ⟨w, entries'⟩)

theorem Yields.bind {x : Action α} {r : Except Failure α} (hx : x.Yields w r) {f : α → Action β}
    {g : α → Except Failure β} (hf : ∀ a, (f a).Yields w (g a)) : (x >>= f).Yields w (r >>= g) := by
  intro entries
  obtain ⟨entries', h⟩ := hx entries
  rw [on_bind, h]
  cases r with
  | error e => exact ⟨entries', rfl⟩
  | ok a => exact hf a entries'

end DesignTokens.Action

namespace DesignTokens

/-! ### Steps that save -/

/-- A value that cannot be saved: the file cannot be written, or an integer is too long. -/
def Workspace.Refuses (w : Workspace) (p : Path) (v : Json) : Prop :=
  v.overlong?.isSome ∨ ∃ f, w.saveJson p v = .error f

/-- How an action ends that makes the content of one file and writes it last of all. `Made` relates
its result to the file and the content. -/
inductive WritesLast {α : Type} (w : Workspace) (Made : α → Path → Json → Prop) :
    Except Failure α × Progress → Prop
  /-- There is no content to write, and the workspace is as it was. -/
  | stopped {f : Failure} {entries : List Log.Entry} (unmade : ∀ a p v, ¬ Made a p v) :
    WritesLast w Made (.error f, ⟨w, entries⟩)
  /-- The content cannot be written, and all files are as they were. -/
  | refused {a : α} {p : Path} {v : Json} {f : Failure} {q : Progress} (made : Made a p v)
    (refuses : w.Refuses p v) (files : q.workspace.files = w.files) :
    WritesLast w Made (.error f, q)
  /-- The content is written, and all other files are as they were. -/
  | written {a : α} {p : Path} {v : Json} {q : Progress} (made : Made a p v)
    (saves : w.Saves p v q.workspace) : WritesLast w Made (.ok a, q)

namespace WritesLast

variable {α β : Type} {w : Workspace} {Made Made' : α → Path → Json → Prop}

theorem congr {r : Except Failure α × Progress} (h : WritesLast w Made r)
    (hmade : ∀ a p v, Made a p v ↔ Made' a p v) : WritesLast w Made' r := by
  obtain rfl : Made = Made' := funext fun a => funext fun p => funext fun v => propext (hmade a p v)
  exact h

end WritesLast

namespace Action

variable {α β : Type} {w : Workspace}

end Action

end DesignTokens
