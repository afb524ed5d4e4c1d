import DesignTokens.Project.Logged

/-!
What computations ensure of their results. Nothing is said of what they log, nor of those that fail.
-/
namespace DesignTokens.Logged

variable {α β : Type} {P : α → Prop} {Q : β → Prop}

/-- Whatever has been logged, what the computation yields satisfies `P`. -/
def Ensures (l : Logged α) (P : α → Prop) : Prop :=
  ∀ entries a entries', (ExceptT.run l).run entries = (.ok a, entries') → P a

theorem Ensures.outcome {l : Logged α} (h : l.Ensures P) {a : α} (ha : l.outcome.1 = .ok a) :
    P a :=
  h [] a _ (Prod.ext ha rfl)

theorem ensures_pure {a : α} (h : P a) : Ensures (pure a) P := by
  intro entries b entries' hb
  obtain rfl : a = b := Except.ok.inj (Prod.mk.inj hb).1
  exact h

theorem ensures_ofExcept {ε : Type} {r : Except ε α} (failure : ε → Failure)
    (h : ∀ a, r = .ok a → P a) : Ensures (ofExcept failure r) P := by
  cases r with
  | ok a => exact ensures_pure (h a rfl)
  | error e =>
    intro entries a entries' ha
    cases (Prod.mk.inj ha).1

theorem Ensures.bind {l : Logged α} {f : α → Logged β} (hl : l.Ensures P)
    (hf : ∀ a, P a → (f a).Ensures Q) : Ensures (l >>= f) Q := by
  intro entries b entries' hb
  rw [ExceptT.run_bind, StateT.run_bind] at hb
  rcases hrun : (ExceptT.run l).run entries with ⟨_ | a, entries₁⟩
  · rw [hrun] at hb
    cases (Prod.mk.inj hb).1
  · rw [hrun] at hb
    exact hf a (hl _ _ _ hrun) _ _ _ hb

/-- Each step of a run ensures the same of its result. -/
theorem ensures_mapM {f : α → Logged β} {xs : List α} (h : ∀ x ∈ xs, (f x).Ensures Q) :
    Ensures (xs.mapM f) fun bs => ∀ b ∈ bs, Q b := by
  induction xs with
  | nil => exact ensures_pure (List.forall_mem_nil _)
  | cons x xs ih =>
    obtain ⟨hx, hxs⟩ := List.forall_mem_cons.mp h
    rw [List.mapM_cons]
    exact hx.bind fun b hb => (ih hxs).bind fun bs hbs =>
      ensures_pure (List.forall_mem_cons.mpr ⟨hb, hbs⟩)

end DesignTokens.Logged
