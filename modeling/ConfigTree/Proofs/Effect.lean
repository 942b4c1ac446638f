import ConfigTree.Effect
import Mathlib.Order.Defs.Unbundled
import Mathlib.Tactic.Common

/-!
# Running effects

What the primitive effects do to the surroundings, and how a relation between the surroundings
before and after passes from the parts of an effect to the whole.

Main results:
  * `Keeps.bind` — a preorder that both parts of an effect keep is kept by their sequence.
-/

namespace ConfigTree

namespace Effect

variable {α β : Type}

/-! ## §1. The primitive effects. -/

@[simp] theorem run_pure (a : α) (w : Surroundings) : (pure a : Effect α).run w = (a, w) := rfl

@[simp] theorem run_bind (e : Effect α) (f : α → Effect β) (w : Surroundings) :
    (e >>= f).run w = (f (e.run w).1).run (e.run w).2 := rfl

@[simp] theorem run_map (f : α → β) (e : Effect α) (w : Surroundings) :
    (f <$> e).run w = (f (e.run w).1, (e.run w).2) := rfl

@[simp] theorem run_store (w : Surroundings) : store.run w = (w.store, w) := rfl

/-! ## §2. Relations that effects keep. -/

/-- Whatever the surroundings, those after the effect `e` are related by `R` to those before. -/
def Keeps (R : Surroundings → Surroundings → Prop) (e : Effect α) : Prop :=
  ∀ w, R w (e.run w).2

variable {R : Surroundings → Surroundings → Prop}

theorem Keeps.pure [IsPreorder Surroundings R] (a : α) : Keeps R (pure a : Effect α) :=
  fun w => refl w

theorem Keeps.bind [IsPreorder Surroundings R] {e : Effect α} {f : α → Effect β}
    (he : Keeps R e) (hf : ∀ a, Keeps R (f a)) : Keeps R (e >>= f) :=
  fun w => IsTrans.trans _ _ _ (he w) (hf (e.run w).1 (e.run w).2)

theorem Keeps.map {e : Effect α} (he : Keeps R e) (f : α → β) : Keeps R (f <$> e) :=
  fun w => he w

end Effect

namespace Surroundings

/-! ## §3. Parts of changed surroundings. -/

variable (w : Surroundings)

@[simp] theorem store_withStore (s : Store) : (w.withStore s).store = s := rfl

end Surroundings

end ConfigTree
