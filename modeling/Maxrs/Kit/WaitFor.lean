import Mathlib.Logic.Relation
set_option autoImplicit false

/-! Wait-for graphs: who waits for whom, and when every chain of waiting comes to an end. -/

namespace WaitFor

variable {τ : Type} {Waits : τ → τ → Prop} {Free : τ → Prop} {p q : τ}

/-- No cycle, no endless chain, and who stands at the end of a chain is free to go on. -/
structure DeadlockFree (Waits : τ → τ → Prop) (Free : τ → Prop) : Prop where
  acyclic : ∀ p, ¬ Relation.TransGen Waits p p
  finite : WellFounded fun q p => Waits p q
  ends : ∀ p q, Relation.TransGen Waits p q → (∀ x, ¬ Waits q x) → Free q

theorem rank_lt {rank : τ → Nat} (hrank : ∀ p q, Waits p q → rank q < rank p)
    (h : Relation.TransGen Waits p q) : rank q < rank p := by
  induction h with
  | single h => exact hrank _ _ h
  | tail _ h ih => exact Nat.lt_trans (hrank _ _ h) ih

/-- The lock-order rule: whoever is waited for waits, if at all, at a lower rank. -/
theorem DeadlockFree.of_rank (rank : τ → Nat) (hrank : ∀ p q, Waits p q → rank q < rank p)
    (hends : ∀ p q, Waits p q → (∀ x, ¬ Waits q x) → Free q) : DeadlockFree Waits Free where
  acyclic := fun p h => Nat.lt_irrefl _ (rank_lt hrank h)
  finite := Subrelation.wf (fun {q p} h => hrank p q h) (measure rank).wf
  ends := fun p q h hq => by
    cases h with
    | single h => exact hends p q h hq
    | tail _ h => exact hends _ q h hq

end WaitFor
