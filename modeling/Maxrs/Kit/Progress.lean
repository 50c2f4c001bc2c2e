import Maxrs.Kit.Automaton
set_option autoImplicit false

/-! What an automaton can be brought to by allowed steps alone. -/

namespace Automaton

variable {σ α : Type} {M : Automaton σ α} {ok : σ → α → Prop} {s t : σ} {P Q I : σ → Prop}

def CanReach (M : Automaton σ α) (ok : σ → α → Prop) (s : σ) (P : σ → Prop) : Prop :=
  ∃ t, M.Path ok s t ∧ P t

theorem CanReach.here (h : P s) : M.CanReach ok s P := ⟨s, .refl, h⟩

theorem CanReach.path (hp : M.Path ok s t) (h : M.CanReach ok t P) : M.CanReach ok s P := by
  obtain ⟨u, hu, hP⟩ := h
  exact ⟨u, hp.trans hu, hP⟩

theorem CanReach.step {a : α} (hok : ok s a) (hs : M.step s a = some t)
    (h : M.CanReach ok t P) : M.CanReach ok s P := h.path (.single hok hs)

theorem CanReach.mono (h : M.CanReach ok s P) (hpq : ∀ t, P t → Q t) : M.CanReach ok s Q := by
  obtain ⟨t, hp, hP⟩ := h
  exact ⟨t, hp, hpq t hP⟩

theorem CanReach.weaken {ok' : σ → α → Prop} (h : M.CanReach ok s P)
    (hw : ∀ s a, ok s a → ok' s a) : M.CanReach ok' s P := by
  obtain ⟨t, hp, hP⟩ := h
  exact ⟨t, hp.weaken hw, hP⟩

theorem CanReach.bind (h : M.CanReach ok s P)
    (hq : ∀ t, M.Path ok s t → P t → M.CanReach ok t Q) : M.CanReach ok s Q := by
  obtain ⟨t, hp, hP⟩ := h
  exact (hq t hp hP).path hp

/-- What some allowed step can always bring down ends. -/
theorem CanReach.of_measure (m : σ → Nat)
    (hstep : ∀ s, I s → P s ∨ ∃ a t, ok s a ∧ M.step s a = some t ∧ I t ∧ m t < m s) (hs : I s) :
    M.CanReach ok s P := by
  induction hn : m s using Nat.strong_induction_on generalizing s with
  | _ n ih =>
    rcases hstep s hs with hP | ⟨a, t, hok, ht, hI, hlt⟩
    · exact .here hP
    · exact .step hok ht (ih (m t) (hn ▸ hlt) hI rfl)

/-- Things that can each be done, and stay done, can all be done. -/
theorem CanReach.all_below {D : Nat → σ → Prop}
    (hI : ∀ s t, M.Path ok s t → I s → I t)
    (hstays : ∀ i s t, I s → M.Path ok s t → D i s → D i t)
    (hone : ∀ i s, I s → M.CanReach ok s (D i)) (n : Nat) (hs : I s) :
    M.CanReach ok s fun t => ∀ i, i < n → D i t := by
  induction n with
  | zero => exact .here fun i hi => absurd hi (Nat.not_lt_zero i)
  | succ n ih =>
    refine ih.bind fun t hp hall => ?_
    have ht : I t := hI s t hp hs
    obtain ⟨u, hu, hn⟩ := hone n t ht
    refine ⟨u, hu, fun i hi => ?_⟩
    rcases Nat.lt_succ_iff_lt_or_eq.mp hi with hlt | rfl
    · exact hstays i t u ht hu (hall i hlt)
    · exact hn

end Automaton
