import Mathlib.Data.List.Induction
import Mathlib.Tactic.Ring
set_option autoImplicit false

/-! Labelled automata with executable steps, and the induction rules for their runs.
Nothing here depends on the program that is modelled. -/

/-- A step either is not enabled (`none`) or leads to exactly one state; the label
resolves every choice of the scheduler and of the environment. -/
structure Automaton (σ α : Type) where
  init : σ → Prop
  step : σ → α → Option σ

namespace Automaton

variable {σ τ α β : Type}

/-- Runs all of whose steps satisfy `ok`, a condition on the label and the state before it. -/
inductive Path (M : Automaton σ α) (ok : σ → α → Prop) : σ → σ → Prop where
  | refl {s : σ} : Path M ok s s
  | tail {s t u : σ} {a : α} : Path M ok s t → ok t a → M.step t a = some u → Path M ok s u

abbrev Leads (M : Automaton σ α) (s t : σ) : Prop := M.Path (fun _ _ => True) s t

def ReachableBy (M : Automaton σ α) (ok : σ → α → Prop) (t : σ) : Prop :=
  ∃ s, M.init s ∧ M.Path ok s t

abbrev Reachable (M : Automaton σ α) (t : σ) : Prop := M.ReachableBy (fun _ _ => True) t

def exec (M : Automaton σ α) : σ → List α → Option σ
  | s, [] => some s
  | s, a :: as => (M.step s a).bind fun t => M.exec t as

variable {M : Automaton σ α} {ok ok' : σ → α → Prop} {s t u : σ}

theorem exec_cons {a : α} {as : List α} (h : M.step s a = some t) :
    M.exec s (a :: as) = M.exec t as := by
  rw [exec, h, Option.bind_some]

theorem Path.trans (h : M.Path ok s t) (h' : M.Path ok t u) : M.Path ok s u := by
  induction h' with
  | refl => exact h
  | tail _ hok hs ih => exact .tail ih hok hs

theorem Path.single {a : α} (hok : ok s a) (h : M.step s a = some t) : M.Path ok s t :=
  .tail .refl hok h

theorem Path.weaken (hw : ∀ s a, ok s a → ok' s a) (h : M.Path ok s t) : M.Path ok' s t := by
  induction h with
  | refl => exact .refl
  | tail _ hok hs ih => exact .tail ih (hw _ _ hok) hs

theorem Path.leads (h : M.Path ok s t) : M.Leads s t := h.weaken fun _ _ _ => trivial

theorem ReachableBy.reachable (h : M.ReachableBy ok t) : M.Reachable t := by
  obtain ⟨s, hi, hp⟩ := h
  exact ⟨s, hi, hp.leads⟩

theorem ReachableBy.init (h : M.init s) : M.ReachableBy ok s := ⟨s, h, .refl⟩

theorem ReachableBy.path (h : M.ReachableBy ok s) (hp : M.Path ok s t) : M.ReachableBy ok t := by
  obtain ⟨r, hi, hr⟩ := h
  exact ⟨r, hi, hr.trans hp⟩

theorem ReachableBy.tail {a : α} (h : M.ReachableBy ok s) (hok : ok s a)
    (hs : M.step s a = some t) : M.ReachableBy ok t := h.path (.single hok hs)

theorem Reachable.tail {a : α} (h : M.Reachable s) (hs : M.step s a = some t) :
    M.Reachable t := ReachableBy.tail h trivial hs

theorem Path.preserves {I : σ → Prop} (h : M.Path ok s t)
    (hstep : ∀ s a t, ok s a → M.step s a = some t → I s → I t) (hs : I s) : I t := by
  induction h with
  | refl => exact hs
  | tail _ hok hs ih => exact hstep _ _ _ hok hs ih

/-- A reflexive and transitive relation between the ends of every step relates the ends
of every run. -/
theorem Path.relates {R : σ → σ → Prop} (h : M.Path ok s t) (hrefl : ∀ s, R s s)
    (htrans : ∀ {s t u}, R s t → R t u → R s u)
    (hstep : ∀ s a t, ok s a → M.step s a = some t → R s t) : R s t := by
  induction h with
  | refl => exact hrefl _
  | tail _ hok hs ih => exact htrans ih (hstep _ _ _ hok hs)

/-- The invariant rule. -/
theorem ReachableBy.invariant {I : σ → Prop} (h : M.ReachableBy ok t)
    (hinit : ∀ s, M.init s → I s)
    (hstep : ∀ s a t, ok s a → M.step s a = some t → I s → I t) : I t := by
  obtain ⟨s, hi, hp⟩ := h
  exact hp.preserves hstep (hinit s hi)

/-- The invariant rule with facts already known of reachable states. -/
theorem ReachableBy.invariant_of {I : σ → Prop} (h : M.ReachableBy ok t)
    (hinit : ∀ s, M.init s → I s)
    (hstep : ∀ s a t, M.ReachableBy ok s → ok s a → M.step s a = some t → I s → I t) : I t := by
  obtain ⟨s, hi, hp⟩ := h
  have hboth : M.ReachableBy ok t ∧ I t := by
    induction hp with
    | refl => exact ⟨.init hi, hinit _ hi⟩
    | tail _ hok hs ih => exact ⟨ih.1.tail hok hs, hstep _ _ _ ih.1 hok hs ih.2⟩
  exact hboth.2

theorem Reachable.invariant {I : σ → Prop} (h : M.Reachable t) (hinit : ∀ s, M.init s → I s)
    (hstep : ∀ s a t, M.step s a = some t → I s → I t) : I t :=
  ReachableBy.invariant h hinit fun s a t _ hs => hstep s a t hs

theorem Reachable.invariant_of {I : σ → Prop} (h : M.Reachable t)
    (hinit : ∀ s, M.init s → I s)
    (hstep : ∀ s a t, M.Reachable s → M.step s a = some t → I s → I t) : I t :=
  ReachableBy.invariant_of h hinit fun s a t hr _ hs => hstep s a t hr hs

/-- A function under which every step of `M` is a run of `N` (often one step or none). -/
structure Simulation (M : Automaton σ α) (N : Automaton τ β) (f : σ → τ) : Prop where
  init : ∀ s, M.init s → N.init (f s)
  step : ∀ s a t, M.Reachable s → M.step s a = some t → N.Leads (f s) (f t)

theorem Simulation.leads {N : Automaton τ β} {f : σ → τ} (h : Simulation M N f)
    (hs : M.Reachable s) (hp : M.Leads s t) : N.Leads (f s) (f t) := by
  induction hp with
  | refl => exact .refl
  | tail hp _ hstep ih => exact ih.trans (h.step _ _ _ (hs.path hp) hstep)

theorem Simulation.reachable {N : Automaton τ β} {f : σ → τ} (h : Simulation M N f)
    (hs : M.Reachable s) : N.Reachable (f s) := by
  obtain ⟨r, hi, hp⟩ := hs
  exact ⟨f r, h.init r hi, h.leads (.init hi) hp⟩

theorem exec_leads {as : List α} (h : M.exec s as = some t) : M.Leads s t := by
  induction as generalizing s with
  | nil =>
    simp only [exec, Option.some.injEq] at h
    exact h ▸ .refl
  | cons a as ih =>
    simp only [exec, Option.bind_eq_some_iff] at h
    obtain ⟨u, hu, hrest⟩ := h
    exact (Path.single trivial hu).trans (ih hrest)

def execWhile (M : Automaton σ α) (p : σ → α → Bool) : σ → List α → Option σ
  | s, [] => some s
  | s, a :: as => if p s a then (M.step s a).bind fun t => M.execWhile p t as else none

theorem execWhile_path {p : σ → α → Bool} {as : List α} (hp : ∀ s a, p s a = true → ok s a)
    (h : M.execWhile p s as = some t) : M.Path ok s t := by
  induction as generalizing s with
  | nil =>
    simp only [execWhile, Option.some.injEq] at h
    exact h ▸ .refl
  | cons a as ih =>
    simp only [execWhile, Option.ite_none_right_eq_some, Option.bind_eq_some_iff] at h
    obtain ⟨hpa, u, hu, hrest⟩ := h
    exact (Path.single (hp s a hpa) hu).trans (ih hrest)

theorem leads_get {as : List α} {h : (M.exec s as).isSome} :
    M.Leads s ((M.exec s as).get h) := exec_leads (Option.some_get h).symm

theorem reachable_get {as : List α} {h : (M.exec s as).isSome} (hi : M.init s) :
    M.Reachable ((M.exec s as).get h) := ⟨s, hi, leads_get⟩

end Automaton
