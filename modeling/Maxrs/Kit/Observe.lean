import Maxrs.Kit.Automaton
set_option autoImplicit false

/-! Runs as lists of labels, and what an observer of their steps writes down. -/

namespace Automaton

variable {σ α β : Type} {M : Automaton σ α} {s t u : σ}

theorem exec_append (M : Automaton σ α) (s : σ) (as bs : List α) :
    M.exec s (as ++ bs) = (M.exec s as).bind fun t => M.exec t bs := by
  induction as generalizing s with
  | nil => simp [exec]
  | cons a as ih =>
    simp only [List.cons_append, exec, ih, Option.bind_assoc]

theorem exec_snoc {as : List α} {a : α} :
    M.exec s (as ++ [a]) = some u ↔ ∃ t, M.exec s as = some t ∧ M.step t a = some u := by
  simp [exec_append, exec, Option.bind_eq_some_iff]

/-- The invariant rule for a property of the state and of the labels that led to it. -/
theorem exec_invariant {I : List α → σ → Prop} {as : List α} (h : M.exec s as = some t)
    (hinit : I [] s)
    (hstep : ∀ as a t u, M.exec s as = some t → M.step t a = some u → I as t → I (as ++ [a]) u) :
    I as t := by
  induction as using List.reverseRecOn generalizing t with
  | nil =>
    simp only [exec, Option.some.injEq] at h
    exact h ▸ hinit
  | append_singleton as a ih =>
    obtain ⟨r, hr, hs⟩ := exec_snoc.mp h
    exact hstep as a r t hr hs (ih hr)

theorem Reachable.exec {as : List α} (hs : M.Reachable s) (h : M.exec s as = some t) :
    M.Reachable t := hs.path (exec_leads h)

theorem Reachable.exists_exec (h : M.Reachable t) : ∃ s as, M.init s ∧ M.exec s as = some t := by
  obtain ⟨s, hi, hp⟩ := h
  induction hp with
  | refl => exact ⟨s, [], hi, rfl⟩
  | @tail t u a _ _ hs ih =>
    obtain ⟨r, as, hr, he⟩ := ih
    exact ⟨r, as ++ [a], hr, exec_snoc.mpr ⟨t, he, hs⟩⟩

/-- The entries of `f` for the steps of a run, in their order. -/
def observe (M : Automaton σ α) (f : σ → α → σ → List β) : σ → List α → List β
  | _, [] => []
  | s, a :: as =>
    match M.step s a with
    | some t => f s a t ++ M.observe f t as
    | none => []

variable {f : σ → α → σ → List β}

@[simp] theorem observe_nil : M.observe f s [] = [] := rfl

theorem observe_cons {a : α} {as : List α} (h : M.step s a = some t) :
    M.observe f s (a :: as) = f s a t ++ M.observe f t as := by
  simp [observe, h]

theorem observe_append {as bs : List α} (h : M.exec s as = some t) :
    M.observe f s (as ++ bs) = M.observe f s as ++ M.observe f t bs := by
  induction as generalizing s with
  | nil =>
    simp only [exec, Option.some.injEq] at h
    simp [h]
  | cons a as ih =>
    simp only [exec, Option.bind_eq_some_iff] at h
    obtain ⟨r, hr, h⟩ := h
    rw [List.cons_append, observe_cons hr, observe_cons hr, ih h, List.append_assoc]

theorem observe_snoc {as : List α} {a : α} (h : M.exec s as = some t) (hs : M.step t a = some u) :
    M.observe f s (as ++ [a]) = M.observe f s as ++ f t a u := by
  rw [observe_append h, observe_cons hs, observe_nil, List.append_nil]

def steps (M : Automaton σ α) (s : σ) (as : List α) : List (σ × α × σ) :=
  M.observe (fun s a t => [(s, a, t)]) s as

theorem mem_steps {as : List α} {e : σ × α × σ} (h : e ∈ M.steps s as) :
    M.Leads s e.1 ∧ M.step e.1 e.2.1 = some e.2.2 := by
  induction as generalizing s with
  | nil => cases h
  | cons a as ih =>
    cases hs : M.step s a with
    | none => simp [steps, observe, hs] at h
    | some t =>
      rw [steps, observe_cons hs] at h
      rcases List.mem_append.mp h with h | h
      · rw [List.mem_singleton.mp h]
        exact ⟨.refl, hs⟩
      · obtain ⟨hlead, hstep⟩ := ih h
        exact ⟨(Path.single trivial hs).trans hlead, hstep⟩

/-- The invariant rule for a run of which every step meets a condition. -/
theorem steps_invariant {I : σ → Prop} {ok : σ → α → Prop} {as : List α} (hs : I s)
    (hok : ∀ e ∈ M.steps s as, ok e.1 e.2.1)
    (hstep : ∀ t a u, M.Leads s t → ok t a → M.step t a = some u → I t → I u) :
    ∀ e ∈ M.steps s as, I e.2.2 := by
  induction as generalizing s with
  | nil =>
    intro e he
    cases he
  | cons a as ih =>
    cases ha : M.step s a with
    | none => simp [steps, observe, ha]
    | some t =>
      have hsplit : M.steps s (a :: as) = (s, a, t) :: M.steps t as := by
        rw [steps, observe_cons ha, List.singleton_append, steps]
      rw [hsplit] at hok ⊢
      have hfirst : ok s a := hok (s, a, t) (List.mem_cons_self ..)
      have ht : I t := hstep s a t .refl hfirst ha hs
      intro e he
      rcases List.mem_cons.mp he with rfl | he
      · exact ht
      · refine ih ht (fun e he => hok e (List.mem_cons_of_mem _ he)) (fun r b u hr => ?_) e he
        exact hstep r b u ((Path.single trivial ha).trans hr)

end Automaton
