import Maxrs.CallbackLogin
set_option autoImplicit false

/-! What is left of a login by captcha once it has its result, or was dropped. -/
namespace Maxrs

def SolveCaptchaAt.isPast : SolveCaptchaAt → Bool
  | .binding | .solving => false
  | .stopping _ | .returned _ | .dropped => true

namespace CaptchaLogin

variable {setup : CaptchaLoginSetup} {s t : CaptchaLogin} {a : CaptchaLoginAct}

theorem flow_step (h : s.step setup a = some t) (hp : s.flow.isPast = true) :
    t.flow = s.flow ∨ (∃ r, s.flow = .stopping r ∧ (t.flow = .returned r ∨ t.flow = .dropped)) := by
  have early : ∀ {f : SolveCaptchaAt}, s.flow = f → f.isPast = false → False := by
    rintro _ rfl hf
    cases hp.symm.trans hf
  cases turn h with
  | unbound hf _ | bound hf _ | solve hf _ _ | solved hf _ | dropBinding hf | dropSolving hf _ =>
    exact (early hf rfl).elim
  | joined hf _ => exact .inr ⟨_, hf, .inl rfl⟩
  | dropStopping hf => exact .inr ⟨_, hf, .inr rfl⟩
  | tick _ | accept _ | ended _ _ | routed _ _ | handed _ _ | handle _ _ | reply _ _ _ | hangUp _
  | hangUpHandled _ _ => exact .inl rfl

theorem serve_step (h : s.step setup a = some t) (hp : s.flow.isPast = true)
    (hs : s.serve ≠ .serving) : t.serve = s.serve ∧ t.accepted = s.accepted := by
  cases turn h with
  | bound hf _ =>
    rw [hf] at hp
    cases hp
  | accept hserve | ended _ hserve => exact absurd hserve hs
  | tick _ | unbound _ _ | solve _ _ _ | solved _ _ | joined _ _ | dropBinding _ | dropSolving _ _
  | dropStopping _ | routed _ _ | handed _ _ | handle _ _ | reply _ _ _ | hangUp _
  | hangUpHandled _ _ => exact ⟨rfl, rfl⟩

theorem deaf_of_past (h : (automaton setup).Reachable s) (hp : s.flow.isPast = true)
    (n : SolveId) : (s.world.solves n).receiving = false := by
  by_cases hn : n = 0
  · subst hn
    have hi := flowInv_of_reachable h
    have of_returned : (∃ c taken r, s.world.solves 0 = .returned c taken r) →
        (s.world.solves 0).receiving = false := by
      rintro ⟨c, taken, r, hat⟩
      rw [hat]
      rfl
    cases hf : s.flow with
    | binding | solving =>
      rw [hf] at hp
      cases hp
    | stopping r =>
      simp only [FlowInv, hf] at hi
      obtain ⟨-, -, c, taken, hat⟩ := hi
      exact of_returned ⟨c, taken, r, hat⟩
    | returned r =>
      simp only [FlowInv, hf] at hi
      rcases hi with ⟨-, -, -, -, hat⟩ | ⟨-, c, taken, hat⟩
      · rw [hat]
        rfl
      · exact of_returned ⟨c, taken, r, hat⟩
    | dropped =>
      simp only [FlowInv, hf] at hi
      rcases hi with ⟨-, hat⟩ | ⟨-, -, hat⟩
      · rw [hat]
        rfl
      · exact hat
  · rw [(solverInv_of_reachable h).alone n hn]
    rfl

theorem accepted_step (h : (automaton setup).Reachable s) (hs : s.step setup a = some t)
    (hp : s.flow.isPast = true) {k : CallbackId} {cb : CaptchaCallback}
    (hk : t.world.callbacks k = .accepted cb) : s.world.callbacks k = .accepted cb := by
  have hm := moves hs
  generalize t.world = v at hm hk
  cases hm with
  | same | tick d => exact hk
  | solve _ hs' =>
    rw [(CaptchaWorld.solve_frame hs').1] at hk
    exact hk
  | @callback c j x _ _ hs' =>
    by_cases hj : k = j
    · subst hj
      obtain ⟨m, hm⟩ := CaptchaWorld.accepted_of_callback hs' hk
      rw [deaf_of_past h hp m] at hm
      cases hm
    · rw [(CaptchaWorld.callback_frame hs').2.2 k hj] at hk
      exact hk

theorem past_leads (h : (automaton setup).Reachable s) (hp : s.flow.isPast = true)
    (hl : (automaton setup).Leads s t) :
    t.flow.isPast = true ∧
    (t.flow = s.flow ∨ ∃ r, s.flow = .stopping r ∧ (t.flow = .returned r ∨ t.flow = .dropped)) ∧
    (s.serve ≠ .serving → t.serve = s.serve ∧ t.accepted = s.accepted) ∧
    ∀ k cb, t.world.callbacks k = .accepted cb → s.world.callbacks k = .accepted cb := by
  induction hl with
  | refl => exact ⟨hp, .inl rfl, fun _ => ⟨rfl, rfl⟩, fun _ _ => id⟩
  | @tail u v b hl _ hs ih =>
    obtain ⟨hpast, hflow, hserve, hacc⟩ := ih
    have hstep := flow_step hs hpast
    refine ⟨?_, ?_, fun hnot => ?_,
      fun k cb hk => hacc k cb (accepted_step (h.path hl) hs hpast hk)⟩
    · rcases hstep with he | ⟨r, -, he | he⟩
      · exact he ▸ hpast
      · rw [he]
        rfl
      · rw [he]
        rfl
    · rcases hstep with he | ⟨r, hr, he⟩
      · exact he ▸ hflow
      · rcases hflow with hf | ⟨r', hr', hf | hf⟩
        · exact .inr ⟨r, hf ▸ hr, he⟩
        · cases hr.symm.trans hf
        · cases hr.symm.trans hf
    · obtain ⟨hsame, hcount⟩ := hserve hnot
      obtain ⟨hsame', hcount'⟩ := serve_step hs hpast (hsame ▸ hnot)
      exact ⟨hsame'.trans hsame, hcount'.trans hcount⟩

/-- The steps with which the server ends and the flow sees it. -/
def Winding (_ : CaptchaLogin) : CaptchaLoginAct → Prop
  | .stop | .joined => True
  | _ => False

theorem joins {r : Except Error String} {x : Option (Except Error Unit)}
    (hf : s.flow = .stopping r) (hserve : s.serve = .ended x) :
    (automaton setup).CanReach Winding s fun t => t.flow = .returned r := by
  have hs : s.step setup .joined = some { s with flow := .returned r } := by
    simp only [step, hf, hserve]
  exact .step (a := .joined) trivial hs (.here rfl)

/-- A login that has its result loses neither the result nor the listener: whatever connections
do, `shutdown` can end and gives the result on, no connection is accepted from then on, and no
callback is, also after a drop, when the server task is ended at its next await. -/
theorem server_stops (h : (automaton setup).Reachable s) :
    (∀ r, s.flow = .stopping r →
      (automaton setup).CanReach Winding s (fun t => t.flow = .returned r) ∧
      ∀ t, (automaton setup).Leads s t →
        t.flow = .stopping r ∨ t.flow = .returned r ∨ t.flow = .dropped) ∧
    (∀ r t, s.flow = .returned r → (automaton setup).Leads s t →
      t.flow = .returned r ∧ t.accepted = s.accepted ∧
      ∀ result, (automaton setup).step t (.accept result) = none) ∧
    (∀ t, s.flow = .dropped → (automaton setup).Leads s t →
      t.flow = .dropped ∧ (s.serve ≠ .serving → t.accepted = s.accepted) ∧
      (t.serve = .serving → ∃ u x, (automaton setup).step t .abort = some u ∧ u.serve = .ended x)) ∧
    ∀ t, s.flow.isPast = true → (automaton setup).Leads s t → ∀ e ∈ t.exchanges,
      e.response.status = 200 →
        ∃ k cb, e.handler = some k ∧ s.world.callbacks k = .accepted cb := by
  have hi := flowInv_of_reachable h
  refine ⟨fun r hf => ⟨?_, fun t hl => ?_⟩, fun r t hf hl => ?_, fun t hf hl => ?_,
    fun t hp hl e he h200 => ?_⟩
  · simp only [FlowInv, hf] at hi
    obtain ⟨hserve, hshut, -⟩ := hi
    cases hs : s.serve with
    | absent => exact absurd hs hserve
    | serving =>
      have hstop : s.step setup .stop = some { s with serve := .ended (some (.ok ())) } := by
        simp only [step, hs, hshut, if_true]
      exact .step (a := .stop) trivial hstop (joins hf rfl)
    | ended x => exact joins hf hs
  · obtain ⟨-, hflow, -⟩ := past_leads h (by rw [hf]; rfl) hl
    rcases hflow with he | ⟨r', hr', he⟩
    · exact .inl (he.trans hf)
    · cases hf.symm.trans hr'
      exact .inr he
  · obtain ⟨-, hflow, hserve, -⟩ := past_leads h (by rw [hf]; rfl) hl
    have hnot : s.serve ≠ .serving := by
      simp only [FlowInv, hf] at hi
      rcases hi with ⟨hs, -⟩ | ⟨⟨x, hs⟩, -⟩ <;> rw [hs] <;> exact ServeAt.noConfusion
    obtain ⟨hsame, hcount⟩ := hserve hnot
    refine ⟨?_, hcount, fun result => ?_⟩
    · rcases hflow with he | ⟨r', hr', -⟩
      · exact he.trans hf
      · cases hf.symm.trans hr'
    · cases hacc : (automaton setup).step t (.accept result) with
      | none => rfl
      | some u =>
        have hstep : t.step setup (.accept result) = some u := hacc
        simp only [step] at hstep
        split at hstep
        · rename_i hs
          exact absurd (hsame.symm.trans hs) hnot
        · cases hstep
  · obtain ⟨-, hflow, hserve, -⟩ := past_leads h (by rw [hf]; rfl) hl
    have hdropped : t.flow = .dropped := by
      rcases hflow with he | ⟨r', hr', -⟩
      · exact he.trans hf
      · cases hf.symm.trans hr'
    refine ⟨hdropped, fun hnot => (hserve hnot).2, fun hs => ?_⟩
    have hit := flowInv_of_reachable (h.path hl)
    simp only [FlowInv, hdropped] at hit
    rcases hit with ⟨habs, -⟩ | ⟨habort, -⟩
    · cases habs.symm.trans hs
    · have habort : t.step setup .abort = some { t with serve := .ended none } := by
        simp only [step, hs, habort, if_true]
      exact ⟨_, none, habort, rfl⟩
  · obtain ⟨k, cb, hk, hacc⟩ := accepted_of_ok (h.path hl) he h200
    exact ⟨k, cb, hk, (past_leads h hp hl).2.2.2 k cb hacc⟩

/-- The token is there and the server still listens, with a second connection open. -/
theorem server_stops_prompt : ∃ s, (automaton promptLogin).Reachable s ∧ s.serve = .serving ∧
    (automaton promptLogin).CanReach Winding s (fun t => t.flow = .returned (.ok "T")) ∧
    ∀ t, (automaton promptLogin).Leads s t → ∀ e ∈ t.exchanges, e.response.status = 200 →
      ∃ k cb, e.handler = some k ∧ s.world.callbacks k = .accepted cb := by
  have hr : (automaton promptLogin).Reachable
      (((automaton promptLogin).exec new (promptLoginRun.take 15)).get rfl) :=
    Automaton.reachable_get rfl
  obtain ⟨hstop, -, -, hlate⟩ := server_stops hr
  exact ⟨_, hr, rfl, (hstop _ rfl).1, fun t => hlate t rfl⟩

end CaptchaLogin

end Maxrs
