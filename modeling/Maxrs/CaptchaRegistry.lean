import Maxrs.CaptchaInv
set_option autoImplicit false

/-! The registry of pending challenges, over all interleavings of calls and callbacks. -/
namespace Maxrs

def CallbackAt.early : CallbackAt → Prop
  | .idle | .cleaning _ | .removing _ => True
  | .sending _ _ | .refused | .returned _ _ | .dropped _ => False

namespace CaptchaWorld

variable {env : CaptchaEnv} {w v u : CaptchaWorld} {n : SolveId} {k : CallbackId}

/-- The request for `c` has succeeded and `cb` is there: the next poll takes it. -/
inductive Answered (env : CaptchaEnv) (w : CaptchaWorld) (n : SolveId) (c : Challenge)
    (cb : CaptchaCallback) : Prop where
  | ready {v : CaptchaWorld} (hpoll : (captcha env).step w (.solve n .pollReceiver) = some v)
      (hv : v.solves n = .returned (some c) (some cb) cb.outcome)
  | returned (h : w.solves n = .returned (some c) (some cb) cb.outcome)
  | dropped (h : w.solves n = .dropped (some c))

theorem pending_step {act : CaptchaAct} {id : String} {p : PendingChallenge}
    (hs : (captcha env).step w act = some v) (hp : v.pending id = some p) :
    w.pending id = some p ∨ ∃ n c, w.solves n = .inserting c ∧ c.id = id := by
  cases act with
  | tick d =>
    cases hs
    exact .inl hp
  | callback k s =>
    cases callbackStep_turn hs with
    | cleanup => exact .inl (cleanupExpired_pending.mp hp).1
    | remove => exact .inl (remove_pending.mp hp).1
    | _ => exact .inl hp
  | solve m s =>
    cases solveStep_turn hs with
    | disabled | draw => exact .inl (cleanupExpired_pending.mp hp).1
    | @insert c hat =>
      by_cases hid : id = c.id
      · exact .inr ⟨m, c, hat, hid.symm⟩
      · exact .inl ((Function.update_of_ne hid ..).symm.trans hp)
    | remove => exact .inl (remove_pending.mp hp).1
    | _ => exact .inl hp

/-- The callbacks that come too late for the challenge `id` get no other answer. -/
def Late (k : CallbackId) (id : String) (w : CaptchaWorld) : Prop :=
  (∀ cb tx, w.callbacks k = .sending cb tx → cb.challengeId ≠ id) ∧
    ∀ cb r, w.callbacks k = .returned (some cb) r → cb.challengeId = id →
      r = .error (.unknownCaptchaChallenge id)

theorem late_step {act : CaptchaAct} {id : String} (hs : (captcha env).step w act = some v)
    (hp : w.pending id = none) (h : Late k id w) : Late k id v := by
  cases act with
  | tick d =>
    cases hs
    exact h
  | solve m s => cases solveStep_turn hs <;> exact h
  | callback k' s =>
    by_cases hk : k' = k
    · subst hk
      have stay {x : CaptchaWorld} {p : CallbackAt} (hx : x.callbacks k' = p)
          (hsend : ∀ cb tx, p = .sending cb tx → cb.challengeId ≠ id)
          (hret : ∀ cb r, p = .returned (some cb) r → cb.challengeId = id →
            r = .error (.unknownCaptchaChallenge id)) : Late k' id x :=
        ⟨fun cb tx he => hsend cb tx (hx.symm.trans he),
          fun cb r he => hret cb r (hx.symm.trans he)⟩
      cases callbackStep_turn hs with
      | refused | unread | start | cleanup | drop =>
        exact stay (Function.update_self ..) (by simp) (by simp)
      | remove hat hq =>
        refine stay (Function.update_self ..) ?_ (by simp)
        rintro cb tx he rfl
        cases he
        cases hp.symm.trans hq
      | unknown hat =>
        refine stay (Function.update_self ..) (by simp) ?_
        rintro cb r he rfl
        cases he
        rfl
      | send hat | unsent hat =>
        refine stay (Function.update_self ..) (by simp [CallbackAt.accepted]) ?_
        rintro cb r he rfl
        cases he
        exact absurd rfl (h.1 _ _ hat)
    · have hsame : v.callbacks k = w.callbacks k := by
        cases callbackStep_turn hs <;> exact Function.update_of_ne (Ne.symm hk) ..
      unfold Late
      rw [hsame]
      exact h

theorem sent_step {act : CaptchaAct} {cb : CaptchaCallback} (h : Inv w)
    (hs : (captcha env).step w act = some v) (hsent : w.sent n = some cb) :
    v.sent n = some cb := by
  cases act with
  | tick d =>
    cases hs
    exact hsent
  | solve m s => cases solveStep_turn hs <;> exact hsent
  | callback k s =>
    cases callbackStep_turn hs with
    | @send _ tx hat =>
      have hne : n ≠ tx := by
        rintro rfl
        cases (h.sending hat).2.2.2.symm.trans hsent
      exact (Function.update_of_ne hne ..).trans hsent
    | _ => exact hsent

def Decided (n : SolveId) (c : Challenge) (cb : CaptchaCallback) (w : CaptchaWorld) : Prop :=
  Inv w ∧ w.sent n = some cb ∧ ((∃ deadline, w.solves n = .waiting c deadline) ∨
    w.solves n = .returned (some c) (some cb) cb.outcome ∨ w.solves n = .dropped (some c))

theorem Decided.answered {c : Challenge} {cb : CaptchaCallback} (h : Decided n c cb w) :
    Answered env w n c cb := by
  obtain ⟨-, hsent, ⟨deadline, hat⟩ | hat | hat⟩ := h
  · refine .ready (v := w.setSolve n (.returned (some c) (some cb) cb.outcome)) ?_ (setSolve_self _)
    simp only [captcha, solveStep, hat, hsent]
  · exact .returned hat
  · exact .dropped hat

end CaptchaWorld

end Maxrs
