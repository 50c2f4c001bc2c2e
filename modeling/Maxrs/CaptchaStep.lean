import Maxrs.Captcha
set_option autoImplicit false

/-! Every step of the captcha solver, read once. -/
namespace Maxrs

/-- The assumption on `Uuid::new_v4`. -/
def FreshIds (w : CaptchaWorld) (act : CaptchaAct) : Prop :=
  ∀ n uuid, act = .solve n (.cleanup uuid) → w.drawn uuid = false

namespace CaptchaWorld

inductive SolveTurn (env : CaptchaEnv) (w : CaptchaWorld) (n : SolveId) :
    SolveStep → CaptchaWorld → Prop where
  | start {captchaUrl : String} (hat : w.solves n = .idle) :
      SolveTurn env w n (.start captchaUrl) (w.setSolve n (.cleaning captchaUrl))
  | disabled {uuid captchaUrl : String} (hat : w.solves n = .cleaning captchaUrl)
      (hurl : env.config.solverUrl = none) :
      SolveTurn env w n (.cleanup uuid) (w.cleanupExpired.setSolve n
        (.returned none none (.error .captchaSolverDisabled)))
  | draw {uuid captchaUrl solverUrl : String} (hat : w.solves n = .cleaning captchaUrl)
      (hurl : env.config.solverUrl = some solverUrl) (c : Challenge) (hid : c.id = uuid)
      (hnow : c.challengeStartedAt = w.now) :
      SolveTurn env w n (.cleanup uuid) { w.cleanupExpired.setSolve n (.inserting c) with
        drawn := Function.update w.drawn uuid true }
  | insert {c : Challenge} (hat : w.solves n = .inserting c) :
      SolveTurn env w n .insert
        { w.setSolve n (.requesting c (w.now + DEFAULT_CHALLENGE_TIMEOUT)) with
          pending := Function.update w.pending c.id
            (some { createdAt := c.challengeStartedAt, tx := n }) }
  | succeeded {result : Except HttpError Nat} {c : Challenge} {deadline status : Nat}
      (hat : w.solves n = .requesting c deadline)
      (hr : result.bind errorForStatus = .ok status) :
      SolveTurn env w n (.respond result) (w.setSolve n (.waiting c
        (w.now + (DEFAULT_CHALLENGE_TIMEOUT - (w.now - c.challengeStartedAt)))))
  | failed {result : Except HttpError Nat} {c : Challenge} {deadline : Nat} {err : HttpError}
      (hat : w.solves n = .requesting c deadline)
      (hr : result.bind errorForStatus = .error err) :
      SolveTurn env w n (.respond result)
        (w.setSolve n (.removing c (solveRequestError c.solverUrl err) true))
  | requestTimeout {c : Challenge} {deadline : Nat} (hat : w.solves n = .requesting c deadline)
      (hnow : deadline ≤ w.now) :
      SolveTurn env w n .requestTimeout
        (w.setSolve n (.removing c (.captchaTimeout c.id) true))
  | take {c : Challenge} {deadline : Nat} {callback : CaptchaCallback}
      (hat : w.solves n = .waiting c deadline) (hsent : w.sent n = some callback) :
      SolveTurn env w n .pollReceiver
        (w.setSolve n (.returned (some c) (some callback) callback.outcome))
  | empty {c : Challenge} {deadline : Nat} (hat : w.solves n = .waiting c deadline)
      (hsent : w.sent n = none) (htx : w.sender n c.id = true) :
      SolveTurn env w n .pollReceiver (w.setSolve n (.polled c deadline))
  | closed {c : Challenge} {deadline : Nat} (hat : w.solves n = .waiting c deadline)
      (hsent : w.sent n = none) (htx : w.sender n c.id = false) :
      SolveTurn env w n .pollReceiver (w.setSolve n
        (.returned (some c) none (.error (.captchaFailed "callback waiter dropped"))))
  | elapsed {c : Challenge} {deadline : Nat} (hat : w.solves n = .polled c deadline)
      (hnow : deadline ≤ w.now) :
      SolveTurn env w n .pollTimer (w.setSolve n (.removing c (.captchaTimeout c.id) false))
  | sleep {c : Challenge} {deadline : Nat} (hat : w.solves n = .polled c deadline)
      (hnow : w.now < deadline) :
      SolveTurn env w n .pollTimer (w.setSolve n (.waiting c deadline))
  | remove {c : Challenge} {err : Error} {rx : Bool} (hat : w.solves n = .removing c err rx) :
      SolveTurn env w n .remove
        ((w.remove c.id).setSolve n (.returned (some c) none (.error err)))
  | drop (hlive : ∀ c taken r, w.solves n ≠ .returned c taken r) :
      SolveTurn env w n .drop (w.setSolve n (.dropped (w.solves n).challenge))

inductive CallbackTurn (env : CaptchaEnv) (w : CaptchaWorld) (k : CallbackId) :
    CallbackStep → CaptchaWorld → Prop where
  | refused {body : Except String (List UInt8)} (hat : w.callbacks k = .idle) :
      CallbackTurn env w k (.start body) (w.setCallback k .refused)
  | unread {body : Except String (List UInt8)} {err : Error} (hat : w.callbacks k = .idle) :
      CallbackTurn env w k (.start body) (w.setCallback k (.returned none (.error err)))
  | start {body : Except String (List UInt8)} {cb : CaptchaCallback}
      (hat : w.callbacks k = .idle) :
      CallbackTurn env w k (.start body) (w.setCallback k (.cleaning cb))
  | cleanup {cb : CaptchaCallback} (hat : w.callbacks k = .cleaning cb) :
      CallbackTurn env w k .cleanup (w.cleanupExpired.setCallback k (.removing cb))
  | remove {cb : CaptchaCallback} {p : PendingChallenge} (hat : w.callbacks k = .removing cb)
      (hp : w.pending cb.challengeId = some p) :
      CallbackTurn env w k .remove
        { (w.remove cb.challengeId).setCallback k (.sending cb p.tx) with
          held := Function.update w.held p.tx true }
  | unknown {cb : CaptchaCallback} (hat : w.callbacks k = .removing cb)
      (hp : w.pending cb.challengeId = none) :
      CallbackTurn env w k .remove (w.setCallback k (.returned (some cb)
        (.error (.unknownCaptchaChallenge cb.challengeId))))
  | send {cb : CaptchaCallback} {tx : SolveId} (hat : w.callbacks k = .sending cb tx)
      (hrx : (w.solves tx).receiving = true) :
      CallbackTurn env w k .send { w.setCallback k (.accepted cb) with
        held := Function.update w.held tx false
        sent := Function.update w.sent tx (some cb) }
  | unsent {cb : CaptchaCallback} {tx : SolveId} (hat : w.callbacks k = .sending cb tx)
      (hrx : (w.solves tx).receiving = false) :
      CallbackTurn env w k .send { w.setCallback k (.returned (some cb)
          (.error (.captchaFailed "callback receiver dropped"))) with
        held := Function.update w.held tx false }
  | drop {cb : CaptchaCallback}
      (hat : w.callbacks k = .cleaning cb ∨ w.callbacks k = .removing cb) :
      CallbackTurn env w k .drop (w.setCallback k (.dropped cb))

variable {env : CaptchaEnv} {w v : CaptchaWorld} {n : SolveId} {k : CallbackId}

theorem solveStep_turn {s : SolveStep} (hs : (captcha env).step w (.solve n s) = some v) :
    SolveTurn env w n s v := by
  have h : w.solveStep env n s = some v := hs
  clear hs
  cases s with
  | start captchaUrl =>
    simp only [solveStep] at h
    split at h
    · cases h
      exact .start (by assumption)
    · cases h
  | cleanup uuid =>
    simp only [solveStep] at h
    split at h
    · split at h
      · cases h
        exact .disabled (by assumption) (by assumption)
      · cases h
        exact .draw (by assumption) (by assumption) _ rfl rfl
    · cases h
  | insert =>
    simp only [solveStep] at h
    split at h
    · cases h
      exact .insert (by assumption)
    · cases h
  | respond result =>
    simp only [solveStep] at h
    split at h
    · split at h
      · cases h
        exact .succeeded (by assumption) (by assumption)
      · cases h
        exact .failed (by assumption) (by assumption)
    · cases h
  | requestTimeout =>
    simp only [solveStep] at h
    split at h
    · simp only [Option.ite_none_right_eq_some, Option.some.injEq] at h
      obtain ⟨hnow, rfl⟩ := h
      exact .requestTimeout (by assumption) hnow
    · cases h
  | pollReceiver =>
    simp only [solveStep] at h
    split at h
    · split at h
      · cases h
        exact .take (by assumption) (by assumption)
      · split at h
        · cases h
          exact .empty (by assumption) (by assumption) (by assumption)
        · cases h
          exact .closed (by assumption) (by assumption) (by simp_all)
    · cases h
  | pollTimer =>
    simp only [solveStep] at h
    split at h
    · split at h
      · cases h
        exact .elapsed (by assumption) (by assumption)
      · cases h
        exact .sleep (by assumption) (by omega)
    · cases h
  | remove =>
    simp only [solveStep] at h
    split at h
    · cases h
      exact .remove (by assumption)
    · cases h
  | drop =>
    simp only [solveStep] at h
    split at h <;> cases h
    exact .drop (by simp_all)

theorem callbackStep_turn {s : CallbackStep}
    (hs : (captcha env).step w (.callback k s) = some v) : CallbackTurn env w k s v := by
  have h : w.callbackStep env k s = some v := hs
  clear hs
  cases s with
  | start body =>
    simp only [callbackStep] at h
    split at h
    · split at h
      · cases h
        exact .refused (by assumption)
      · cases h
        exact .unread (by assumption)
      · split at h
        · cases h
          exact .unread (by assumption)
        · cases h
          exact .start (by assumption)
    · cases h
  | cleanup =>
    simp only [callbackStep] at h
    split at h
    · cases h
      exact .cleanup (by assumption)
    · cases h
  | remove =>
    simp only [callbackStep] at h
    split at h
    · split at h
      · cases h
        exact .remove (by assumption) (by assumption)
      · cases h
        exact .unknown (by assumption) (by assumption)
    · cases h
  | send =>
    simp only [callbackStep] at h
    split at h
    · split at h
      · cases h
        exact .send (by assumption) (by assumption)
      · cases h
        exact .unsent (by assumption) (by simp_all)
    · cases h
  | drop =>
    simp only [callbackStep] at h
    split at h
    · cases h
      exact .drop (.inl (by assumption))
    · cases h
      exact .drop (.inr (by assumption))
    · cases h

end CaptchaWorld

end Maxrs
