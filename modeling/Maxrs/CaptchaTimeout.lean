import Maxrs.CaptchaRegistry
set_option autoImplicit false

/-! The one-hour limit: the timer of `solve` against the clean-ups of the other tasks. -/
namespace Maxrs

/-- The steps that run `cleanup_expired`. -/
def CaptchaAct.cleans : CaptchaAct → Bool
  | .solve _ (.cleanup _) | .callback _ .cleanup => true
  | _ => false

def SolveAt.hopeful : SolveAt → Option Challenge
  | .requesting c _ | .waiting c _ => some c
  | _ => none

/-- The waits that no lost sender has ended. -/
def SolveAt.timedOut (c : Challenge) : SolveAt → Prop
  | .waiting d _ | .polled d _ => d = c
  | .removing d err rx => d = c ∧ err = .captchaTimeout c.id ∧ rx = false
  | .returned d taken r => d = some c ∧ (taken = none → r = .error (.captchaTimeout c.id))
  | .dropped d => d = some c
  | .idle | .cleaning _ | .inserting _ | .requesting _ _ => False

/-- No clean-up expires the challenge of call `n` while the call still hopes for a callback. -/
def Timely (n : SolveId) (w : CaptchaWorld) (act : CaptchaAct) : Prop :=
  FreshIds w act ∧ (act.cleans = true → ∀ c p, (w.solves n).hopeful = some c →
    w.pending c.id = some p → w.expired p = false)

namespace CaptchaWorld

variable {env : CaptchaEnv} {w v u : CaptchaWorld} {n : SolveId} {c : Challenge}

def Alive (w : CaptchaWorld) (n : SolveId) (id : String) : Prop :=
  w.sender n id = true ∨ w.sent n ≠ none

theorem sender_iff {id : String} : w.sender n id = true ↔
    w.held n = true ∨ ∃ p, w.pending id = some p ∧ p.tx = n := by
  cases hp : w.pending id <;> simp [sender, hp]

/-- Only an expiring clean-up takes the sender away from a call that still receives. -/
theorem alive_step {act : CaptchaAct} (h : Inv w) (hs : (captcha env).step w act = some v)
    (hc : (w.solves n).inserted = some c) (hrx : (w.solves n).receiving = true)
    (hremove : act ≠ .solve n .remove)
    (hclean : act.cleans = true → ∀ p, w.pending c.id = some p → w.expired p = false)
    (ha : w.Alive n c.id) : v.Alive n c.id := by
  rcases ha with ha | ha
  · rcases sender_iff.mp ha with hheld | ⟨p, hp, htx⟩
    · -- the sender is with a callback, which delivers
      cases act with
      | tick d =>
        cases hs
        exact .inl ha
      | solve m s =>
        refine .inl (sender_iff.mpr (.inl ?_))
        cases solveStep_turn hs <;> exact hheld
      | callback k s =>
        cases callbackStep_turn hs with
        | @remove cb q =>
          refine .inl (sender_iff.mpr (.inl ?_))
          by_cases hq : n = q.tx
          · subst hq
            exact Function.update_self ..
          · exact (Function.update_of_ne hq ..).trans hheld
        | @send cb tx =>
          by_cases hm : n = tx
          · subst hm
            refine .inr ?_
            show Function.update w.sent n (some cb) n ≠ none
            simp
          · exact .inl (sender_iff.mpr (.inl ((Function.update_of_ne hm ..).trans hheld)))
        | @unsent cb tx _ hno =>
          have hm : n ≠ tx := by
            rintro rfl
            cases hrx.symm.trans hno
          exact .inl (sender_iff.mpr (.inl ((Function.update_of_ne hm ..).trans hheld)))
        | _ => exact .inl (sender_iff.mpr (.inl hheld))
    · -- the sender is in the map
      have stay {q : CaptchaWorld} (hq : q.pending c.id = some p) : q.Alive n c.id :=
        .inl (sender_iff.mpr (.inr ⟨p, hq, htx⟩))
      have hch := SolveAt.challenge_of_inserted hc
      cases act with
      | tick d =>
        cases hs
        exact stay hp
      | solve m s =>
        cases solveStep_turn hs with
        | disabled | draw => exact stay (cleanupExpired_pending.mpr ⟨hp, hclean rfl p hp⟩)
        | @insert d hat =>
          have hne : c.id ≠ d.id := by
            intro hid
            have hnm := h.unique hch (by rw [hat]; rfl : (w.solves m).challenge = some d) hid
            rw [hnm, hat] at hc
            cases hc
          exact stay ((Function.update_of_ne hne ..).trans hp)
        | @remove d err rx hat =>
          have hne : c.id ≠ d.id := by
            intro hid
            have hnm := h.unique hch (by rw [hat]; rfl : (w.solves m).challenge = some d) hid
            exact hremove (by rw [hnm])
          exact stay (remove_pending.mpr ⟨hp, hne⟩)
        | _ => exact stay hp
      | callback k s =>
        cases callbackStep_turn hs with
        | cleanup => exact stay (cleanupExpired_pending.mpr ⟨hp, hclean rfl p hp⟩)
        | @remove cb q hat hq =>
          by_cases hid : c.id = cb.challengeId
          · rw [hid] at hp
            cases hp.symm.trans hq
            refine .inl (sender_iff.mpr (.inl ?_))
            rw [htx]
            exact Function.update_self ..
          · exact stay (remove_pending.mpr ⟨hp, hid⟩)
        | _ => exact stay hp
  · obtain ⟨cb, hcb⟩ := Option.ne_none_iff_exists'.mp ha
    refine .inr ?_
    rw [sent_step h hs hcb]
    simp

structure Waits (w : CaptchaWorld) (n : SolveId) : Prop where
  past : ∀ {c}, (w.solves n).challenge = some c → c.challengeStartedAt ≤ w.now
  hopeful : ∀ {c}, (w.solves n).hopeful = some c → w.Alive n c.id
  polled : ∀ {c deadline}, w.solves n = .polled c deadline →
    w.Alive n c.id ∨ deadline ≤ w.now
  deadline : ∀ {c deadline}, w.solves n = .waiting c deadline ∨ w.solves n = .polled c deadline →
    deadline ≤ w.now ∨ deadline ≤ c.challengeStartedAt + DEFAULT_CHALLENGE_TIMEOUT

theorem now_step {act : CaptchaAct} (hs : (captcha env).step w act = some v) : w.now ≤ v.now := by
  cases act with
  | tick d =>
    cases hs
    exact Nat.le_add_right _ _
  | solve m s => cases solveStep_turn hs <;> exact le_rfl
  | callback k s => cases callbackStep_turn hs <;> exact le_rfl

theorem expired_iff {p : PendingChallenge} :
    w.expired p = true ↔ p.createdAt + DEFAULT_CHALLENGE_TIMEOUT ≤ w.now := by
  simp only [CaptchaWorld.expired, decide_eq_true_eq]
  unfold DEFAULT_CHALLENGE_TIMEOUT
  omega

theorem Waits.other {act : CaptchaAct} (h : Inv w) (hw : Waits w n) (hok : Timely n w act)
    (hs : (captcha env).step w act = some v) (hsame : v.solves n = w.solves n)
    (hremove : act ≠ .solve n .remove) : Waits v n where
  past hc := (hw.past (hsame ▸ hc)).trans (now_step hs)
  hopeful := by
    intro c hc
    rw [hsame] at hc
    have hi : (w.solves n).inserted = some c ∧ (w.solves n).receiving = true := by
      cases hp : w.solves n <;> rw [hp] at hc <;> cases hc <;> exact ⟨rfl, rfl⟩
    exact alive_step h hs hi.1 hi.2 hremove (fun hcl p hp => hok.2 hcl c p hc hp) (hw.hopeful hc)
  polled := by
    intro c deadline hp
    rw [hsame] at hp
    by_cases hd : deadline ≤ w.now
    · exact .inr (hd.trans (now_step hs))
    · refine .inl (alive_step h hs (by rw [hp]; rfl) (by rw [hp]; rfl) hremove ?_
        ((hw.polled hp).resolve_right hd))
      -- an expired entry means that the timer is due as well
      intro _ q hq
      obtain ⟨d, hd', hid, hcreated, -⟩ := h.entry hq
      have htx := h.unique (SolveAt.challenge_of_inserted hd')
        (by rw [hp]; rfl : (w.solves n).challenge = some c) hid
      rw [htx, hp] at hd'
      cases hd'
      by_contra hne
      have hexp := expired_iff.mp (by simpa using hne)
      rcases hw.deadline (.inr hp) with hdl | hdl <;> omega
  deadline := by
    intro c deadline hp
    rw [hsame] at hp
    exact (hw.deadline hp).imp_left fun hd => hd.trans (now_step hs)

theorem Waits.rest {p : SolveAt} (hv : v.solves n = p) (hnow : v.now = w.now)
    (hc : ∀ c, p.challenge = some c → c.challengeStartedAt ≤ w.now) (hh : p.hopeful = none)
    (hp : ∀ c deadline, p ≠ .polled c deadline) (hwait : ∀ c deadline, p ≠ .waiting c deadline) :
    Waits v n where
  past hc' := hnow ▸ hc _ (hv ▸ hc')
  hopeful hc' := by
    rw [hv, hh] at hc'
    cases hc'
  polled hp' := absurd (hv.symm.trans hp') (hp _ _)
  deadline hp' := by
    rcases hp' with hp' | hp'
    · exact absurd (hv.symm.trans hp') (hwait _ _)
    · exact absurd (hv.symm.trans hp') (hp _ _)

theorem Waits.step {act : CaptchaAct} (h : Inv w) (hw : Waits w n) (hok : Timely n w act)
    (hs : (captcha env).step w act = some v) : Waits v n := by
  cases act with
  | tick d =>
    refine hw.other h hok hs ?_ (by simp)
    cases hs
    rfl
  | callback k s =>
    refine hw.other h hok hs ?_ (by simp)
    cases callbackStep_turn hs <;> rfl
  | solve m s =>
    by_cases hm : n = m
    · subst hm
      cases solveStep_turn hs with
      | start | disabled =>
        exact .rest (setSolve_self _) rfl (by simp [SolveAt.challenge]) rfl (by simp) (by simp)
      | draw _ _ c _ hnow =>
        refine .rest (setSolve_self _) rfl ?_ rfl (by simp) (by simp)
        rintro d hd
        cases hd
        exact hnow.le
      | @insert c hat =>
        refine { past := ?_, hopeful := ?_, polled := ?_, deadline := ?_ }
        · intro d hd
          have hd' := (congrArg SolveAt.challenge (setSolve_self _)).symm.trans hd
          cases hd'
          exact hw.past (by rw [hat]; rfl)
        · intro d hd
          have hd' := (congrArg SolveAt.hopeful (setSolve_self _)).symm.trans hd
          cases hd'
          exact .inl (sender_iff.mpr (.inr ⟨_, Function.update_self .., rfl⟩))
        · intro d deadline hd
          cases (setSolve_self _).symm.trans hd
        · rintro d deadline (hd | hd) <;> cases (setSolve_self _).symm.trans hd
      | @succeeded result c deadline status hat =>
        have hpast := hw.past (by rw [hat]; rfl : (w.solves n).challenge = some c)
        refine { past := ?_, hopeful := ?_, polled := ?_, deadline := ?_ }
        · intro d hd
          cases (congrArg SolveAt.challenge (setSolve_self _)).symm.trans hd
          exact hpast
        · intro d hd
          cases (congrArg SolveAt.hopeful (setSolve_self _)).symm.trans hd
          exact hw.hopeful (by rw [hat]; rfl)
        · intro d dl hd
          cases (setSolve_self _).symm.trans hd
        · rintro d dl (hd | hd)
          · cases (setSolve_self _).symm.trans hd
            show _ ≤ w.now ∨ _
            omega
          · cases (setSolve_self _).symm.trans hd
      | @empty c deadline hat _ htx =>
        refine { past := ?_, hopeful := ?_, polled := ?_, deadline := ?_ }
        · intro d hd
          cases (congrArg SolveAt.challenge (setSolve_self _)).symm.trans hd
          exact hw.past (by rw [hat]; rfl)
        · intro d hd
          cases (congrArg SolveAt.hopeful (setSolve_self _)).symm.trans hd
        · intro d dl hd
          cases (setSolve_self _).symm.trans hd
          exact .inl (.inl htx)
        · rintro d dl (hd | hd)
          · cases (setSolve_self _).symm.trans hd
          · cases (setSolve_self _).symm.trans hd
            exact hw.deadline (.inl hat)
      | @sleep c deadline hat hnow =>
        refine { past := ?_, hopeful := ?_, polled := ?_, deadline := ?_ }
        · intro d hd
          cases (congrArg SolveAt.challenge (setSolve_self _)).symm.trans hd
          exact hw.past (by rw [hat]; rfl)
        · intro d hd
          cases (congrArg SolveAt.hopeful (setSolve_self _)).symm.trans hd
          exact (hw.polled hat).resolve_right (by omega)
        · intro d dl hd
          cases (setSolve_self _).symm.trans hd
        · rintro d dl (hd | hd)
          · cases (setSolve_self _).symm.trans hd
            exact hw.deadline (.inr hat)
          · cases (setSolve_self _).symm.trans hd
      | failed hat | requestTimeout hat | take hat | closed hat | elapsed hat | remove hat =>
        refine .rest (setSolve_self _) rfl ?_ rfl (by simp) (by simp)
        rintro d hd
        cases hd
        exact hw.past (by rw [hat]; rfl)
      | drop =>
        refine .rest (setSolve_self _) rfl ?_ rfl (by simp) (by simp)
        exact fun d hd => hw.past hd
    · refine hw.other h hok hs ?_ ?_
      · cases solveStep_turn hs <;> exact setSolve_ne _ hm
      · rintro he
        cases he
        exact hm rfl

def Orphaned (n : SolveId) (id : String) (w : CaptchaWorld) : Prop :=
  Inv w ∧ w.Inserted n id ∧ w.pending id = none ∧ w.held n = false ∧ w.sent n = none

def waiterDropped : Except Error String := .error (.captchaFailed "callback waiter dropped")

def Lost (n : SolveId) (c : Challenge) (w : CaptchaWorld) : Prop :=
  Orphaned n c.id w ∧ ((∃ deadline, w.solves n = .waiting c deadline) ∨
    w.solves n = .returned (some c) none waiterDropped ∨ w.solves n = .dropped (some c))

end CaptchaWorld

end Maxrs
