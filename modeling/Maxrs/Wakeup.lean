import Maxrs.ClientInv
import Maxrs.RecoverySystem
set_option autoImplicit false

/-! A task that waits in `current` against the publications of the other tasks. -/
namespace Maxrs

def RecoveryState.Answers (s : RecoveryState) (cancelled : ConnId → Bool) : Prop :=
  s = .stopped ∨ ∃ c, s = .ready c ∧ cancelled c = false

/-- What the other tasks can do to the published value and to the tokens: the version changes
with every publication, and a published connection is never uncancelled. -/
structure Recovery.Advances (r : Recovery) (cancelled : ConnId → Bool) (r' : Recovery)
    (cancelled' : ConnId → Bool) : Prop where
  version : r.version ≤ r'.version
  state : r'.version = r.version → r'.state = r.state
  cancelled : ∀ c, r.state = .ready c → cancelled c = true → cancelled' c = true

namespace Current

/-- What a task in `current` knows of the published value: what it has read is out of date
only if the version is, and it waits only if the value it has seen was of no use. -/
def Watches (r : Recovery) (cancelled : ConnId → Bool) : Current → Prop
  | .checking s seen => seen ≤ r.version ∧ (seen = r.version → s = r.state)
  | .waiting seen => seen ≤ r.version ∧ (seen = r.version → ¬ r.state.Answers cancelled)
  | .reading | .returned _ => True

def Moves (r : Recovery) (cancelled : ConnId → Bool) (p q : Current) : Prop :=
  p.borrow r = some q ∨ p.check cancelled = some q ∨ p.wake r = some q

variable {r r' : Recovery} {b b' : ConnId → Bool} {p q : Current}

theorem Watches.advance (h : p.Watches r b) (ha : r.Advances b r' b') : p.Watches r' b' := by
  cases p with
  | checking s seen =>
    obtain ⟨hseen, hs⟩ := h
    refine ⟨hseen.trans ha.version, fun he => ?_⟩
    have heq : r'.version = r.version := Nat.le_antisymm (he ▸ hseen) ha.version
    exact (hs (he.trans heq)).trans (ha.state heq).symm
  | waiting seen =>
    obtain ⟨hseen, hs⟩ := h
    refine ⟨hseen.trans ha.version, fun he hans => ?_⟩
    have heq : r'.version = r.version := Nat.le_antisymm (he ▸ hseen) ha.version
    rw [RecoveryState.Answers, ha.state heq] at hans
    refine hs (he.trans heq) (hans.imp_right ?_)
    rintro ⟨c, hcur, hfree⟩
    refine ⟨c, hcur, Bool.eq_false_iff.mpr fun hb => ?_⟩
    -- a connection that was of no use when it was read is of no use now
    simp [ha.cancelled c hcur hb] at hfree
  | reading | returned _ => trivial

theorem watches_borrow (h : p.borrow r = some q) : q.Watches r b := by
  cases p <;> simp only [borrow, Option.some.injEq, reduceCtorEq] at h
  subst h
  exact ⟨Nat.le_refl _, fun _ => rfl⟩

theorem Watches.check (hw : p.Watches r b) (h : p.check b = some q) : q.Watches r b := by
  cases p with
  | checking s seen =>
    obtain ⟨hseen, hs⟩ := hw
    cases s with
    | ready c =>
      simp only [Current.check, Option.some.injEq] at h
      split at h
      · rename_i hb
        subst h
        refine ⟨hseen, fun he hans => ?_⟩
        rw [RecoveryState.Answers, ← hs he] at hans
        simp [hb] at hans
      · subst h
        trivial
    | offline =>
      simp only [Current.check, Option.some.injEq] at h
      subst h
      refine ⟨hseen, fun he hans => ?_⟩
      rw [RecoveryState.Answers, ← hs he] at hans
      simp at hans
    | stopped =>
      simp only [Current.check, Option.some.injEq] at h
      subst h
      trivial
  | _ => simp [Current.check] at h

theorem watches_wake (h : p.wake r = some q) : q.Watches r b := by
  cases p with
  | waiting seen =>
    simp only [wake] at h
    split at h <;> cases h
    trivial
  | _ => simp [wake] at h

theorem Watches.moves (hw : p.Watches r b) (h : Moves r b p q) : q.Watches r b := by
  rcases h with h | h | h
  · exact watches_borrow h
  · exact hw.check h
  · exact watches_wake h

/-- Whoever waits although there is an answer has a notification outstanding. -/
theorem Watches.wake_enabled {seen : Nat} (hw : (waiting seen).Watches r b)
    (ha : r.state.Answers b) : (waiting seen).wake r = some .reading := by
  have hne : r.version ≠ seen := fun he => hw.2 he.symm ha
  simp [wake, hne]

/-- The value for which a task waits with no notification outstanding. -/
theorem Watches.useless {seen : Nat} (hw : (waiting seen).Watches r b) (he : seen = r.version) :
    r.state ≠ .stopped ∧ ∀ c, r.state = .ready c → b c = true := by
  refine ⟨fun hs => hw.2 he (.inl hs), fun c hs => ?_⟩
  cases hb : b c with
  | true => rfl
  | false => exact absurd (.inr ⟨c, hs, hb⟩) (hw.2 he)

end Current

namespace RecoverySystem

variable {ι : Type} [DecidableEq ι] {w w' : RecoverySystem ι} {a : RecoveryAction ι}

theorem advances_step (h : step w a = some w') (hn : Named w) :
    w.recovery.Advances w.cancelled w'.recovery w'.cancelled := by
  rcases step_shared h with ⟨hr, ht, _⟩ | ⟨hr, _, ht⟩ | ⟨_, _, _, _, hr, ht, _⟩ |
    ⟨_, hr, ht, _⟩ | ⟨hr, _, ht⟩ | ⟨hr, ht, _⟩ | ⟨d, _, hr, _, ht⟩
  · exact ⟨by simp [hr], by simp [hr], by simp [ht]⟩
  · refine ⟨by simp [hr], by simp [hr], fun c hc hb => ?_⟩
    rw [ht, Function.update_of_ne (Nat.ne_of_lt (hn.published c hc)), hb]
  · exact ⟨by simp [hr], by simp [hr], by simp [ht]⟩
  · exact ⟨by simp [hr], by simp [hr], by simp [ht]⟩
  · refine ⟨by simp [hr], by simp [hr], fun c _ hb => ?_⟩
    simp [ht, hb]
  · exact ⟨by simp [hr], by simp [hr], by simp [ht]⟩
  · refine ⟨by simp [hr], by simp [hr], fun c _ hb => ?_⟩
    by_cases he : c = d
    · simp [ht, he]
    · rw [ht, Function.update_of_ne he, hb]

theorem step_current {t : ι} {q : Current} (h : step w a = some w')
    (hq : w'.tasks t = .current q) :
    w.tasks t = .current q ∨ q = .reading ∨
      (w'.recovery = w.recovery ∧ w'.cancelled = w.cancelled ∧
        ∃ p, w.tasks t = .current p ∧ Current.Moves w.recovery w.cancelled p q) := by
  have other : ∀ {u : ι} {r : RecoveryTask}, r ≠ .current q →
      Function.update w.tasks u r t = .current q → w.tasks t = .current q := by
    intro u r hr hu
    by_cases he : t = u
    · rw [he, Function.update_self] at hu
      exact absurd hu hr
    · rwa [Function.update_of_ne he] at hu
  have moved : ∀ {u : ι} {f : Current → Option Current}, w.stepCurrent u f = some w' →
      w.tasks t = .current q ∨ (w'.recovery = w.recovery ∧ w'.cancelled = w.cancelled ∧
        ∃ p, w.tasks t = .current p ∧ f p = some q) := by
    intro u f hf
    obtain ⟨p, r, hp, hr, rfl⟩ := stepCurrent_eq hf
    by_cases he : t = u
    · subst he
      simp only [setTask, Function.update_self, RecoveryTask.current.injEq] at hq
      exact .inr ⟨rfl, rfl, p, hp, hq ▸ hr⟩
    · exact .inl (by simpa [setTask, Function.update_of_ne he] using hq)
  cases a with
  | borrow u =>
    rcases moved h with hs | ⟨hr, hc, p, hp, hf⟩
    · exact .inl hs
    · exact .inr (.inr ⟨hr, hc, p, hp, .inl hf⟩)
  | check u =>
    rcases moved h with hs | ⟨hr, hc, p, hp, hf⟩
    · exact .inl hs
    · exact .inr (.inr ⟨hr, hc, p, hp, .inr (.inl hf)⟩)
  | wake u =>
    rcases moved h with hs | ⟨hr, hc, p, hp, hf⟩
    · exact .inl hs
    · exact .inr (.inr ⟨hr, hc, p, hp, .inr (.inr hf)⟩)
  | current u =>
    simp only [step, Option.ite_none_right_eq_some, Option.some.injEq] at h
    obtain ⟨_, rfl⟩ := h
    by_cases he : t = u
    · subst he
      simp only [setTask, Function.update_self, RecoveryTask.current.injEq] at hq
      exact .inr (.inl hq.symm)
    · exact .inl (by simpa [setTask, Function.update_of_ne he] using hq)
  | beginCheck u =>
    simp only [step, Option.ite_none_right_eq_some, Option.some.injEq] at h
    obtain ⟨_, rfl⟩ := h
    exact .inl (other (by split <;> simp) hq)
  | beginCreate u | stopPublish u =>
    simp only [step] at h
    split at h <;> cases h
    exact .inl (other (by simp) hq)
  | connected u c | stopCancel u =>
    simp only [step, Option.ite_none_right_eq_some, Option.some.injEq] at h
    obtain ⟨_, rfl⟩ := h
    exact .inl (other (by simp) hq)
  | offline u | cancel c =>
    simp only [step, Option.ite_none_right_eq_some, Option.some.injEq] at h
    obtain ⟨_, rfl⟩ := h
    exact .inl hq

theorem watches_step {t : ι} {q : Current} (h : step w a = some w') (hn : Named w)
    (hw : ∀ t p, w.tasks t = .current p → p.Watches w.recovery w.cancelled)
    (hq : w'.tasks t = .current q) : q.Watches w'.recovery w'.cancelled := by
  rcases step_current h hq with hold | rfl | ⟨hr, hc, p, hp, hm⟩
  · exact (hw t q hold).advance (advances_step h hn)
  · trivial
  · rw [hr, hc]
    exact (hw t p hp).moves hm

theorem watches_of_reachable (h : (automaton ι).Reachable w) :
    ∀ t p, w.tasks t = .current p → p.Watches w.recovery w.cancelled := by
  refine h.invariant_of (fun _ hi => ?_) fun _ _ _ hr hs hw _ _ =>
    watches_step hs (named_of_reachable hr) hw
  simp only [automaton] at hi
  subst hi
  simp [new]

theorem wake_turn {t : ι} {seen : Nat} (h : (automaton ι).Reachable w)
    (ht : w.tasks t = .current (.waiting seen)) (ha : w.recovery.state.Answers w.cancelled) :
    (automaton ι).exec w [.wake t, .borrow t, .check t] =
      (Current.check w.cancelled (.checking w.recovery.state w.recovery.version)).map fun q =>
        w.setTask t (.current q) := by
  have hwake : step w (.wake t) = some (w.setTask t (.current .reading)) := by
    simp [step, stepCurrent, ht, (watches_of_reachable h t _ ht).wake_enabled ha]
  rw [Automaton.exec_cons hwake]
  cases hs : w.recovery.state <;>
    simp [Automaton.exec, automaton, step, stepCurrent, setTask, Current.borrow, Current.check, hs]

/-- A task parked in `changed()` with no notification outstanding waits for a value that is
neither `Stopped` nor an uncancelled connection. When there is such a value, the task can wake
up and, unless it is overtaken, returns with it. -/
theorem no_lost_wakeup {t : ι} {seen : Nat} (h : (automaton ι).Reachable w)
    (ht : w.tasks t = .current (.waiting seen)) :
    (seen = w.recovery.version →
      w.recovery.state ≠ .stopped ∧ ∀ c, w.recovery.state = .ready c → w.cancelled c = true) ∧
    (w.recovery.state = .stopped →
      (automaton ι).exec w [.wake t, .borrow t, .check t] =
        some (w.setTask t (.current (.returned (.error .connectionClosed))))) ∧
    (∀ c, w.recovery.state = .ready c → w.cancelled c = false →
      (automaton ι).exec w [.wake t, .borrow t, .check t] =
        some (w.setTask t (.current (.returned (.ok c))))) := by
  refine ⟨fun he => ?_, fun hs => ?_, fun c hs hb => ?_⟩
  · exact (watches_of_reachable h t _ ht).useless he
  · rw [wake_turn h ht (.inl hs), hs]
    rfl
  · rw [wake_turn h ht (.inr ⟨c, hs, hb⟩), hs]
    simp [Current.check, hb]

/-- A connection is published after the task has looked. -/
theorem no_lost_wakeup_published : ∃ w : RecoverySystem Nat,
    w.tasks 0 = .current (.waiting 0) ∧ w.recovery.version = 1 ∧
      (automaton Nat).exec w [.wake 0, .borrow 0, .check 0] =
        some (w.setTask 0 (.current (.returned (.ok 0)))) := by
  let run := (automaton Nat).exec new [.current 0, .borrow 0, .check 0, .beginCheck 1,
    .beginCreate 1, .connected 1 0]
  have hr : (automaton Nat).Reachable (run.get rfl) := Automaton.reachable_get rfl
  exact ⟨run.get rfl, rfl, rfl, (no_lost_wakeup hr rfl).2.2 0 rfl rfl⟩

end RecoverySystem

namespace Client

variable {setup : Setup} {w w' : Client} {a : ClientAction}

theorem recoveryAfter_advances {sh : Shared} {c : ConnId} {b : SessionAction}
    {cancelled : ConnId → Bool}
    (hc : ∀ d, sh.recovery.state = .ready d → sh.isCancelled d = true → cancelled d = true) :
    sh.recovery.Advances sh.isCancelled (sh.recoveryAfter c b) cancelled := by
  unfold Shared.recoveryAfter
  split
  · rcases sh.recovery.connected_cases c (sh.isCancelled c) with ⟨he, _⟩ | ⟨he, _⟩ <;> rw [he]
    · exact ⟨Nat.le_refl _, fun _ => rfl, hc⟩
    · exact ⟨Nat.le_succ _, fun h => by simp at h, hc⟩
  · rcases sh.recovery.offline_cases with ⟨he, _⟩ | ⟨he, _⟩ <;> rw [he]
    · exact ⟨Nat.le_refl _, fun _ => rfl, hc⟩
    · exact ⟨Nat.le_succ _, fun h => by simp at h, hc⟩
  · exact ⟨Nat.le_refl _, fun _ => rfl, hc⟩

theorem advances_change {sh sh' : Shared} (h : sh.Change setup sh') (hi : SharedInv setup sh) :
    sh.recovery.Advances sh.isCancelled sh'.recovery sh'.isCancelled := by
  have hc : ∀ c, sh.recovery.state = .ready c → sh.isCancelled c = true →
      sh'.isCancelled c = true := fun c hr =>
    ((shared_grows_change h hi).generation c (hi.ready c hr).1).cancelled
  cases h with
  | session c b s _ _ _ he =>
    subst he
    exact recoveryAfter_advances hc
  | publishStopped he =>
    subst he
    exact ⟨Nat.le_succ _, fun h => by simp [Shared.publishStopped] at h, hc⟩
  | begin _ he | cancelShutdown he | handlers he | lock _ he | cid _ he | quiet he =>
    subst he
    exact ⟨Nat.le_refl _, fun _ => rfl, hc⟩

theorem body_current {sh sh' : Shared} {snd snd' : Send} {b : SendBody} {q : Current}
    (h : SendStep setup sh snd sh' snd') (hp : snd.pc = .body b) (hq : snd'.pc = .current q) :
    q = .reading := by
  cases h with
  | takeCid now cid hpc _ => cases hp.symm.trans hpc
  | borrow hpc _ => cases hp.symm.trans hpc
  | wait state seen hpc _ _ => cases hp.symm.trans hpc
  | act b hpc _ => cases hpc.symm.trans hq
  | woken _ _ _ | retry _ _ _ _ _ _ => exact (SendPc.current.inj hq).symm
  | clock _ _ _ | handed _ _ _ _ _ | stopped _ _ _ | issue _ _ _ _ _ _ _ _ _ _
  | answer _ _ _ _ _ _ _ _ _ _ _ | turn _ _ _ _ | done _ _ _ _ | fail _ _ _ _ _ _ | drop _ =>
    cases hq

theorem send_current {sh sh' : Shared} {snd snd' : Send} {a : SendAction} {q : Current}
    (h : snd.step setup sh a = some (sh', snd')) (hq : snd'.pc = .current q) :
    q = .reading ∨ snd.pc = .current q ∨
      ∃ p, snd.pc = .current p ∧ Current.Moves sh.recovery sh.isCancelled p q := by
  have moved : ∀ {f : Current → Option Current}, snd.stepCurrent sh f = some (sh', snd') →
      ∃ p, snd.pc = .current p ∧ f p = some q := by
    intro f hf
    simp only [Send.stepCurrent] at hf
    split at hf
    · rename_i p hp
      obtain ⟨r, hr, he⟩ := Option.map_eq_some_iff.mp hf
      refine ⟨p, hp, hr.trans (congrArg some ?_)⟩
      split at he <;> cases he
      · cases hq
      · cases hq
      · exact SendPc.current.inj hq
    · cases hf
  cases send_turn h with
  | borrow h =>
    obtain ⟨p, hp, hf⟩ := moved h
    exact .inr (.inr ⟨p, hp, .inl hf⟩)
  | check h =>
    obtain ⟨p, hp, hf⟩ := moved h
    exact .inr (.inr ⟨p, hp, .inr (.inl hf)⟩)
  | wake h =>
    obtain ⟨p, hp, hf⟩ := moved h
    exact .inr (.inr ⟨p, hp, .inr (.inr hf)⟩)
  | clock _ _ | drop _ => cases hq
  | takeCid now hp => exact .inl (SendPc.current.inj hq).symm
  | body b hp h => exact .inl (body_current (send_stepBody hp h) hp hq)

theorem watches_step {i : SendId} {snd : Send} {q : Current} (h : w.step setup a = some w')
    (hi : ClientInv setup w) (hw : ∀ i snd p, w.sends i = some snd → snd.pc = .current p →
      p.Watches w.shared.recovery w.shared.isCancelled)
    (hs : w'.sends i = some snd) (hq : snd.pc = .current q) :
    q.Watches w'.shared.recovery w'.shared.isCancelled := by
  have hadv := advances_change ((client_step h).change hi.handles) hi.shared
  have old : w.sends i = some snd → q.Watches w'.shared.recovery w'.shared.isCancelled :=
    fun hold => (hw i snd q hold hq).advance hadv
  cases a with
  | startSend j job =>
    simp only [step] at h
    split at h <;> cases h
    rcases update_some hs with ⟨rfl, rfl⟩ | ⟨_, hold⟩
    · cases hq
    · exact old hold
  | send j b =>
    obtain ⟨m, hm, h⟩ := Option.bind_eq_some_iff.mp h
    obtain ⟨⟨sh, m'⟩, hstep, rfl⟩ := Option.map_eq_some_iff.mp h
    rcases update_some hs with ⟨rfl, rfl⟩ | ⟨_, hold⟩
    · rcases send_current hstep hq with rfl | hp | ⟨p, hp, hmove⟩
      · trivial
      · exact (hw i m q hm hp).advance hadv
      · exact ((hw i m p hm hp).moves hmove).advance hadv
    · exact old hold
  | startRun r | startDisconnect d =>
    simp only [step] at h
    split at h <;> cases h
    exact old hs
  | run r b | disconnect d b =>
    obtain ⟨m, hm, h⟩ := Option.bind_eq_some_iff.mp h
    obtain ⟨out, _, rfl⟩ := Option.map_eq_some_iff.mp h
    exact old hs
  | worker c b =>
    simp only [step, Option.ite_none_right_eq_some] at h
    obtain ⟨_, h⟩ := h
    obtain ⟨sh, _, rfl⟩ := Option.map_eq_some_iff.mp h
    exact old hs

theorem watches_of_reachable (h : (automaton setup).Reachable w) :
    ∀ i snd p, w.sends i = some snd → snd.pc = .current p →
      p.Watches w.shared.recovery w.shared.isCancelled := by
  refine h.invariant_of (fun w hw => ?_) fun _ _ _ hr hs hw _ _ _ =>
    watches_step hs (clientInv_of_reachable hr) hw
  obtain ⟨millis, rfl⟩ := hw
  simp [new]

/-- No send of the client sleeps while there is an answer for it. -/
theorem send_wakes {i : SendId} {snd : Send} {seen : Nat} (h : (automaton setup).Reachable w)
    (hs : w.sends i = some snd) (hp : snd.pc = .current (.waiting seen))
    (ha : w.shared.recovery.state.Answers w.shared.isCancelled) :
    ∃ w', w.step setup (.send i .wake) = some w' ∧
      w'.sends i = some (snd.goto (.current .reading)) := by
  have hwake := (watches_of_reachable h i snd _ hs hp).wake_enabled ha
  simp [step, hs, Send.step, Send.stepCurrent, hp, hwake]

end Client

end Maxrs
