import Maxrs.Recovery
set_option autoImplicit false

namespace Maxrs

inductive RecoveryTask where
  | idle
  /-- In `begin_attempt`, past the check of the shutdown token. -/
  | beginning
  | began (result : Except Error ConnId)
  | published (result : Except Error Unit)
  | current (at_ : Current)
  /-- In `stop`, between its two steps. -/
  | stopping

def RecoveryTask.free : RecoveryTask → Bool
  | .idle | .began _ | .published _ | .current (.returned _) => true
  | _ => false

/-- Any number of tasks of type `ι` over one `Recovery`, with the tokens of all connections. -/
structure RecoverySystem (ι : Type) where
  recovery : Recovery
  created : Nat
  cancelled : ConnId → Bool
  tasks : ι → RecoveryTask

inductive RecoveryAction (ι : Type) where
  | beginCheck (t : ι)
  | beginCreate (t : ι)
  | connected (t : ι) (c : ConnId)
  | offline (t : ι)
  | current (t : ι)
  | borrow (t : ι)
  | check (t : ι)
  | wake (t : ι)
  | stopCancel (t : ι)
  | stopPublish (t : ι)
  | cancel (c : ConnId)

namespace RecoverySystem

variable {ι : Type} [DecidableEq ι]

def new : RecoverySystem ι where
  recovery := .new
  created := 0
  cancelled := fun _ => false
  tasks := fun _ => .idle

def setTask (w : RecoverySystem ι) (t : ι) (p : RecoveryTask) : RecoverySystem ι :=
  { w with tasks := Function.update w.tasks t p }

def stepCurrent (w : RecoverySystem ι) (t : ι) (f : Current → Option Current) :
    Option (RecoverySystem ι) :=
  match w.tasks t with
  | .current p => (f p).map fun q => w.setTask t (.current q)
  | _ => none

def step (w : RecoverySystem ι) : RecoveryAction ι → Option (RecoverySystem ι)
  | .beginCheck t =>
    if (w.tasks t).free then
      some (w.setTask t
        (if w.recovery.shutdown then .began (.error .connectionClosed) else .beginning))
    else none
  | .beginCreate t =>
    match w.tasks t with
    -- `child_token()`: cancelled from the start when its parent already is
    | .beginning => some
        { w.setTask t (.began (.ok w.created)) with
          created := w.created + 1
          cancelled := Function.update w.cancelled w.created w.recovery.shutdown }
    | _ => none
  | .connected t c =>
    if (w.tasks t).free && decide (c < w.created) then
      let out := w.recovery.connected c (w.cancelled c)
      some { w.setTask t (.published out.2) with recovery := out.1 }
    else none
  | .offline t =>
    if (w.tasks t).free then some { w with recovery := w.recovery.offline } else none
  | .current t =>
    if (w.tasks t).free then some (w.setTask t (.current .reading)) else none
  | .borrow t => w.stepCurrent t (Current.borrow w.recovery)
  | .check t => w.stepCurrent t (Current.check w.cancelled)
  | .wake t => w.stepCurrent t (Current.wake w.recovery)
  | .stopCancel t =>
    if (w.tasks t).free then
      some { w.setTask t .stopping with
        recovery := w.recovery.cancelShutdown
        cancelled := fun c => w.cancelled c || decide (c < w.created) }
    else none
  | .stopPublish t =>
    match w.tasks t with
    | .stopping => some { w.setTask t .idle with recovery := w.recovery.publishStopped }
    | _ => none
  | .cancel c =>
    if c < w.created then some { w with cancelled := Function.update w.cancelled c true } else none

def automaton (ι : Type) [DecidableEq ι] : Automaton (RecoverySystem ι) (RecoveryAction ι) where
  init := fun w => w = new
  step := step

variable {w w' : RecoverySystem ι} {a : RecoveryAction ι}

theorem stepCurrent_eq {t : ι} {f : Current → Option Current}
    (h : w.stepCurrent t f = some w') :
    ∃ p q, w.tasks t = .current p ∧ f p = some q ∧ w' = w.setTask t (.current q) := by
  unfold stepCurrent at h
  split at h
  · rename_i p hp
    obtain ⟨q, hq, rfl⟩ := Option.map_eq_some_iff.mp h
    exact ⟨p, q, hp, hq, rfl⟩
  · cases h

theorem step_shared (h : step w a = some w') :
    (w'.recovery = w.recovery ∧ w'.cancelled = w.cancelled ∧ w'.created = w.created) ∨
    (w'.recovery = w.recovery ∧ w'.created = w.created + 1 ∧
      w'.cancelled = Function.update w.cancelled w.created w.recovery.shutdown) ∨
    (∃ c, c < w.created ∧ w.cancelled c = false ∧ w.recovery.state ≠ .stopped ∧
      w'.recovery = w.recovery.publish (.ready c) ∧ w'.cancelled = w.cancelled ∧
      w'.created = w.created) ∨
    (w.recovery.state ≠ .stopped ∧ w'.recovery = w.recovery.publish .offline ∧
      w'.cancelled = w.cancelled ∧ w'.created = w.created) ∨
    (w'.recovery = w.recovery.cancelShutdown ∧ w'.created = w.created ∧
      w'.cancelled = fun c => w.cancelled c || decide (c < w.created)) ∨
    (w'.recovery = w.recovery.publishStopped ∧ w'.cancelled = w.cancelled ∧
      w'.created = w.created) ∨
    (∃ c, c < w.created ∧ w'.recovery = w.recovery ∧ w'.created = w.created ∧
      w'.cancelled = Function.update w.cancelled c true) := by
  cases a with
  | beginCheck t | current t =>
    simp only [step, Option.ite_none_right_eq_some, Option.some.injEq] at h
    obtain ⟨_, rfl⟩ := h
    exact .inl ⟨rfl, rfl, rfl⟩
  | beginCreate t =>
    simp only [step] at h
    split at h <;> cases h
    exact .inr (.inl ⟨rfl, rfl, rfl⟩)
  | connected t c =>
    simp only [step, Option.ite_none_right_eq_some, Option.some.injEq, Bool.and_eq_true,
      decide_eq_true_eq] at h
    obtain ⟨⟨_, hc⟩, rfl⟩ := h
    rcases w.recovery.connected_cases c (w.cancelled c) with ⟨he, _⟩ | ⟨he, hs, hb⟩
    · exact .inl ⟨by rw [he], rfl, rfl⟩
    · exact .inr (.inr (.inl ⟨c, hc, hb, hs, by rw [he], rfl, rfl⟩))
  | offline t =>
    simp only [step, Option.ite_none_right_eq_some, Option.some.injEq] at h
    obtain ⟨_, rfl⟩ := h
    rcases w.recovery.offline_cases with ⟨he, _⟩ | ⟨he, hs⟩
    · exact .inl ⟨he, rfl, rfl⟩
    · exact .inr (.inr (.inr (.inl ⟨hs, he, rfl, rfl⟩)))
  | borrow t | check t | wake t =>
    obtain ⟨p, q, _, _, rfl⟩ := stepCurrent_eq h
    exact .inl ⟨rfl, rfl, rfl⟩
  | stopCancel t =>
    simp only [step, Option.ite_none_right_eq_some, Option.some.injEq] at h
    obtain ⟨_, rfl⟩ := h
    exact .inr (.inr (.inr (.inr (.inl ⟨rfl, rfl, rfl⟩))))
  | stopPublish t =>
    simp only [step] at h
    split at h <;> cases h
    exact .inr (.inr (.inr (.inr (.inr (.inl ⟨rfl, rfl, rfl⟩)))))
  | cancel c =>
    simp only [step, Option.ite_none_right_eq_some, Option.some.injEq] at h
    obtain ⟨hc, rfl⟩ := h
    exact .inr (.inr (.inr (.inr (.inr (.inr ⟨c, hc, rfl, rfl, rfl⟩)))))

def TokensFollow (w : RecoverySystem ι) : Prop :=
  w.recovery.shutdown = true → ∀ c, c < w.created → w.cancelled c = true

theorem tokensFollow_step (h : step w a = some w') (hw : TokensFollow w) : TokensFollow w' := by
  intro hs c hc
  rcases step_shared h with ⟨hr, ht, hn⟩ | ⟨hr, hn, ht⟩ | ⟨d, _, _, _, hr, ht, hn⟩ |
    ⟨_, hr, ht, hn⟩ | ⟨hr, hn, ht⟩ | ⟨hr, ht, hn⟩ | ⟨d, _, hr, hn, ht⟩
  · exact ht ▸ hw (hr ▸ hs) c (hn ▸ hc)
  · rw [hr] at hs
    rw [ht]
    by_cases he : c = w.created
    · simp [he, hs]
    · rw [Function.update_of_ne he]
      exact hw hs c (by omega)
  · exact ht ▸ hw (by simpa [hr] using hs) c (hn ▸ hc)
  · exact ht ▸ hw (by simpa [hr] using hs) c (hn ▸ hc)
  · simp only [ht, Bool.or_eq_true, decide_eq_true_eq]
    exact .inr (hn ▸ hc)
  · exact ht ▸ hw (by simpa [hr] using hs) c (hn ▸ hc)
  · rw [ht]
    by_cases he : c = d
    · simp [he]
    · rw [Function.update_of_ne he]
      exact hw (hr ▸ hs) c (hn ▸ hc)

theorem tokensFollow_of_reachable (h : (automaton ι).Reachable w) : TokensFollow w :=
  h.invariant
    (fun _ hi hs => by simp only [automaton] at hi; subst hi; simp [new, Recovery.new] at hs)
    fun _ _ _ => tokensFollow_step

theorem stopped_step (h : step w a = some w') (hs : w.recovery.state = .stopped) :
    w'.recovery.state = .stopped := by
  rcases step_shared h with ⟨hr, _⟩ | ⟨hr, _⟩ | ⟨_, _, _, hn, _⟩ | ⟨hn, _⟩ | ⟨hr, _⟩ |
    ⟨hr, _⟩ | ⟨_, _, hr, _⟩
  · rw [hr, hs]
  · rw [hr, hs]
  · exact absurd hs hn
  · exact absurd hs hn
  · rw [hr, Recovery.cancelShutdown_state, hs]
  · rw [hr, Recovery.publishStopped_state]
  · rw [hr, hs]

theorem shutdown_step (h : step w a = some w') (hs : w.recovery.shutdown = true) :
    w'.recovery.shutdown = true := by
  rcases step_shared h with ⟨hr, _⟩ | ⟨hr, _⟩ | ⟨_, _, _, _, hr, _⟩ | ⟨_, hr, _⟩ | ⟨hr, _⟩ |
    ⟨hr, _⟩ | ⟨_, _, hr, _⟩ <;> simp [hr, hs]

theorem connected_fails {t : ι} {c : ConnId} (h : step w (.connected t c) = some w')
    (hc : w.cancelled c = true) :
    w'.recovery = w.recovery ∧ w'.tasks t = .published (.error .connectionClosed) := by
  simp only [step, Option.ite_none_right_eq_some, Option.some.injEq] at h
  obtain ⟨_, rfl⟩ := h
  simp [hc, Recovery.connected_cancelled, setTask]

structure Named (w : RecoverySystem ι) : Prop where
  published : ∀ c, w.recovery.state = .ready c → c < w.created
  borrowed : ∀ t c seen, w.tasks t = .current (.checking (.ready c) seen) → c < w.created

theorem setTask_borrowed {t u : ι} {p : RecoveryTask} {c : ConnId} {seen : Nat}
    (hp : ∀ c seen, p ≠ .current (.checking (.ready c) seen))
    (h : (w.setTask t p).tasks u = .current (.checking (.ready c) seen)) :
    w.tasks u = .current (.checking (.ready c) seen) := by
  by_cases he : u = t
  · subst he
    simp only [setTask, Function.update_self] at h
    exact absurd h (hp c seen)
  · simpa [setTask, Function.update_of_ne he] using h

theorem named_borrow {t : ι} (h : step w (.borrow t) = some w') (hw : Named w) : Named w' := by
  obtain ⟨p, q, _, hq, rfl⟩ := stepCurrent_eq h
  refine ⟨hw.published, fun u c seen hu => ?_⟩
  by_cases he : u = t
  · subst he
    simp only [setTask, Function.update_self, RecoveryTask.current.injEq] at hu
    subst hu
    cases p <;> simp only [Current.borrow, Option.some.injEq, Current.checking.injEq,
      reduceCtorEq] at hq
    exact hw.published c hq.1
  · exact hw.borrowed u c seen (by simpa [setTask, Function.update_of_ne he] using hu)

theorem named_move {t : ι} {f : Current → Option Current}
    (hf : ∀ p s seen, f p ≠ some (.checking s seen)) (h : w.stepCurrent t f = some w')
    (hw : Named w) : Named w' := by
  obtain ⟨p, q, _, hq, rfl⟩ := stepCurrent_eq h
  refine ⟨hw.published, fun u c seen hu => hw.borrowed u c seen (setTask_borrowed ?_ hu)⟩
  rintro c seen heq
  simp only [RecoveryTask.current.injEq] at heq
  exact hf p _ _ (heq ▸ hq)

theorem named_step (h : step w a = some w') (hw : Named w) : Named w' := by
  cases a with
  | borrow t => exact named_borrow h hw
  | check t =>
    refine named_move (fun p s seen hp => ?_) h hw
    cases p with
    | checking state _ => cases state <;> simp [Current.check] at hp; split at hp <;> simp at hp
    | _ => simp [Current.check] at hp
  | wake t =>
    refine named_move (fun p s seen hp => ?_) h hw
    cases p <;> simp [Current.wake] at hp
  | beginCheck t | current t =>
    simp only [step, Option.ite_none_right_eq_some, Option.some.injEq] at h
    obtain ⟨_, rfl⟩ := h
    refine ⟨hw.published, fun u c seen hu => hw.borrowed u c seen (setTask_borrowed ?_ hu)⟩
    intro c seen
    first | (split <;> simp) | simp
  | beginCreate t =>
    simp only [step] at h
    split at h <;> cases h
    refine ⟨fun c hc => Nat.lt_succ_of_lt (hw.published c hc), fun u c seen hu => ?_⟩
    exact Nat.lt_succ_of_lt (hw.borrowed u c seen (setTask_borrowed (by simp) hu))
  | connected t c =>
    simp only [step, Option.ite_none_right_eq_some, Option.some.injEq, Bool.and_eq_true,
      decide_eq_true_eq] at h
    obtain ⟨⟨_, hc⟩, rfl⟩ := h
    refine ⟨fun d hd => ?_,
      fun u d seen hu => hw.borrowed u d seen (setTask_borrowed (by simp) hu)⟩
    rcases w.recovery.connected_cases c (w.cancelled c) with ⟨he, _⟩ | ⟨he, _⟩
    · exact hw.published d (by simpa [he] using hd)
    · simp only [he, Recovery.publish_state, RecoveryState.ready.injEq] at hd
      exact hd ▸ hc
  | offline t =>
    simp only [step, Option.ite_none_right_eq_some, Option.some.injEq] at h
    obtain ⟨_, rfl⟩ := h
    refine ⟨fun c hc => ?_, hw.borrowed⟩
    rcases w.recovery.offline_cases with ⟨he, hs⟩ | ⟨he, _⟩ <;> simp_all
  | stopCancel t =>
    simp only [step, Option.ite_none_right_eq_some, Option.some.injEq] at h
    obtain ⟨_, rfl⟩ := h
    exact ⟨hw.published, fun u c seen hu => hw.borrowed u c seen (setTask_borrowed (by simp) hu)⟩
  | stopPublish t =>
    simp only [step] at h
    split at h <;> cases h
    refine ⟨fun c hc => by simp at hc, fun u c seen hu => ?_⟩
    exact hw.borrowed u c seen (setTask_borrowed (by simp) hu)
  | cancel c =>
    simp only [step, Option.ite_none_right_eq_some, Option.some.injEq] at h
    obtain ⟨_, rfl⟩ := h
    exact ⟨hw.published, hw.borrowed⟩

theorem named_of_reachable (h : (automaton ι).Reachable w) : Named w := by
  refine h.invariant (fun _ hi => ?_) fun _ _ _ => named_step
  simp only [automaton] at hi
  subst hi
  exact ⟨by simp [new, Recovery.new], by simp [new]⟩

/-- Once published, `Stopped` stays. From the moment the shutdown token is cancelled every
connection that was or will be made is cancelled, `connected` fails and changes nothing, and
no readiness check lets `current` return a connection. -/
theorem shutdown_is_terminal (hr : (automaton ι).Reachable w) (hp : (automaton ι).Leads w w') :
    (w.recovery.state = .stopped → w'.recovery.state = .stopped) ∧
    (w.recovery.shutdown = true →
      (∀ c, c < w'.created → w'.cancelled c = true) ∧
      (∀ t c w'', step w' (.connected t c) = some w'' →
        w''.recovery = w'.recovery ∧ w''.tasks t = .published (.error .connectionClosed)) ∧
      (∀ t c w'', step w' (.check t) = some w'' →
        w''.tasks t ≠ .current (.returned (.ok c)))) := by
  refine ⟨fun hs => hp.preserves (fun _ _ _ _ => stopped_step) hs, fun hs => ?_⟩
  have hr' : (automaton ι).Reachable w' := hr.path hp
  have hs' : w'.recovery.shutdown = true := hp.preserves (fun _ _ _ _ => shutdown_step) hs
  have hall := tokensFollow_of_reachable hr' hs'
  refine ⟨hall, fun t c w'' h => connected_fails h (hall c ?_), fun t c w'' h hc => ?_⟩
  · simp only [step, Option.ite_none_right_eq_some, Bool.and_eq_true, decide_eq_true_eq] at h
    exact h.1.2
  · obtain ⟨p, q, hp', hq, rfl⟩ := stepCurrent_eq h
    simp only [setTask, Function.update_self, RecoveryTask.current.injEq] at hc
    subst hc
    obtain ⟨hfree, seen, rfl⟩ := Current.check_ok hq
    have hlt := (named_of_reachable hr').borrowed t c seen hp'
    simp [hall c hlt] at hfree

/-- A connection whose creation races with `stop`: made once `Stopped` is published. -/
theorem shutdown_is_terminal_race : ∃ w w' : RecoverySystem Nat,
    w.recovery.shutdown = true ∧ w.recovery.state = .stopped ∧ w'.created = 1 ∧
    w'.recovery.state = .stopped ∧ (∀ c, c < w'.created → w'.cancelled c = true) ∧
    ∀ w'', step w' (.connected 0 0) = some w'' →
      w''.tasks 0 = .published (.error .connectionClosed) := by
  let before := (automaton Nat).exec new [.beginCheck 0, .stopCancel 1, .stopPublish 1]
  let after := (automaton Nat).step (before.get rfl) (.beginCreate 0)
  have hr : (automaton Nat).Reachable (before.get rfl) :=
    Automaton.reachable_get rfl
  have hp : (automaton Nat).Leads (before.get rfl) (after.get rfl) :=
    .single trivial (Option.some_get _).symm
  obtain ⟨hstopped, hshut⟩ := shutdown_is_terminal hr hp
  obtain ⟨hall, hconnected, -⟩ := hshut rfl
  exact ⟨before.get rfl, after.get rfl, rfl, rfl, rfl, hstopped rfl, hall,
    fun w'' h => (hconnected 0 0 w'' h).2⟩

end RecoverySystem

end Maxrs
