import Maxrs.Kit.Backoff
import Maxrs.Kit.History
import Maxrs.Kit.Observe
import Maxrs.Owners
set_option autoImplicit false

/-! `run_loop`: when it begins another attempt, how long it sleeps before, and what it
returns. -/
namespace Maxrs

abbrev AttemptOutcome := Except Error Unit × Option Nat

inductive LoopEvent where
  /-- A look at `recovery.shutdown`, with what it showed. -/
  | looked (shutdown : Bool)
  | started
  | ended (outcome : AttemptOutcome)
  /-- What `backoff.next_delay()` returned. -/
  | delayed (delay : Nat)
  | returned (result : Except Error Unit)

namespace LoopEvent

def outcome? : LoopEvent → Option AttemptOutcome
  | .ended o => some o
  | _ => none

def isStart : LoopEvent → Bool
  | .started => true
  | _ => false

def outcomes (log : List LoopEvent) : List AttemptOutcome := log.filterMap outcome?

def starts (log : List LoopEvent) : Nat := log.countP isStart

theorem outcomes_snoc (log : List LoopEvent) (e : LoopEvent) :
    outcomes (log ++ [e]) = outcomes log ++ e.outcome?.toList := by
  cases h : e.outcome? <;> simp [outcomes, h]

theorem starts_snoc (log : List LoopEvent) (e : LoopEvent) :
    starts (log ++ [e]) = starts log + if e.isStart then 1 else 0 := by
  simp [starts, List.countP_append, List.countP_singleton]

@[simp] theorem outcomes_looked (log : List LoopEvent) (b : Bool) :
    outcomes (log ++ [.looked b]) = outcomes log := by simp [outcomes_snoc, outcome?]

@[simp] theorem outcomes_started (log : List LoopEvent) :
    outcomes (log ++ [.started]) = outcomes log := by simp [outcomes_snoc, outcome?]

@[simp] theorem outcomes_ended (log : List LoopEvent) (o : AttemptOutcome) :
    outcomes (log ++ [.ended o]) = outcomes log ++ [o] := by simp [outcomes_snoc, outcome?]

@[simp] theorem outcomes_delayed (log : List LoopEvent) (delay : Nat) :
    outcomes (log ++ [.delayed delay]) = outcomes log := by simp [outcomes_snoc, outcome?]

@[simp] theorem starts_looked (log : List LoopEvent) (b : Bool) :
    starts (log ++ [.looked b]) = starts log := by simp [starts_snoc, isStart]

@[simp] theorem starts_started (log : List LoopEvent) :
    starts (log ++ [.started]) = starts log + 1 := by simp [starts_snoc, isStart]

@[simp] theorem starts_ended (log : List LoopEvent) (o : AttemptOutcome) :
    starts (log ++ [.ended o]) = starts log := by simp [starts_snoc, isStart]

@[simp] theorem starts_delayed (log : List LoopEvent) (delay : Nat) :
    starts (log ++ [.delayed delay]) = starts log := by simp [starts_snoc, isStart]

end LoopEvent

open LoopEvent

def mayRetry : Except Error Unit → Bool
  | .ok () => true
  | .error error => shouldRetryConnection error

def wasHealthy (o : AttemptOutcome) : Bool :=
  match o.2 with
  | some connectedFor => HEALTHY_CONNECTION_INTERVAL ≤ connectedFor
  | none => false

/-- `2 ^ j` seconds up to the maximum, where `j` counts the attempts after the last healthy one,
or all but the first. -/
def scheduledDelay (os : List AttemptOutcome) : Nat :=
  Backoff.delay MAX_RECONNECT_DELAY (Backoff.exponent wasHealthy os)

def Scheduled (before : List LoopEvent) : LoopEvent → Prop
  | .looked _ => True
  | .started => (∀ e ∈ before, e ≠ .looked true ∧ ∀ result, e ≠ .returned result) ∧
      starts before = (outcomes before).length ∧ ∀ o ∈ outcomes before, mayRetry o.1
  | .ended _ => starts before = (outcomes before).length + 1
  | .delayed delay => starts before = (outcomes before).length ∧ outcomes before ≠ [] ∧
      delay = scheduledDelay (outcomes before)
  | .returned (.ok ()) => .looked true ∈ before
  | .returned (.error error) => .looked true ∉ before ∧ shouldRetryConnection error = false ∧
      starts before = (outcomes before).length ∧
      ∃ earlier connectedFor, outcomes before = earlier ++ [(.error error, connectedFor)]

def Session.outcome (s : Session) (elapsed : Nat) : Option AttemptOutcome :=
  match s.phase with
  | .offline result => some (result, if s.connectedAt then some elapsed else none)
  | _ => none

def Runner.ending (run : Runner) : List LoopEvent :=
  match run.pc with
  | .finished result => [.returned result]
  | _ => []

def Runner.events (sh : Shared) (run run' : Runner) : LoopAction → List LoopEvent
  | .checkTop | .beginCheck | .sleepPoll => .looked sh.recovery.shutdown :: run'.ending
  | .beginCreate => [.started]
  | .offline elapsed =>
    match run.pc with
    | .attempt c => ((sh.sessions c).outcome elapsed).toList.map .ended
    | _ => []
  | .after =>
    .looked sh.recovery.shutdown ::
      match run'.pc with
      | .sleeping _ => [.delayed run.delay]
      | _ => run'.ending
  | _ => []

def Run.runner (run : Run) : Option Runner :=
  match run.supervisor with
  | .looping runner => some runner
  | _ => none

namespace Client

def runner (w : Client) (r : RunId) : Option Runner := (w.runs r).bind Run.runner

def loopEvents (r : RunId) (w : Client) (a : ClientAction) (w' : Client) : List LoopEvent :=
  match a with
  | .run q (.loop b) =>
    if q = r then
      match w.runner r, w'.runner r with
      | some run, some run' => run.events w.shared run' b
      | _, _ => []
    else []
  | _ => []

def loopLog (setup : Setup) (w : Client) (acts : List ClientAction) (r : RunId) :
    List LoopEvent :=
  (Client.automaton setup).observe (loopEvents r) w acts

end Client

def Phase.settled : Phase → Option (Except Error Unit)
  | .attempting _ | .offline _ => none
  | .cancelling r | .aborting r | .joining r | .clearing r | .takingSink r | .over r => some r

namespace Session

variable {fromStr : String → Except String Packet} {s s' : Session}

theorem Change.settled (h : Change fromStr s s') (hp : ∀ r, s.phase ≠ .offline r) :
    s'.phase.settled = s.phase.settled := by
  cases h with
  | foreign _ g _ _ _ he =>
    subst he
    rfl
  | offline r hr => exact absurd hr (hp r)
  | flags _ _ hp _ _ he | issue _ _ _ _ _ hp _ _ _ he | answer _ _ _ _ _ _ hp _ _ he
  | recv _ _ _ hp _ _ _ he | drop _ _ _ _ hp _ he _ | cancel _ _ hp _ he
  | abortAll _ _ hp _ he | join _ hp _ _ he | clear _ _ hp _ he | takeSink _ _ hp _ he =>
    subst he
    rw [hp]
    rfl

theorem step_settled {b : SessionAction} (h : s.step fromStr b = some s')
    (hb : b ≠ .close .offline) : s'.phase.settled = s.phase.settled := by
  by_cases hp : ∃ r, s.phase = .offline r
  · obtain ⟨r, hp⟩ := hp
    cases b with
    | worker _ | sender _ | shutdown => rw [step_phase rfl h]
    | poll => simp [step, poll, hp] at h
    | park => simp [step, park, hp] at h
    | attempt _ => simp [step, hp] at h
    | finish => simp [step, finish, hp] at h
    | close act =>
      cases act with
      | offline => exact absurd rfl hb
      | _ => simp [step, stepClose, hp] at h
  · exact (change_step h).settled fun r hr => hp ⟨r, hr⟩

end Session

def GoingOn (log : List LoopEvent) : Prop :=
  ∀ e ∈ log, e ≠ .looked true ∧ ∀ result, e ≠ .returned result

structure Pausing (log : List LoopEvent) (delay : Nat) : Prop where
  goingOn : GoingOn log
  starts : starts log = (outcomes log).length
  retry : ∀ o ∈ outcomes log, mayRetry o.1
  delay : delay = Backoff.delay MAX_RECONNECT_DELAY (Backoff.pending wasHealthy (outcomes log))

structure Underway (log : List LoopEvent) (delay : Nat) : Prop where
  goingOn : GoingOn log
  starts : starts log = (outcomes log).length + 1
  retry : ∀ o ∈ outcomes log, mayRetry o.1
  delay : delay = Backoff.delay MAX_RECONNECT_DELAY (Backoff.pending wasHealthy (outcomes log))

/-- From `offline()` to the look at the result. -/
structure Settled (log : List LoopEvent) (delay : Nat) (result : Except Error Unit) : Prop where
  goingOn : GoingOn log
  starts : starts log = (outcomes log).length
  last : ∃ earlier connectedFor, outcomes log = earlier ++ [(result, connectedFor)] ∧
    ∀ o ∈ earlier, mayRetry o.1
  delay : delay = scheduledDelay (outcomes log)

def Standing (log : List LoopEvent) (sh : Shared) (run : Runner) : Prop :=
  match run.pc with
  | .top | .begin | .create | .sleeping _ => Pausing log run.delay
  | .attempt c =>
    match (sh.sessions c).phase.settled with
    | none => Underway log run.delay
    | some result => Settled log run.delay result
  | .finished _ => True

variable {log : List LoopEvent} {delay : Nat} {result : Except Error Unit}

theorem GoingOn.snoc {e : LoopEvent} (h : GoingOn log) (hl : e ≠ .looked true)
    (hr : ∀ result, e ≠ .returned result) : GoingOn (log ++ [e]) := by
  intro d hd
  rcases List.mem_append.mp hd with hd | hd
  · exact h d hd
  · rw [List.mem_singleton.mp hd]
    exact ⟨hl, hr⟩

theorem Pausing.look (h : Pausing log delay) : Pausing (log ++ [.looked false]) delay :=
  ⟨h.goingOn.snoc (by simp) (by simp), by simpa using h.starts, by simpa using h.retry,
    by simpa using h.delay⟩

theorem Settled.look (h : Settled log delay result) :
    Settled (log ++ [.looked false]) delay result :=
  ⟨h.goingOn.snoc (by simp) (by simp), by simpa using h.starts, by simpa using h.last,
    by simpa using h.delay⟩

theorem Pausing.start (h : Pausing log delay) : Underway (log ++ [.started]) delay :=
  ⟨h.goingOn.snoc (by simp) (by simp), by simpa using h.starts, by simpa using h.retry,
    by simpa using h.delay⟩

theorem Underway.settle (h : Underway log delay) (connectedFor : Option Nat) {delay' : Nat}
    (hd : delay' = if wasHealthy (result, connectedFor) then INITIAL_RECONNECT_DELAY else delay) :
    Settled (log ++ [.ended (result, connectedFor)]) delay' result := by
  refine ⟨h.goingOn.snoc (by simp) (by simp), by simpa using h.starts,
    ⟨_, _, outcomes_ended .., h.retry⟩, ?_⟩
  rw [hd, outcomes_ended, scheduledDelay]
  split
  · rename_i hh
    rw [Backoff.exponent_of_reset hh, Backoff.delay_zero (by decide)]
    rfl
  · rename_i hh
    rw [Backoff.exponent_of_not_reset (by simpa using hh), h.delay]

theorem Settled.ne_nil (h : Settled log delay result) : outcomes log ≠ [] := by
  obtain ⟨earlier, connectedFor, ho, -⟩ := h.last
  simp [ho]

theorem Settled.retry (h : Settled log delay result) (hr : mayRetry result) :
    Pausing (log ++ [.delayed delay]) (nextDelay delay) := by
  refine ⟨h.goingOn.snoc (by simp) (by simp), by simpa using h.starts, fun o hmem => ?_, ?_⟩
  · obtain ⟨earlier, connectedFor, hl, hearlier⟩ := h.last
    rw [outcomes_delayed, hl, List.mem_append, List.mem_singleton] at hmem
    rcases hmem with hmem | rfl
    · exact hearlier o hmem
    · exact hr
  · rw [outcomes_delayed, Backoff.pending_of_ne_nil h.ne_nil, ← Backoff.delay_succ, nextDelay,
      h.delay]
    rfl

theorem Standing.session {sh sh' : Shared} {run run' : Runner} {c : ConnId}
    (h : Standing log sh run) (hp : run.pc = .attempt c) (hp' : run'.pc = .attempt c)
    (hd : run'.delay = run.delay)
    (hs : (sh'.sessions c).phase.settled = (sh.sessions c).phase.settled) :
    Standing log sh' run' := by
  simp only [Standing, hp] at h
  simp only [Standing, hp', hs, hd]
  exact h

theorem justified_look (hj : History.Justified Scheduled log) (b : Bool) :
    History.Justified Scheduled (log ++ [.looked b]) := History.justified_snoc hj trivial

/-- A look at the token that shows the shutdown ends the loop. -/
theorem justified_stop (hj : History.Justified Scheduled log) :
    History.Justified Scheduled (log ++ [.looked true, .returned (.ok ())]) := by
  have hr : Scheduled (log ++ [.looked true]) (.returned (.ok ())) := by simp [Scheduled]
  simpa using History.justified_snoc (justified_look hj true) hr

theorem not_mem_of_goingOn (h : GoingOn log) : .looked true ∉ log :=
  fun hm => (h _ hm).1 rfl

section runner

variable {setup : Setup} {sh sh' : Shared} {run run' : Runner}

theorem ending_looked : .looked true ∉ run.ending := by
  unfold Runner.ending
  split <;> simp

theorem events_looked {a : LoopAction} (h : .looked true ∈ run.events sh run' a) :
    sh.recovery.shutdown = true := by
  cases a with
  | checkTop | beginCheck | sleepPoll =>
    rcases List.mem_cons.mp h with h | h
    · cases hs : sh.recovery.shutdown with
      | true => rfl
      | false => simp [hs] at h
    · exact absurd h ending_looked
  | after =>
    rcases List.mem_cons.mp h with h | h
    · cases hs : sh.recovery.shutdown with
      | true => rfl
      | false => simp [hs] at h
    · split at h
      · simp at h
      · exact absurd h ending_looked
  | offline elapsed =>
    simp only [Runner.events] at h
    split at h <;> simp at h
  | beginCreate => simp [Runner.events] at h
  | _ => cases h

theorem standing_session {c : ConnId} {b : SessionAction} {s : Session}
    (hs : Standing log sh run) (hp : run.pc = .attempt c)
    (hstep : (sh.sessions c).step setup.fromStr b = some s) (hb : b ≠ .close .offline)
    (hse : sh'.sessions = (sh.setSession c s).sessions) (hp' : run'.pc = run.pc)
    (hd : run'.delay = run.delay) : Standing log sh' run' := by
  refine hs.session hp (hp'.trans hp) hd ?_
  rw [hse, setSession_self]
  exact Session.step_settled hstep hb

theorem standing_local {a : LoopAction} (h : run.step setup sh a = some (sh', run'))
    (hoff : ∀ elapsed, a ≠ .offline elapsed) (haft : a ≠ .after) {c : ConnId}
    (hp : run.pc = .attempt c) (hs : Standing log sh run) : Standing log sh' run' := by
  cases a with
  | checkTop | beginCheck | beginCreate | sleepPoll | slept => simp [Runner.step, hp] at h
  | offline elapsed => exact absurd rfl (hoff elapsed)
  | after => exact absurd rfl haft
  | park =>
    simp only [Runner.step, hp] at h
    obtain ⟨m, hm, he⟩ := Option.map_eq_some_iff.mp h
    cases he
    obtain ⟨s, hpark, rfl⟩ := onSession_eq hm
    have hstep : (sh.sessions c).step setup.fromStr .park = some s := hpark
    exact standing_session hs hp hstep (by simp) rfl rfl rfl
  | poll | finishAttempt | dispatchCheck | connected =>
    simp only [Runner.step, hp] at h
    obtain ⟨m, hm, he⟩ := Option.map_eq_some_iff.mp h
    cases he
    obtain ⟨s, hstep, rfl⟩ := onSession_eq hm
    first
      | exact standing_session (b := .poll) hs hp hstep (by simp) rfl rfl rfl
      | exact standing_session (b := .finish) hs hp hstep (by simp) rfl rfl rfl
      | exact standing_session (b := .attempt _) hs hp hstep (by simp) rfl rfl rfl
  | attempt act =>
    simp only [Runner.step, hp] at h
    split at h
    · obtain ⟨m, hm, he⟩ := Option.map_eq_some_iff.mp h
      obtain ⟨s, hstep, rfl⟩ := onSession_eq hm
      have hrun : run'.pc = run.pc ∧ run'.delay = run.delay ∧ sh' = sh.setSession c s := by
        split at he <;> cases he <;> simp [hp]
      obtain ⟨hpc, hd, rfl⟩ := hrun
      exact standing_session (b := .attempt act) hs hp hstep (by simp) rfl hpc hd
    · cases h
  | close act =>
    simp only [Runner.step, hp] at h
    split at h
    · cases h
    · rename_i hact
      obtain ⟨m, hm, he⟩ := Option.map_eq_some_iff.mp h
      cases he
      obtain ⟨s, hstep, rfl⟩ := onSession_eq hm
      refine standing_session (b := .close act) hs hp hstep ?_ rfl rfl rfl
      rintro hc
      cases hc
      exact hact rfl

theorem schedule_offline {elapsed : Nat} {c : ConnId}
    (h : run.step setup sh (.offline elapsed) = some (sh', run')) (hp : run.pc = .attempt c)
    (hs : Standing log sh run) (hj : History.Justified Scheduled log) :
    History.Justified Scheduled (log ++ run.events sh run' (.offline elapsed)) ∧
      Standing (log ++ run.events sh run' (.offline elapsed)) sh' run' := by
  simp only [Runner.step, hp] at h
  obtain ⟨m, hm, he⟩ := Option.map_eq_some_iff.mp h
  obtain ⟨s, hstep, rfl⟩ := onSession_eq hm
  simp only [Session.stepClose] at hstep
  split at hstep <;> cases hstep
  rename_i result hphase
  simp only [Standing, hp, hphase, Phase.settled] at hs
  have hended : Scheduled log (.ended
      (result, if (sh.sessions c).connectedAt then some elapsed else none)) := hs.starts
  have hdelay : run'.delay = if wasHealthy
      (result, if (sh.sessions c).connectedAt then some elapsed else none)
        then INITIAL_RECONNECT_DELAY else run.delay := by
    cases he
    cases (sh.sessions c).connectedAt <;> simp [wasHealthy, resetIfHealthy]
  have hpc : run'.pc = .attempt c := by
    cases he
    split <;> simp [hp]
  have hsettled : (sh'.sessions c).phase.settled = some result := by
    cases he
    simp [Shared.setSession, Phase.settled]
  simp only [Runner.events, hp, Session.outcome, hphase, Option.toList_some, List.map_cons,
    List.map_nil]
  refine ⟨History.justified_snoc hj hended, ?_⟩
  simp only [Standing, hpc, hsettled]
  exact hs.settle _ hdelay

theorem schedule_after {c : ConnId} (h : run.step setup sh .after = some (sh', run'))
    (hp : run.pc = .attempt c) (hs : Standing log sh run)
    (hj : History.Justified Scheduled log) :
    History.Justified Scheduled (log ++ run.events sh run' .after) ∧
      Standing (log ++ run.events sh run' .after) sh' run' := by
  simp only [Runner.step, hp] at h
  obtain ⟨result, hr, he⟩ := Option.map_eq_some_iff.mp h
  have hphase : (sh.sessions c).phase = .over result := by
    unfold Session.result at hr
    split at hr <;> cases hr
    assumption
  simp only [Standing, hp, hphase, Phase.settled] at hs
  cases hsd : sh.recovery.shutdown with
  | true =>
    simp only [hsd, if_true] at he
    cases he
    simp only [Runner.events, Runner.ending, Runner.goto, hsd]
    exact ⟨justified_stop hj, trivial⟩
  | false =>
    simp only [hsd, Bool.false_eq_true, if_false] at he
    have hlook := justified_look hj false
    have hs' := hs.look
    -- the loop sleeps
    have hsleep : mayRetry result → (sh', run') =
        (sh, { run with delay := nextDelay run.delay, pc := .sleeping false }) →
        History.Justified Scheduled (log ++ run.events sh run' .after) ∧
          Standing (log ++ run.events sh run' .after) sh' run' := by
      intro hmay heq
      cases heq
      have hdelayed : Scheduled (log ++ [.looked false]) (.delayed run.delay) :=
        ⟨hs'.starts, hs'.ne_nil, hs'.delay⟩
      simp only [Runner.events, hsd]
      rw [List.append_cons]
      exact ⟨History.justified_snoc hlook hdelayed, hs'.retry hmay⟩
    cases result with
    | ok u => exact hsleep rfl he.symm
    | error error =>
      cases hretry : shouldRetryConnection error with
      | true =>
        simp only [hretry, if_true] at he
        exact hsleep hretry he.symm
      | false =>
        simp only [hretry, Bool.false_eq_true, if_false] at he
        cases he
        obtain ⟨earlier, connectedFor, hlast, -⟩ := hs'.last
        have hreturned : Scheduled (log ++ [.looked false]) (.returned (.error error)) :=
          ⟨not_mem_of_goingOn hs'.goingOn, hretry, hs'.starts, earlier, connectedFor, hlast⟩
        simp only [Runner.events, Runner.ending, Runner.goto, hsd]
        rw [List.append_cons]
        exact ⟨History.justified_snoc hlook hreturned, trivial⟩

theorem schedule_step {a : LoopAction} (h : run.step setup sh a = some (sh', run'))
    (hs : Standing log sh run) (hj : History.Justified Scheduled log) :
    History.Justified Scheduled (log ++ run.events sh run' a) ∧
      Standing (log ++ run.events sh run' a) sh' run' := by
  cases a with
  | checkTop | beginCheck | sleepPoll =>
    simp only [Runner.step] at h
    split at h <;> cases h
    rename_i hp
    simp only [Standing, hp] at hs
    simp only [Runner.events, Runner.ending, Runner.goto]
    cases sh.recovery.shutdown with
    | true => exact ⟨justified_stop hj, trivial⟩
    | false => exact ⟨justified_look hj false, hs.look⟩
  | beginCreate =>
    simp only [Runner.step] at h
    split at h <;> cases h
    rename_i hp
    simp only [Standing, hp] at hs
    have hstart : Scheduled log .started := ⟨hs.goingOn, hs.starts, hs.retry⟩
    refine ⟨History.justified_snoc hj hstart, ?_⟩
    simp only [Standing, Runner.goto, Shared.setSession, Function.update_self]
    exact hs.start
  | slept =>
    simp only [Runner.step] at h
    split at h <;> cases h
    rename_i hp
    simp only [Standing, hp] at hs
    simp only [Runner.events, List.append_nil]
    exact ⟨hj, hs⟩
  | poll | park | finishAttempt | dispatchCheck | connected | attempt _ | close _ =>
    simp only [Runner.events, List.append_nil]
    refine ⟨hj, ?_⟩
    cases hp : run.pc with
    | attempt c => exact standing_local h (by simp) (by simp) hp hs
    | _ => simp [Runner.step, hp] at h
  | offline elapsed =>
    cases hp : run.pc with
    | attempt c => exact schedule_offline h hp hs hj
    | _ => simp [Runner.step, hp] at h
  | after =>
    cases hp : run.pc with
    | attempt c => exact schedule_after h hp hs hj
    | _ => simp [Runner.step, hp] at h

end runner

structure LoopInv (log : List LoopEvent) (w : Client) (r : RunId) : Prop where
  justified : History.Justified Scheduled log
  shutdown : .looked true ∈ log → w.shared.recovery.shutdown = true
  idle : (∀ run, w.runs r = some run → run.supervisor.rank ≤ 1) → log = []
  standing : ∀ run, w.runner r = some run → Standing log w.shared run

section client

variable {setup : Setup} {w w' : Client} {r : RunId}

theorem runner_other {sh sh' : Shared} {run run' : Run} {b : RunAction}
    (h : run.step setup sh r b = some (sh', run')) (hb : ∀ l, b ≠ .loop l)
    (hi : RunInv sh r run) :
    (run'.supervisor.rank ≤ 1 → run.supervisor.rank ≤ 1) ∧
    (run'.runner = none ∨ (b.ofCall = true ∧ run'.runner = run.runner) ∨
      (run.supervisor = .spawned ∧ run'.runner = some (Run.startRunner setup))) := by
  cases b with
  | loop l => exact absurd rfl (hb l)
  | tryLock =>
    simp only [Run.step] at h
    split at h
    · split at h <;> cases h <;> exact ⟨id, .inr (.inl ⟨rfl, rfl⟩)⟩
    · cases h
  | checkShutdown =>
    simp only [Run.step] at h
    split at h
    · rename_i hc
      have habsent := hi.early (.inr hc)
      split at h <;> cases h
      · exact ⟨id, .inr (.inl ⟨rfl, rfl⟩)⟩
      · exact ⟨fun _ => by simp [habsent, SupervisorPc.rank], .inl rfl⟩
    · cases h
  | join | drop | guardCancel | guardPublish =>
    simp only [Run.step] at h
    split at h <;> cases h <;> exact ⟨id, .inr (.inl ⟨rfl, rfl⟩)⟩
  | start =>
    simp only [Run.step] at h
    split at h <;> cases h
    rename_i hs
    exact ⟨fun _ => by simp [hs, SupervisorPc.rank], .inr (.inr ⟨hs, rfl⟩)⟩
  | loopEnd | supervisorCancel | supervisorPublish | cancelHandlers | unlock =>
    simp only [Run.step] at h
    split at h <;> cases h
    exact ⟨fun hr => by simp [SupervisorPc.rank] at hr, .inl rfl⟩

theorem Run.runner_eq {run : Run} {runner : Runner} :
    run.runner = some runner ↔ run.supervisor = .looping runner := by
  unfold Run.runner
  split <;> simp_all

theorem Client.runner_of_runs {run : Run} (h : w.runs r = some run) :
    w.runner r = run.runner := by simp [Client.runner, h]

theorem runner_frame {a : ClientAction} (hl : LifecycleInv w) (h : w.step setup a = some w')
    (ha : ∀ b, a ≠ .run r (.loop b)) :
    ((∀ run, w'.runs r = some run → run.supervisor.rank ≤ 1) →
      ∀ run, w.runs r = some run → run.supervisor.rank ≤ 1) ∧
    (w'.runner r = none ∨ (a.task ≠ .supervisor r ∧ w'.runner r = w.runner r) ∨
      ((∀ run, w.runs r = some run → run.supervisor.rank ≤ 1) ∧
        w'.runner r = some (Run.startRunner setup))) := by
  have frame : w'.runs r = w.runs r → a.task ≠ .supervisor r →
      ((∀ run, w'.runs r = some run → run.supervisor.rank ≤ 1) →
        ∀ run, w.runs r = some run → run.supervisor.rank ≤ 1) ∧
      (w'.runner r = none ∨ (a.task ≠ .supervisor r ∧ w'.runner r = w.runner r) ∨
        ((∀ run, w.runs r = some run → run.supervisor.rank ≤ 1) ∧
          w'.runner r = some (Run.startRunner setup))) :=
    fun he ht => ⟨by rw [he]; exact id, .inr (.inl ⟨ht, by simp [Client.runner, he]⟩)⟩
  cases a with
  | startRun q =>
    by_cases hq : q = r
    · subst hq
      simp only [Client.step] at h
      split at h <;> cases h
      rename_i hnone
      refine ⟨fun _ run hrun => ?_, .inl ?_⟩
      · rw [hnone] at hrun
        cases hrun
      · simp [Client.runner, Run.new, Run.runner]
    · exact frame
        (runs_frame h (by simpa [ClientAction.task] using hq) (by simp [ClientAction.task]))
        (by simp [ClientAction.task])
  | run q b =>
    by_cases hq : q = r
    · subst hq
      obtain ⟨run, hrun, h⟩ := Option.bind_eq_some_iff.mp h
      obtain ⟨⟨sh, run'⟩, hst, rfl⟩ := Option.map_eq_some_iff.mp h
      obtain ⟨hrank, hrunner⟩ := runner_other hst (fun l hb => ha l (by rw [hb]))
        (hl.runs q run hrun)
      have hafter : ({ w with shared := sh, runs := Function.update w.runs q (some run') } :
          Client).runner q = run'.runner := Client.runner_of_runs (Function.update_self ..)
      have hold : ∀ x, w.runs q = some x → x = run := fun x hx =>
        Option.some.inj (hx.symm.trans hrun)
      refine ⟨fun hw x hx => ?_, ?_⟩
      · rw [hold x hx]
        exact hrank (hw run' (Function.update_self ..))
      · rw [hafter, Client.runner_of_runs hrun]
        rcases hrunner with hnone | ⟨hcall, hsame⟩ | ⟨hspawned, hstart⟩
        · exact .inl hnone
        · exact .inr (.inl ⟨by simp [ClientAction.task, hcall], hsame⟩)
        · refine .inr (.inr ⟨fun x hx => ?_, hstart⟩)
          rw [hold x hx, hspawned]
          exact Nat.le_refl _
    · have ht : ClientAction.task (.run q b) ≠ .run r ∧
          ClientAction.task (.run q b) ≠ .supervisor r := by
        cases hb : b.ofCall <;> simp [ClientAction.task, hb, hq]
      exact frame (runs_frame h ht.1 ht.2) ht.2
  | startSend _ _ | send _ _ | startDisconnect _ | disconnect _ _ =>
    exact frame (runs_frame h (by simp [ClientAction.task]) (by simp [ClientAction.task]))
      (by simp [ClientAction.task])
  | worker c b =>
    have ht : ClientAction.task (.worker c b) ≠ .run r ∧
        ClientAction.task (.worker c b) ≠ .supervisor r := by
      cases b <;> simp [ClientAction.task]
    exact frame (runs_frame h ht.1 ht.2) ht.2

theorem loopInv_other {a : ClientAction} (hr : (Client.automaton setup).Reachable w)
    (h : w.step setup a = some w') (ha : ∀ b, a ≠ .run r (.loop b)) (hi : LoopInv log w r) :
    LoopInv log w' r := by
  have hl := lifecycleInv_of_reachable hr
  have hgrows := client_grows (client_step h) (clientInv_of_reachable hr)
  -- the runner stays, and its attempt with it
  have keep : ∀ run, a.task ≠ .supervisor r → w.runner r = some run →
      Standing log w'.shared run := by
    intro run htask hrun
    have hs := hi.standing run hrun
    cases hp : run.pc with
    | attempt c =>
      obtain ⟨q, hq, hqr⟩ := Option.bind_eq_some_iff.mp hrun
      have hat : w.attemptOf r = some c :=
        attemptOf_eq.mpr ⟨q, run, hq, Run.runner_eq.mp hqr, hp⟩
      exact hs.session hp hp rfl (by rw [attempt_phase hr h hat htask])
    | _ =>
      simp only [Standing, hp] at hs ⊢
      try exact hs
  obtain ⟨hidle, hrunner⟩ := runner_frame hl h ha
  refine ⟨hi.justified, fun hlook => hgrows.shutdown (hi.shutdown hlook),
    fun hw => hi.idle (hidle hw), fun run hrun => ?_⟩
  rcases hrunner with hnone | ⟨htask, hsame⟩ | ⟨hearly, hstart⟩
  · rw [hnone] at hrun
    cases hrun
  · exact keep run htask (hsame.symm.trans hrun)
  · rw [hi.idle hearly]
    cases hstart.symm.trans hrun
    exact ⟨fun e he => (by cases he), rfl, fun o ho => (by cases ho), rfl⟩

theorem loopInv_loop {b : LoopAction} (hr : (Client.automaton setup).Reachable w)
    (h : w.step setup (.run r (.loop b)) = some w') (hi : LoopInv log w r) :
    LoopInv (log ++ w.loopEvents r (.run r (.loop b)) w') w' r := by
  have hgrows := client_grows (client_step h) (clientInv_of_reachable hr)
  obtain ⟨run, hrun, h⟩ := Option.bind_eq_some_iff.mp h
  obtain ⟨⟨sh, run'⟩, hst, rfl⟩ := Option.map_eq_some_iff.mp h
  simp only [Run.step] at hst
  split at hst
  · rename_i runner hsup
    obtain ⟨⟨sh', runner'⟩, hout, he⟩ := Option.map_eq_some_iff.mp hst
    cases he
    have hbefore : w.runner r = some runner :=
      (Client.runner_of_runs hrun).trans (Run.runner_eq.mpr hsup)
    have hafter : ({ w with
        shared := sh'
        runs := Function.update w.runs r (some { run with supervisor := .looping runner' }) } :
        Client).runner r = some runner' :=
      (Client.runner_of_runs (Function.update_self ..)).trans rfl
    have hevents := schedule_step hout (hi.standing runner hbefore) hi.justified
    simp only [Client.loopEvents, if_true, hbefore, hafter]
    refine ⟨hevents.1, fun hlook => ?_, fun hw => ?_, fun q hq => ?_⟩
    · rcases List.mem_append.mp hlook with hlook | hlook
      · exact hgrows.shutdown (hi.shutdown hlook)
      · exact hgrows.shutdown (events_looked hlook)
    · have hrank := hw _ (Function.update_self ..)
      simp [SupervisorPc.rank] at hrank
    · cases hafter.symm.trans hq
      exact hevents.2
  · cases hst

variable {millis : Nat} {acts : List ClientAction}

theorem loopInv_of_exec (h : (Client.automaton setup).exec (Client.new setup millis) acts = some w)
    (r : RunId) : LoopInv (Client.loopLog setup (Client.new setup millis) acts r) w r := by
  have hr : (Client.automaton setup).Reachable (Client.new setup millis) := .init ⟨millis, rfl⟩
  refine Automaton.exec_invariant
    (I := fun as t => LoopInv (Client.loopLog setup (Client.new setup millis) as r) t r) h ?_
    fun as a t u ht hs hi => ?_
  · exact ⟨History.justified_nil, fun hm => (by cases hm), fun _ => rfl,
      fun run hrun => (by cases hrun)⟩
  · rw [Client.loopLog, Automaton.observe_snoc ht hs]
    by_cases ha : ∃ b, a = .run r (.loop b)
    · obtain ⟨b, rfl⟩ := ha
      exact loopInv_loop (hr.exec ht) hs hi
    · have hnone : ∀ b, a ≠ .run r (.loop b) := fun b hb => ha ⟨b, hb⟩
      have hquiet : t.loopEvents r a u = [] := by
        unfold Client.loopEvents
        split
        · rename_i q b
          rw [if_neg (fun hq => hnone b (by rw [hq]))]
        · rfl
      rw [hquiet, List.append_nil]
      exact loopInv_other (hr.exec ht) hs hnone hi

/-- Whatever the attempts of a run call come to and whenever the client is shut down: another
attempt begins only after results that allow it, the loop ends with the last result or after a
shutdown, and its sleeps follow the schedule. -/
theorem Client.retry_schedule
    (h : (Client.automaton setup).exec (Client.new setup millis) acts = some w) (r : RunId) :
    History.Justified Scheduled (Client.loopLog setup (Client.new setup millis) acts r) ∧
    (.looked true ∈ Client.loopLog setup (Client.new setup millis) acts r →
      w.shared.recovery.shutdown = true) :=
  ⟨(loopInv_of_exec h r).justified, (loopInv_of_exec h r).shutdown⟩

/-- An attempt whose connect times out, and the pause after it. -/
def sampleRefused : List ClientAction :=
  [.checkTop, .beginCheck, .beginCreate, .poll, .attempt (.connectFailed .webSocketConnectTimeout),
    .finishAttempt, .offline 0, .close .cancel, .close .abortAll, .close .join, .close .clear,
    .close .takeSink, .after, .sleepPoll, .slept].map fun a => .run 0 (.loop a)

def sampleRetries : List ClientAction :=
  [.startRun 0, .run 0 .tryLock, .run 0 .checkShutdown, .run 0 .start] ++ sampleRefused ++
    sampleRefused

/-- Two refused attempts: the loop sleeps one second and then two. -/
theorem Client.retry_schedule_refused :
    (Client.loopLog sampleSetup (Client.new sampleSetup 0) sampleRetries 0).filterMap
      (fun
        | .delayed delay => some delay
        | _ => none) = [1, 2] ∧
    History.Justified Scheduled
      (Client.loopLog sampleSetup (Client.new sampleSetup 0) sampleRetries 0) := by
  have hrun : (Client.automaton sampleSetup).exec (Client.new sampleSetup 0) sampleRetries =
    some (((Client.automaton sampleSetup).exec (Client.new sampleSetup 0) sampleRetries).get rfl) :=
    rfl
  exact ⟨rfl, (Client.retry_schedule hrun 0).1⟩

end client

end Maxrs
