import Maxrs.Kit.Automaton
import Maxrs.Models
set_option autoImplicit false

/-! `dispatcher.rs`: any number of `run` futures that share `handler_shutdown`, and the
`run_handler` tasks they spawn. -/
namespace Maxrs

abbrev DispatcherId := Nat
abbrev HandlerId := Nat

inductive DispatcherPc where
  /-- Before a poll of the `select!`. -/
  | waiting
  /-- In a poll, past the look at the token. -/
  | checked
  | ended
  deriving DecidableEq

structure Dispatcher where
  incoming : List IncomingMessage
  /-- No sender of the channel is left. -/
  closed : Bool
  pc : DispatcherPc

inductive HandlerPc where
  | spawned
  /-- The branches of the `select!` exist; in a poll, before its look at the token. -/
  | built
  /-- In a poll, past the look. -/
  | checked
  | pending
  | ended
  deriving DecidableEq

structure HandlerTask where
  message : IncomingMessage
  pc : HandlerPc

structure Dispatching where
  /-- `handler_shutdown`. -/
  shutdown : Bool
  dispatchers : DispatcherId → Option Dispatcher
  handlers : HandlerId → Option HandlerTask
  spawned : Nat
  /-- The calls of `on_message`, each with what the token showed then. -/
  entered : List (IncomingMessage × Bool)

inductive DispatchAction where
  | start (c : DispatcherId)
  | send (c : DispatcherId) (message : IncomingMessage)
  | close (c : DispatcherId)
  | check (c : DispatcherId)
  | recv (c : DispatcherId)
  /-- The future is dropped at its await. -/
  | abandon (c : DispatcherId)
  /-- The first poll of the task evaluates the branches of the `select!`. -/
  | enter (i : HandlerId)
  | look (i : HandlerId)
  /-- The future that `on_message` returned is polled. -/
  | poll (i : HandlerId) (finished : Bool)
  | wake (i : HandlerId)
  | cancel

namespace Dispatching

def new : Dispatching where
  shutdown := false
  dispatchers := fun _ => none
  handlers := fun _ => none
  spawned := 0
  entered := []

def setDispatcher (s : Dispatching) (c : DispatcherId) (d : Dispatcher) : Dispatching :=
  { s with dispatchers := Function.update s.dispatchers c (some d) }

def setHandler (s : Dispatching) (i : HandlerId) (t : HandlerTask) : Dispatching :=
  { s with handlers := Function.update s.handlers i (some t) }

/-- `tokio::spawn(run_handler(..))`. -/
def spawn (s : Dispatching) (message : IncomingMessage) : Dispatching :=
  { s.setHandler s.spawned ⟨message, .spawned⟩ with spawned := s.spawned + 1 }

/-- One iteration of the loop of `run`, in two steps. -/
def stepDispatcher (s : Dispatching) (c : DispatcherId) (d : Dispatcher) :
    DispatchAction → Option Dispatching
  | .send _ message =>
    if d.closed then none
    else some (s.setDispatcher c { d with incoming := d.incoming ++ [message] })
  | .close _ => some (s.setDispatcher c { d with closed := true })
  | .check _ =>
    match d.pc with
    | .waiting => some (s.setDispatcher c { d with pc := if s.shutdown then .ended else .checked })
    | _ => none
  | .recv _ =>
    match d.pc, d.incoming with
    | .checked, message :: rest =>
      some ((s.setDispatcher c { d with incoming := rest, pc := .waiting }).spawn message)
    | .checked, [] =>
      some (s.setDispatcher c { d with pc := if d.closed then .ended else .waiting })
    | _, _ => none
  | .abandon _ =>
    match d.pc with
    | .waiting => some (s.setDispatcher c { d with pc := .ended })
    | _ => none
  | _ => none

def stepHandler (s : Dispatching) (i : HandlerId) (t : HandlerTask) :
    DispatchAction → Option Dispatching
  | .enter _ =>
    match t.pc with
    | .spawned => some
        { s.setHandler i { t with pc := .built } with
          entered := s.entered ++ [(t.message, s.shutdown)] }
    | _ => none
  | .look _ =>
    match t.pc with
    | .built => some (s.setHandler i { t with pc := if s.shutdown then .ended else .checked })
    | _ => none
  | .poll _ finished =>
    match t.pc with
    | .checked => some (s.setHandler i { t with pc := if finished then .ended else .pending })
    | _ => none
  | .wake _ =>
    match t.pc with
    | .pending => some (s.setHandler i { t with pc := .built })
    | _ => none
  | _ => none

def step (s : Dispatching) : DispatchAction → Option Dispatching
  | .start c =>
    match s.dispatchers c with
    | none => some (s.setDispatcher c { incoming := [], closed := false, pc := .waiting })
    | some _ => none
  | .send c message => (s.dispatchers c).bind fun d => s.stepDispatcher c d (.send c message)
  | .close c => (s.dispatchers c).bind fun d => s.stepDispatcher c d (.close c)
  | .check c => (s.dispatchers c).bind fun d => s.stepDispatcher c d (.check c)
  | .recv c => (s.dispatchers c).bind fun d => s.stepDispatcher c d (.recv c)
  | .abandon c => (s.dispatchers c).bind fun d => s.stepDispatcher c d (.abandon c)
  | .enter i => (s.handlers i).bind fun t => s.stepHandler i t (.enter i)
  | .look i => (s.handlers i).bind fun t => s.stepHandler i t (.look i)
  | .poll i finished => (s.handlers i).bind fun t => s.stepHandler i t (.poll i finished)
  | .wake i => (s.handlers i).bind fun t => s.stepHandler i t (.wake i)
  | .cancel => some { s with shutdown := true }

def automaton : Automaton Dispatching DispatchAction where
  init := fun s => s = new
  step := step

def HasFresh (s : Dispatching) : Prop := ∃ i t, s.handlers i = some t ∧ t.pc = .spawned

def MayRecv (s : Dispatching) : Prop :=
  ∃ c d, s.dispatchers c = some d ∧ d.pc = .checked ∧ (d.incoming ≠ [] ∨ d.closed = false)

/-- Every spawned handler has been polled, and no `run` is about to spawn another one. -/
def Quiet (s : Dispatching) : Prop := ¬ s.HasFresh ∧ ¬ s.MayRecv

def CancelsQuietly (s : Dispatching) (a : DispatchAction) : Prop :=
  a = .cancel → s.shutdown = false → s.Quiet

variable {s s' : Dispatching}

theorem Quiet.setDispatcher (hq : s.Quiet) (c : DispatcherId) {d : Dispatcher}
    (hd : d.pc = .checked → d.incoming = [] ∧ d.closed = true) : (s.setDispatcher c d).Quiet := by
  refine ⟨hq.1, ?_⟩
  rintro ⟨b, e, he, hpc, hmay⟩
  by_cases hb : b = c
  · subst hb
    simp only [Dispatching.setDispatcher, Function.update_self, Option.some.injEq] at he
    subst he
    obtain ⟨hempty, hclosed⟩ := hd hpc
    rcases hmay with hmay | hmay
    · exact hmay hempty
    · rw [hclosed] at hmay
      cases hmay
  · simp only [Dispatching.setDispatcher, Function.update_of_ne hb] at he
    exact hq.2 ⟨b, e, he, hpc, hmay⟩

theorem Quiet.setHandler (hq : s.Quiet) (i : HandlerId) {t : HandlerTask} (ht : t.pc ≠ .spawned) :
    (s.setHandler i t).Quiet := by
  refine ⟨?_, hq.2⟩
  rintro ⟨j, u, hu, hpc⟩
  by_cases hj : j = i
  · subst hj
    simp only [Dispatching.setHandler, Function.update_self, Option.some.injEq] at hu
    exact ht (hu ▸ hpc)
  · simp only [Dispatching.setHandler, Function.update_of_ne hj] at hu
    exact hq.1 ⟨j, u, hu, hpc⟩

theorem Quiet.drained (hq : s.Quiet) {c : DispatcherId} {d : Dispatcher}
    (hd : s.dispatchers c = some d) (hpc : d.pc = .checked) :
    d.incoming = [] ∧ d.closed = true := by
  refine ⟨?_, ?_⟩
  · by_contra hne
    exact hq.2 ⟨c, d, hd, hpc, .inl hne⟩
  · by_contra hne
    exact hq.2 ⟨c, d, hd, hpc, .inr (by simpa using hne)⟩

theorem quiet_step {a : DispatchAction} (h : s.step a = some s') (hs : s.shutdown = true)
    (hq : s.Quiet) : s'.Quiet ∧ s'.shutdown = true ∧ s'.entered = s.entered := by
  cases a with
  | start c =>
    simp only [step] at h
    split at h <;> cases h
    exact ⟨hq.setDispatcher c (by simp), hs, rfl⟩
  | send c message =>
    obtain ⟨d, hd, h⟩ := Option.bind_eq_some_iff.mp h
    simp only [stepDispatcher] at h
    split at h <;> cases h
    rename_i hclosed
    refine ⟨hq.setDispatcher c fun hpc => ?_, hs, rfl⟩
    exact absurd (hq.drained hd hpc).2 hclosed
  | close c =>
    obtain ⟨d, hd, h⟩ := Option.bind_eq_some_iff.mp h
    cases h
    exact ⟨hq.setDispatcher c fun hpc => ⟨(hq.drained hd hpc).1, rfl⟩, hs, rfl⟩
  | check c =>
    obtain ⟨d, hd, h⟩ := Option.bind_eq_some_iff.mp h
    simp only [stepDispatcher, hs, if_true] at h
    split at h <;> cases h
    exact ⟨hq.setDispatcher c (by simp), hs, rfl⟩
  | recv c =>
    obtain ⟨d, hd, h⟩ := Option.bind_eq_some_iff.mp h
    simp only [stepDispatcher] at h
    split at h
    · rename_i message rest hpc hin
      have hempty := (hq.drained hd hpc).1
      rw [hin] at hempty
      cases hempty
    · rename_i hpc hin
      cases h
      refine ⟨hq.setDispatcher c fun _ => ?_, hs, rfl⟩
      exact ⟨hin, (hq.drained hd hpc).2⟩
    · cases h
  | abandon c =>
    obtain ⟨d, hd, h⟩ := Option.bind_eq_some_iff.mp h
    simp only [stepDispatcher] at h
    split at h <;> cases h
    exact ⟨hq.setDispatcher c (by simp), hs, rfl⟩
  | enter i =>
    obtain ⟨t, ht, h⟩ := Option.bind_eq_some_iff.mp h
    simp only [stepHandler] at h
    split at h
    · rename_i hpc
      exact absurd ⟨i, t, ht, hpc⟩ hq.1
    · cases h
  | look i =>
    obtain ⟨t, ht, h⟩ := Option.bind_eq_some_iff.mp h
    simp only [stepHandler, hs, if_true] at h
    split at h <;> cases h
    exact ⟨hq.setHandler i (by simp), hs, rfl⟩
  | poll i finished =>
    obtain ⟨t, ht, h⟩ := Option.bind_eq_some_iff.mp h
    simp only [stepHandler] at h
    split at h <;> cases h
    exact ⟨hq.setHandler i (by cases finished <;> simp), hs, rfl⟩
  | wake i =>
    obtain ⟨t, ht, h⟩ := Option.bind_eq_some_iff.mp h
    simp only [stepHandler] at h
    split at h <;> cases h
    exact ⟨hq.setHandler i (by simp), hs, rfl⟩
  | cancel =>
    cases h
    exact ⟨hq, rfl, rfl⟩

theorem step_shows {a : DispatchAction} (h : s.step a = some s') :
    (a = .cancel ∧ s' = { s with shutdown := true }) ∨
    (s'.shutdown = s.shutdown ∧
      (s'.entered = s.entered ∨ ∃ message, s'.entered = s.entered ++ [(message, s.shutdown)])) := by
  cases a with
  | cancel =>
    cases h
    exact .inl ⟨rfl, rfl⟩
  | start c =>
    simp only [step] at h
    split at h <;> cases h
    exact .inr ⟨rfl, .inl rfl⟩
  | send c _ | close c | check c | recv c | abandon c =>
    obtain ⟨d, hd, h⟩ := Option.bind_eq_some_iff.mp h
    simp only [stepDispatcher] at h
    repeat' split at h
    all_goals cases h
    all_goals exact .inr ⟨rfl, .inl rfl⟩
  | enter i =>
    obtain ⟨t, ht, h⟩ := Option.bind_eq_some_iff.mp h
    simp only [stepHandler] at h
    split at h <;> cases h
    exact .inr ⟨rfl, .inr ⟨t.message, rfl⟩⟩
  | look i | poll i _ | wake i =>
    obtain ⟨t, ht, h⟩ := Option.bind_eq_some_iff.mp h
    simp only [stepHandler] at h
    split at h <;> cases h
    exact .inr ⟨rfl, .inl rfl⟩

structure InTime (s : Dispatching) : Prop where
  quiet : s.shutdown = true → s.Quiet
  entered : ∀ e ∈ s.entered, e.2 = false

theorem inTime_step {a : DispatchAction} (hok : s.CancelsQuietly a) (h : s.step a = some s')
    (hi : s.InTime) : s'.InTime := by
  cases hs : s.shutdown with
  | true =>
    obtain ⟨hq, -, he⟩ := quiet_step h hs (hi.quiet hs)
    exact ⟨fun _ => hq, he ▸ hi.entered⟩
  | false =>
    rcases step_shows h with ⟨rfl, rfl⟩ | ⟨hsame, he⟩
    · exact ⟨fun _ => hok rfl hs, hi.entered⟩
    · refine ⟨fun ht => ?_, fun e hmem => ?_⟩
      · rw [hsame, hs] at ht
        cases ht
      · rcases he with he | ⟨message, he⟩
        · exact hi.entered e (he ▸ hmem)
        · rw [he] at hmem
          rcases List.mem_append.mp hmem with hmem | hmem
          · exact hi.entered e hmem
          · rw [List.mem_singleton.mp hmem]
            exact hs

theorem enter_late {i : HandlerId} {t : HandlerTask} (ht : s.handlers i = some t)
    (hpc : t.pc = .spawned) (hs : s.shutdown = true) :
    ∃ u, automaton.step s (.enter i) = some u ∧ (t.message, true) ∈ u.entered := by
  refine ⟨{ s.setHandler i { t with pc := .built } with
    entered := s.entered ++ [(t.message, s.shutdown)] }, ?_, ?_⟩
  · simp [automaton, step, ht, stepHandler, hpc]
  · simp [hs]

theorem recv_late {c : DispatcherId} {d : Dispatcher} {message : IncomingMessage}
    {rest : List IncomingMessage} (hd : s.dispatchers c = some d) (hpc : d.pc = .checked)
    (hin : d.incoming = message :: rest) (hs : s.shutdown = true) :
    ∃ u, automaton.Leads s u ∧ (message, true) ∈ u.entered := by
  let t := (s.setDispatcher c { d with incoming := rest, pc := .waiting }).spawn message
  have hrecv : automaton.step s (.recv c) = some t := by
    simp only [automaton, step, hd, Option.bind_some, stepDispatcher, hpc, hin]
    rfl
  obtain ⟨u, hu, hmem⟩ := enter_late (s := t) (i := s.spawned) (t := ⟨message, .spawned⟩)
    (Function.update_self ..) rfl hs
  exact ⟨u, .tail (.tail .refl trivial hrecv) trivial hu, hmem⟩

theorem late_of_not_quiet (hs : ¬ s.Quiet) :
    ∃ t u, automaton.step s .cancel = some t ∧ automaton.Leads t u ∧
      ∃ message, (message, true) ∈ u.entered := by
  refine ⟨{ s with shutdown := true }, ?_⟩
  by_cases hf : s.HasFresh
  · obtain ⟨i, t, ht, hpc⟩ := hf
    obtain ⟨u, hu, hmem⟩ := enter_late (s := { s with shutdown := true }) ht hpc rfl
    exact ⟨u, rfl, .single trivial hu, t.message, hmem⟩
  · have hmay : s.MayRecv := by
      by_contra hm
      exact hs ⟨hf, hm⟩
    obtain ⟨c, d, hd, hpc, hmay⟩ := hmay
    cases hin : d.incoming with
    | cons message rest =>
      obtain ⟨u, hu, hmem⟩ := recv_late (s := { s with shutdown := true }) hd hpc hin rfl
      exact ⟨u, rfl, hu, message, hmem⟩
    | nil =>
      -- a message arrives between the look and the receive
      have hopen : d.closed = false := hmay.resolve_left fun hne => hne hin
      let message : IncomingMessage := ⟨0, 0, 0, "", 0⟩
      let t := ({ s with shutdown := true } : Dispatching).setDispatcher c
        { d with incoming := d.incoming ++ [message], closed := false }
      have hsend : automaton.step { s with shutdown := true } (.send c message) = some t := by
        simp only [automaton, step, hd, Option.bind_some, stepDispatcher, hopen,
          Bool.false_eq_true, if_false]
        rfl
      have hone : d.incoming ++ [message] = message :: [] := by
        rw [hin]
        rfl
      obtain ⟨u, hu, hmem⟩ := recv_late (s := t) (c := c) (Function.update_self ..) hpc hone rfl
      exact ⟨u, rfl, (Automaton.Path.single trivial hsend).trans hu, message, hmem⟩

/-- No handler is entered after the shutdown exactly when the token is cancelled in a quiet
state. -/
theorem no_handler_after_shutdown (s : Dispatching) :
    (automaton.ReachableBy CancelsQuietly s → ∀ e ∈ s.entered, e.2 = false) ∧
    (automaton.Reachable s → ¬ s.Quiet →
      ∃ t u, automaton.step s .cancel = some t ∧ automaton.Leads t u ∧
        ∃ message, (message, true) ∈ u.entered) := by
  refine ⟨fun hs => ?_, fun _ hq => late_of_not_quiet hq⟩
  have hi : s.InTime := hs.invariant
    (fun r hr => hr ▸ ⟨fun h => (by cases h), fun e he => (by cases he)⟩)
    (fun r a t hok hst hi => inTime_step hok hst hi)
  exact hi.entered

def DispatchAction.isCancel : DispatchAction → Bool
  | .cancel => true
  | _ => false

/-- The token is cancelled after the handler has been polled. -/
theorem no_handler_after_shutdown_polled : ∃ s, automaton.ReachableBy CancelsQuietly s ∧
    s.shutdown = true ∧ s.entered.length = 1 ∧ ∀ e ∈ s.entered, e.2 = false := by
  let acts : List DispatchAction :=
    [.start 0, .send 0 ⟨1, 2, 3, "hi", 4⟩, .check 0, .recv 0, .enter 0]
  have hrun : automaton.execWhile (fun _ a => !DispatchAction.isCancel a) new acts =
      some ((automaton.execWhile (fun _ a => !DispatchAction.isCancel a) new acts).get rfl) := rfl
  have hpath : automaton.Path CancelsQuietly new _ := Automaton.execWhile_path (fun s a ha hc => by
    rw [hc] at ha
    cases ha) hrun
  have hquiet : ((automaton.execWhile (fun _ a => !DispatchAction.isCancel a) new acts).get
      rfl).Quiet := by
    refine ⟨?_, ?_⟩
    · rintro ⟨i, t, hi, hpc⟩
      cases i with
      | zero =>
        cases (hi : some _ = some t)
        cases hpc
      | succ i => cases (hi : none = some t)
    · rintro ⟨c, d, hd, hpc, -⟩
      cases c with
      | zero =>
        cases (hd : some _ = some d)
        cases hpc
      | succ c => cases (hd : none = some d)
  have hs : automaton.ReachableBy CancelsQuietly _ :=
    Automaton.ReachableBy.tail (a := .cancel) ⟨new, rfl, hpath⟩ (fun _ _ => hquiet) rfl
  exact ⟨_, hs, rfl, rfl, (no_handler_after_shutdown _).1 hs⟩

/-- A message is taken, its handler task spawned, the token cancelled, and the task polled. -/
theorem handler_entered_late : ∃ s, automaton.Reachable s ∧
    ∃ message, (message, true) ∈ s.entered := by
  let acts : List DispatchAction :=
    [.start 0, .send 0 ⟨1, 2, 3, "hi", 4⟩, .check 0, .recv 0, .cancel, .enter 0]
  have hrun : automaton.exec new acts = some ((automaton.exec new acts).get rfl) := rfl
  refine ⟨_, ⟨new, rfl, Automaton.exec_leads hrun⟩, ⟨1, 2, 3, "hi", 4⟩, ?_⟩
  exact List.mem_cons_self

end Dispatching

end Maxrs
