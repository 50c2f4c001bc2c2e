import Maxrs.Lifecycle
import Maxrs.ProtocolOrder
set_option autoImplicit false

/-! One connection at a time, and what a published one is worth. -/
namespace Maxrs

namespace Session

variable {fromStr : String → Except String Packet} {deviceId : String} {s s' : Session}

structure TornDown (s : Session) : Prop where
  cancelled : s.generation.cancelled = true
  reader : s.generation.reader.joined = true
  keepalive : s.generation.keepalive.joined = true
  sink : s.generation.transport.sink = false

/-- A login was answered on this connection, its socket is there and its tasks run. -/
structure Live (s : Session) : Prop where
  login : ∃ seq token u p,
    RequestAnswered s.generation.transport.log
      (Packet.request seq Opcode.LOGIN (loginPayload token)) p ∧
    userIdFromLoginPayload p.payload = .ok u ∧ s.generation.ownUserId = some u
  sink : s.generation.transport.sink = true
  reader : s.generation.reader.joined = false
  keepalive : s.generation.keepalive.joined = false

theorem tornDown_of_over (hi : Inv deviceId s) (h : s.phase.rank = 7) : TornDown s := by
  obtain ⟨hr, hk⟩ := hi.tasks.joined (by omega)
  exact ⟨hi.tasks.cancelled (by omega), hr, hk, hi.tasks.closed h⟩

theorem tasks_alive (hi : Inv deviceId s) (hc : s.generation.cancelled = false)
    (hr : Performed s.trace .spawnReader) (hk : Performed s.trace .spawnKeepalive) :
    s.generation.reader.joined = false ∧ s.generation.keepalive.joined = false := by
  have hrank : s.phase.rank < 3 := by
    by_contra hge
    rw [hi.tasks.cancelled (by omega)] at hc
    cases hc
  have hab : s.generation.aborted ≠ true := fun h => by
    have := hi.tasks.aborted.mp h
    omega
  constructor
  · cases hp : s.generation.reader with
    | absent => exact absurd hr (hi.tasks.reader.mp hp)
    | ended =>
      rcases hi.generation.reader hp with h | h
      · rw [h] at hc
        cases hc
      · exact absurd h hab
    | _ => rfl
  · cases hp : s.generation.keepalive with
    | absent => exact absurd hk (hi.tasks.keepalive.mp hp)
    | ended =>
      rcases hi.generation.keepalive hp with h | h
      · rw [h] at hc
        cases hc
      · exact absurd h hab
    | _ => rfl

theorem live_of_published (hi : Inv deviceId s) (hp : isPublished s.trace = true)
    (hc : s.generation.cancelled = false) : Live s := by
  obtain ⟨token, u, p, hest⟩ :=
    established_of_published hi.trace.faithful (isPublished_iff.mp hp)
  obtain ⟨k, c, hk, ho, hpay, hret⟩ := hi.calls.answered _ _ _ hest.login
  obtain ⟨seq, -, hans⟩ := requestAnswered_of_returned hi.generation hk hret
  rw [Call.request, ho, hpay] at hans
  obtain ⟨hr, hka⟩ := tasks_alive hi hc hest.reader.mem hest.keepalive.mem
  refine ⟨⟨seq, token, u, p, hans, hest.userId, (hi.tasks.ownId u).mpr hest.ownId⟩, ?_, hr, hka⟩
  refine (hi.tasks.connect hest.connect).resolve_right fun h7 => ?_
  rw [hi.tasks.cancelled (by omega)] at hc
  cases hc

theorem Change.over (h : Change fromStr s s') (h7 : s.phase.rank = 7) : s'.phase.rank = 7 :=
  Nat.le_antisymm (Phase.rank_le _) (h7 ▸ h.rank_mono)

end Session

variable {setup : Setup} {sh sh' : Shared} {w w' : Client}

theorem over_change {c : ConnId} (h : sh.Change setup sh') (hc : c < sh.created)
    (h7 : (sh.sessions c).phase.rank = 7) : (sh'.sessions c).phase.rank = 7 := by
  rcases session_change h hc with he | ⟨b, hb, -⟩
  · rw [he]
    exact h7
  · exact (Session.change_step hb).over h7

def Attempting (w : Client) (r : RunId) (c : ConnId) : Prop :=
  ∃ run runner, w.runs r = some run ∧ run.supervisor = .looping runner ∧ runner.pc = .attempt c

def IsolationInv (w : Client) : Prop :=
  ∀ c, c < w.shared.created →
    (w.shared.sessions c).phase.rank = 7 ∨ ∃ r, Attempting w r c

theorem RunStep.stays {r : RunId} {run run' : Run} {runner : Runner} {c : ConnId}
    (h : RunStep setup sh r run sh' run') (hi : RunInv sh r run)
    (hl : run.supervisor = .looping runner) (hp : runner.pc = .attempt c) :
    (∃ runner', run'.supervisor = .looping runner' ∧ runner'.pc = .attempt c) ∨
      ((sh.sessions c).phase.rank = 7 ∧ sh' = sh) := by
  cases h with
  | lock _ _ _ | reject _ _ _ | closed _ _ _ | join _ _ _ _ | dropTrying _ _ | dropJoining _ _
  | guardCancel _ _ _ | guardPublish _ _ _ => exact .inl ⟨runner, hl, hp⟩
  | spawn hcall _ _ => cases hl.symm.trans (hi.early (.inr hcall))
  | loop m m' hm hs =>
    cases hl.symm.trans hm
    cases hs with
    | goto _ hne _ _ => exact absurd hp (hne c)
    | begin hcr _ _ => cases hp.symm.trans hcr
    | session d b s hd hd' _ _ _ _ =>
      cases hp.symm.trans hd
      exact .inl ⟨m', rfl, hd'⟩
    | after d r hd hres hs _ _ =>
      cases hp.symm.trans hd
      unfold Session.result at hres
      split at hres <;> cases hres
      rename_i hph
      exact .inr ⟨by rw [hph]; rfl, hs⟩
  | loopEnd m _ hm hf _ =>
    cases hl.symm.trans hm
    cases hp.symm.trans hf
  | start hm _ | supervisorCancel _ hm _ | supervisorPublish _ hm _ | cancelHandlers _ hm _
  | unlock _ hm _ => cases hl.symm.trans hm

theorem RunStep.created {r : RunId} {run run' : Run} (h : RunStep setup sh r run sh' run') :
    sh'.created = sh.created ∨ ∃ runner runner', run.supervisor = .looping runner ∧
      runner.pc = .create ∧ sh'.created = sh.created + 1 ∧
      run'.supervisor = .looping runner' ∧ runner'.pc = .attempt sh.created := by
  cases h with
  | loop m m' hm hs =>
    cases hs with
    | goto hs | session _ _ _ _ _ _ _ hs | after _ _ _ _ hs => exact .inl (by subst hs; rfl)
    | begin hcr hs hr =>
      subst hs hr
      exact .inr ⟨m, _, hm, hcr, rfl, rfl, rfl⟩
  | lock _ _ hs | reject _ _ hs | closed _ _ hs | spawn _ _ hs | join _ _ _ hs | dropTrying _ hs
  | dropJoining _ hs | guardCancel _ _ hs | guardPublish _ _ hs | start _ hs | loopEnd _ _ _ _ hs
  | supervisorCancel _ _ hs | supervisorPublish _ _ hs | cancelHandlers _ _ hs | unlock _ _ hs =>
    exact .inl (by subst hs; rfl)

theorem IsolationInv.all {r : RunId} {run : Run} {runner : Runner} {c : ConnId}
    (hi : IsolationInv w) (hl : LifecycleInv w) (hr : w.runs r = some run)
    (hs : run.supervisor = .looping runner) (hp : ∀ c, runner.pc ≠ .attempt c)
    (hc : c < w.shared.created) : (w.shared.sessions c).phase.rank = 7 := by
  refine (hi c hc).resolve_right ?_
  rintro ⟨q, m, m', hq, hm, hpc⟩
  have hsame := hl.unique r q run m hr hq (by simp [hs, SupervisorPc.rank])
    (by simp [hm, SupervisorPc.rank])
  subst hsame
  cases hr.symm.trans hq
  cases hs.symm.trans hm
  exact hp c hpc

theorem isolationInv_step (h : ClientStep setup w w') (hc : ClientInv setup w)
    (hl : LifecycleInv w) (hi : IsolationInv w) : IsolationInv w' := by
  have hch := h.change hc.handles
  intro c hcr
  have old : c < w.shared.created → (∀ r, Attempting w r c → Attempting w' r c) →
      (w'.shared.sessions c).phase.rank = 7 ∨ ∃ r, Attempting w' r c := by
    intro hlt hkeep
    exact (hi c hlt).imp (over_change hch hlt) fun ⟨r, hr⟩ => ⟨r, hkeep r hr⟩
  cases h with
  | startRun r hr =>
    refine old hcr fun q ⟨m, m', hq, hm, hp⟩ => ⟨m, m', ?_, hm, hp⟩
    have hne : q ≠ r := by
      rintro rfl
      cases hr.symm.trans hq
    simp [Function.update_of_ne hne, hq]
  | startSend _ _ _ | startDisconnect _ _ => exact old hcr fun _ ha => ha
  | send i snd snd' sh hs hst => exact old (hst.control.created ▸ hcr) fun _ ha => ha
  | disconnect d pc pc' sh hd hst =>
    have hsame : sh.created = w.shared.created := by
      cases hst with
      | stopCancel _ hs | stopPublish _ hs | lock _ _ hs | cancelHandlers _ hs | unlock _ hs
      | drop _ hs => subst hs; rfl
    exact old (hsame ▸ hcr) fun _ ha => ha
  | worker d a s hd hs => exact old hcr fun _ ha => ha
  | run r run run' sh hr hst =>
    rcases hst.created with hsame | ⟨m, m', hm, hpc, hnew, hm', hpc'⟩
    · have hlt : c < w.shared.created := hsame ▸ hcr
      rcases hi c hlt with h7 | ⟨q, n, n', hq, hn, hp⟩
      · exact .inl (over_change hch hlt h7)
      · by_cases hqr : q = r
        · subst hqr
          cases hr.symm.trans hq
          rcases hst.stays (hl.runs q run hr) hn hp with ⟨n'', hn'', hp''⟩ | ⟨h7, -⟩
          · exact .inr ⟨q, run', n'', Function.update_self .., hn'', hp''⟩
          · exact .inl (over_change hch hlt h7)
        · exact .inr ⟨q, n, n', by simp [Function.update_of_ne hqr, hq], hn, hp⟩
    · rcases Nat.lt_succ_iff_lt_or_eq.mp (hnew ▸ hcr) with hlt | rfl
      · exact .inl (over_change hch hlt (hi.all hl hr hm (by simp [hpc]) hlt))
      · exact .inr ⟨r, run', m', Function.update_self .., hm', hpc'⟩

theorem isolationInv_of_reachable (h : (Client.automaton setup).Reachable w) :
    IsolationInv w := by
  refine h.invariant_of (fun w hw => ?_) fun w a w' hr hs hi =>
    isolationInv_step (client_step hs) (clientInv_of_reachable hr)
      (lifecycleInv_of_reachable hr) hi
  obtain ⟨millis, rfl⟩ := hw
  exact fun c hc => absurd hc (Nat.not_lt_zero c)

theorem check_hands {snd snd' : Send} {b : SendBody}
    (h : snd.step setup sh .check = some (sh', snd')) (hb : snd'.pc = .body b) :
    (∃ seen, snd.pc = .current (.checking (.ready b.connection) seen)) ∧
      sh.isCancelled b.connection = false := by
  simp only [Send.step, Send.stepCurrent] at h
  split at h
  · rename_i p hp
    obtain ⟨q, hq, he⟩ := Option.map_eq_some_iff.mp h
    split at he <;> cases he
    · cases hb
      obtain ⟨hcan, seen, rfl⟩ := Current.check_ok hq
      exact ⟨⟨seen, hp⟩, hcan⟩
    · cases hb
    · cases hb
  · cases h

namespace Client

/-- At most one connection is not torn down; a new one is made when none is; and a published one
that is not cancelled is that one, logged in, with its socket and its tasks. -/
theorem generation_isolation (h : (automaton setup).Reachable w) :
    (∀ c d, c < w.shared.created → d < w.shared.created →
      ¬ (w.shared.sessions c).TornDown → ¬ (w.shared.sessions d).TornDown → c = d) ∧
    (∀ r w', (automaton setup).step w (.run r (.loop .beginCreate)) = some w' →
      ∀ c, c < w.shared.created → (w.shared.sessions c).TornDown) ∧
    (∀ c, w.shared.recovery.state = .ready c → w.shared.isCancelled c = false →
      c < w.shared.created ∧ (w.shared.sessions c).Live ∧
      ∀ d, d < w.shared.created → d ≠ c → (w.shared.sessions d).TornDown) ∧
    (∀ i w' snd b, (automaton setup).step w (.send i .check) = some w' →
      w'.sends i = some snd → snd.pc = .body b →
        b.connection < w.shared.created ∧ (w.shared.sessions b.connection).Live) := by
  have hc := clientInv_of_reachable h
  have hl := lifecycleInv_of_reachable h
  have hi := isolationInv_of_reachable h
  have hinv : ∀ c, c < w.shared.created → Session.Inv setup.deviceId (w.shared.sessions c) :=
    fun c hcr => Session.inv_of_reachable (hc.shared.sessions c hcr)
  have alone : ∀ c d, c < w.shared.created → d < w.shared.created →
      ¬ (w.shared.sessions c).TornDown → ¬ (w.shared.sessions d).TornDown → c = d := by
    intro c d hcr hdr hnc hnd
    obtain ⟨r, run, m, hr, hm, hp⟩ := (hi c hcr).resolve_left fun h7 =>
      hnc (Session.tornDown_of_over (hinv c hcr) h7)
    obtain ⟨q, run', m', hq, hm', hp'⟩ := (hi d hdr).resolve_left fun h7 =>
      hnd (Session.tornDown_of_over (hinv d hdr) h7)
    have hsame := hl.unique r q run run' hr hq (by simp [hm, SupervisorPc.rank])
      (by simp [hm', SupervisorPc.rank])
    subst hsame
    cases hr.symm.trans hq
    cases hm.symm.trans hm'
    cases hp.symm.trans hp'
    rfl
  refine ⟨alone, fun r w' hs c hcr => ?_, fun c hst hcan => ?_, fun i w' snd b hs hsnd hpc => ?_⟩
  · obtain ⟨run, hrun, hs⟩ := Option.bind_eq_some_iff.mp hs
    obtain ⟨out, hout, -⟩ := Option.map_eq_some_iff.mp hs
    simp only [Run.step] at hout
    split at hout
    · rename_i runner hrunner
      obtain ⟨out', hout', -⟩ := Option.map_eq_some_iff.mp hout
      simp only [Runner.step] at hout'
      split at hout' <;> cases hout'
      refine Session.tornDown_of_over (hinv c hcr) (hi.all hl hrun hrunner ?_ hcr)
      simp [show runner.pc = .create by assumption]
    · cases hout
  · obtain ⟨hcr, hpub⟩ := hc.shared.ready c hst
    refine ⟨hcr, Session.live_of_published (hinv c hcr) hpub hcan, fun d hdr hne => ?_⟩
    by_contra hnd
    exact hne (alone d c hdr hcr hnd fun ht => by
      have := ht.cancelled
      rw [Shared.isCancelled] at hcan
      rw [hcan] at this
      cases this)
  · obtain ⟨old, hold, hs⟩ := Option.bind_eq_some_iff.mp hs
    obtain ⟨⟨sh, snd'⟩, hout, rfl⟩ := Option.map_eq_some_iff.mp hs
    simp only [Function.update_self, Option.some.injEq] at hsnd
    subst hsnd
    obtain ⟨⟨seen, hp⟩, hcan⟩ := check_hands hout hpc
    obtain ⟨hcr, hpub⟩ := hc.handles.checking i old _ seen hold hp
    exact ⟨hcr, Session.live_of_published (hinv _ hcr) hpub hcan⟩

/-- On the connection that the login has published, before the keepalive task is polled. -/
theorem generation_isolation_published : ∃ w : Client, w.shared.recovery.state = .ready 0 ∧
    (w.shared.sessions 0).Live := by
  have hr : (automaton sampleSetup).Reachable
      (((automaton sampleSetup).exec (new sampleSetup 0) sampleLogin).get rfl) :=
    Automaton.reachable_get ⟨0, rfl⟩
  exact ⟨_, rfl, ((generation_isolation hr).2.2.1 0 rfl rfl).2.1⟩

end Client

end Maxrs
