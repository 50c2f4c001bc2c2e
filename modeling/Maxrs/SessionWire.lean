import Maxrs.Correlation
import Maxrs.SessionInv
import Maxrs.Wire
set_option autoImplicit false

/-! Who makes the requests of a connection, and in which order they are written. -/
namespace Maxrs.Session

structure CallsInv (deviceId : String) (s : Session) : Prop where
  waiting : ∀ a k, s.phase = .attempting a → a.waiting = some k →
    ∃ opcode payload next c, a.rest = .call (.invoke opcode payload) next ∧
      s.generation.transport.calls k = some c ∧ c.opcode = opcode ∧ c.payload = payload
  answered : ∀ opcode payload r, Answered s.trace opcode payload r →
    ∃ k c, s.generation.transport.calls k = some c ∧ c.opcode = opcode ∧ c.payload = payload ∧
      s.generation.invokes k = some (.returned r)
  init : InitAccepted deviceId s.trace → ∃ p, s.generation.invokes 0 = some (.returned (.ok p))
  first : ∀ c, s.generation.transport.calls 0 = some c →
    c.opcode = Opcode.SESSION_INIT ∧ c.payload = sessionInitPayload .default deviceId
  later : ∀ k c, s.generation.transport.calls k = some c → k ≠ 0 → InitAccepted deviceId s.trace
  fresh : (∀ opcode payload, ¬ Performed s.trace (.invoke opcode payload)) →
    ∀ a, s.phase = .attempting a → a.waiting = none → s.generation.transport.started = 0
  sends : ∀ k c, s.generation.transport.calls k = some c →
    c.opcode = Opcode.MSG_SEND ∨ c.opcode = Opcode.FILE_UPLOAD → Did s.trace .connected (.ok ())

variable {fromStr : String → Except String Packet} {deviceId : String} {s s' : Session}

def MayInvoke (s : Session) (opcode : Nat) (payload : Value) : Prop :=
  isPublished s.trace = true ∨
  (∃ a next, s.phase = .attempting a ∧ a.rest = .call (.invoke opcode payload) next ∧
    a.waiting = none) ∨
  (s.generation.keepalive ≠ .absent ∧ opcode = Opcode.PING)

theorem opEffect_generation {g g' : Generation} {w : Option CallId} {op : AttemptOp} {r : op.Ret}
    (h : OpEffect fromStr g w g' op r) :
    g' = g ∨ ∃ b, g.step fromStr b = some g' ∧ b.isRunner = true := by
  cases op with
  | connect =>
    cases r with
    | ok r => exact .inr ⟨_, h, rfl⟩
    | error e => exact .inl h
  | spawnReader | spawnKeepalive | setOwnUserId u => exact .inr ⟨_, h, rfl⟩
  | invoke opcode payload => exact .inl h.1
  | _ => exact .inl h

theorem Change.generation (h : Change fromStr s s') :
    s'.generation = s.generation ∨ ∃ b, s.generation.step fromStr b = some s'.generation ∧
      ∀ opcode payload, b = .invoke opcode payload → MayInvoke s opcode payload := by
  have runner : ∀ b : GenerationAction, b.isRunner = true →
      ∀ opcode payload, b = .invoke opcode payload →
      MayInvoke s opcode payload := by
    rintro b hb opcode payload rfl
    cases hb
  cases h with
  | flags a a' hp hr hw hs => exact .inl (by rw [hs]; rfl)
  | offline r hp hs | join r hp hj hk hs => exact .inl (by rw [hs])
  | foreign b g hb hpub hg hs =>
    subst hs
    exact .inr ⟨b, hg, fun o p he => .inl (hpub o p he)⟩
  | issue a opcode payload next g hp hr hw hg hs =>
    subst hs
    refine .inr ⟨_, hg, fun o p he => ?_⟩
    cases he
    exact .inr (.inl ⟨a, next, hp, hr, hw⟩)
  | answer a op r next g at_ hp hr he hs =>
    subst hs
    rcases opEffect_generation he with h | ⟨b, hb, hrun⟩
    · exact .inl h
    · exact .inr ⟨b, hb, runner b hrun⟩
  | recv a a' g hp hr hw hg hs | drop a w r g hp hg hs | cancel r g hp hg hs
  | abortAll r g hp hg hs | clear r g hp hg hs | takeSink r g hp hg hs =>
    subst hs
    exact .inr ⟨_, hg, nofun⟩

theorem Change.trace (h : Change fromStr s s') :
    s'.trace = s.trace ∨ ∃ op r, s'.trace = s.trace ++ [⟨op, r⟩] := by
  cases h with
  | answer a op r next g at_ hp hr he hs =>
    subst hs
    exact .inr ⟨op, r, rfl⟩
  | _ => exact .inl (by subst_vars; rfl)

theorem Change.rank_mono (h : Change fromStr s s') : s.phase.rank ≤ s'.phase.rank := by
  cases h with
  | foreign _ g _ _ _ he =>
    subst he
    exact Nat.le_refl _
  | flags _ _ hp _ _ he | issue _ _ _ _ _ hp _ _ _ he | answer _ _ _ _ _ _ hp _ _ he
  | recv _ _ _ hp _ _ _ he | drop _ _ _ _ hp _ he _ | offline _ hp he | cancel _ _ hp _ he
  | abortAll _ _ hp _ he | join _ hp _ _ he | clear _ _ hp _ he | takeSink _ _ hp _ he =>
    subst he
    simp [hp, Phase.rank]

theorem Change.did {op : AttemptOp} {r : op.Ret} (h : Change fromStr s s') (hd : Did s.trace op r) :
    Did s'.trace op r := by
  rcases h.trace with he | ⟨op', r', he⟩
  · exact he ▸ hd
  · exact he ▸ hd.mono

theorem Change.init (h : Change fromStr s s') (hd : InitAccepted deviceId s.trace) :
    InitAccepted deviceId s'.trace := by
  obtain ⟨p, hp⟩ := hd
  exact ⟨p, h.did hp⟩

theorem Change.grows (h : Change fromStr s s') (hg : GenerationInv s.generation) :
    Generation.Grows s.generation s'.generation := by
  rcases h.generation with he | ⟨b, hb, -⟩
  · exact he ▸ .refl _
  · exact Generation.grows_step hb hg

theorem Change.calls (h : Change fromStr s s') :
    (s'.generation.transport.started = s.generation.transport.started ∧
      ∀ k c', s'.generation.transport.calls k = some c' →
        ∃ c, s.generation.transport.calls k = some c) ∨
    ∃ opcode payload, MayInvoke s opcode payload ∧
      ∀ k c', s'.generation.transport.calls k = some c' →
        (∃ c, s.generation.transport.calls k = some c) ∨
        (k = s.generation.transport.started ∧ c'.opcode = opcode ∧ c'.payload = payload) := by
  rcases h.generation with he | ⟨b, hb, hmay⟩
  · exact .inl ⟨by rw [he], fun k c' hk => ⟨c', he ▸ hk⟩⟩
  · rcases Generation.calls_step hb with hl | ⟨o, p, -, hc, -, hor⟩
    · exact .inl hl
    · refine .inr ⟨o, p, ?_, fun k c' hk => ?_⟩
      · rcases hor with rfl | ⟨-, hka, ho, -⟩
        · exact hmay o p rfl
        · exact .inr (.inr ⟨by simp [hka], ho⟩)
      · rw [hc] at hk
        by_cases hne : k = s.generation.transport.started
        · subst hne
          rw [Function.update_self] at hk
          cases hk
          exact .inr ⟨rfl, rfl, rfl⟩
        · rw [Function.update_of_ne hne] at hk
          exact .inl ⟨c', hk⟩

theorem TraceInv.init_of_published (h : TraceInv deviceId s) (hp : isPublished s.trace = true) :
    InitAccepted deviceId s.trace := by
  obtain ⟨_, _, _, he⟩ := established_of_published h.faithful (isPublished_iff.mp hp)
  exact he.init

theorem TraceInv.init_of_keepalive (h : TraceInv deviceId s)
    (hp : Performed s.trace .spawnKeepalive) : InitAccepted deviceId s.trace := by
  obtain ⟨⟨op, r⟩, he, hop⟩ := List.mem_map.mp hp
  cases hop
  obtain ⟨before, after, htr, hpre⟩ := Did.split h.faithful he
  obtain ⟨p, hp⟩ := hpre
  exact ⟨p, htr ▸ hp.later⟩

theorem performed_of_init (h : InitAccepted deviceId s.trace) :
    ∃ opcode payload, Performed s.trace (.invoke opcode payload) := by
  obtain ⟨p, hp⟩ := h
  exact ⟨_, _, hp.mem⟩

theorem mayInvoke_cases {opcode : Nat} {payload : Value} (h : MayInvoke s opcode payload)
    (ht : TraceInv deviceId s) (hk : TasksInv s) (hi : CallsInv deviceId s) :
    (s.generation.transport.started = 0 ∧ opcode = Opcode.SESSION_INIT ∧
      payload = sessionInitPayload .default deviceId) ∨ InitAccepted deviceId s.trace := by
  rcases h with hpub | ⟨a, next, hp, hr, hw⟩ | ⟨hka, -⟩
  · exact .inr (ht.init_of_published hpub)
  · rcases ht.pre hp hr with ⟨htr, ho, hpay⟩ | ⟨hready, -⟩
    · refine .inl ⟨hi.fresh (fun o p hperf => ?_) a hp hw, ho, hpay⟩
      simp [htr, Performed] at hperf
    · exact .inr hready.init
  · refine .inr (ht.init_of_keepalive ?_)
    exact Classical.not_not.mp fun hn => hka (hk.keepalive.mpr hn)

theorem mayInvoke_sends {opcode : Nat} {payload : Value} (h : MayInvoke s opcode payload)
    (ht : TraceInv deviceId s)
    (ho : opcode = Opcode.MSG_SEND ∨ opcode = Opcode.FILE_UPLOAD) :
    Did s.trace .connected (.ok ()) := by
  rcases h with hpub | ⟨a, next, hp, hr, hw⟩ | ⟨-, hping⟩
  · exact isPublished_iff.mp hpub
  · rcases ht.pre hp hr with ⟨-, hop, -⟩ | ⟨-, hauth, -⟩
    · rcases ho with rfl | rfl <;> simp [Opcode.MSG_SEND, Opcode.FILE_UPLOAD,
        Opcode.SESSION_INIT] at hop
    · rcases ho with rfl | rfl <;> exact absurd hauth (by decide)
  · rcases ho with rfl | rfl <;> simp [Opcode.MSG_SEND, Opcode.FILE_UPLOAD, Opcode.PING] at hping

theorem CallsInv.kept (h : Change fromStr s s') (hg : GenerationInv s.generation)
    (hi : CallsInv deviceId s) :
    (∀ opcode payload r, Answered s.trace opcode payload r →
      ∃ k c, s'.generation.transport.calls k = some c ∧ c.opcode = opcode ∧ c.payload = payload ∧
        s'.generation.invokes k = some (.returned r)) ∧
    (InitAccepted deviceId s.trace → ∃ p, s'.generation.invokes 0 = some (.returned (.ok p))) := by
  have hgrow := h.grows hg
  refine ⟨fun opcode payload r ha => ?_, fun hinit => ?_⟩
  · obtain ⟨k, c, hk, ho, hp, hr⟩ := hi.answered opcode payload r ha
    obtain ⟨c', hk', ho', hp', -⟩ := hgrow.transport.calls k c hk
    exact ⟨k, c', hk', ho'.trans ho, hp'.trans hp, hgrow.returned k r hr⟩
  · obtain ⟨p, hp⟩ := hi.init hinit
    exact ⟨p, hgrow.returned 0 _ hp⟩

theorem callsInv_owners (h : Change fromStr s s') (hg : GenerationInv s.generation)
    (ht : TraceInv deviceId s) (hk : TasksInv s) (hi : CallsInv deviceId s) :
    (∀ c, s'.generation.transport.calls 0 = some c →
      c.opcode = Opcode.SESSION_INIT ∧ c.payload = sessionInitPayload .default deviceId) ∧
    (∀ k c, s'.generation.transport.calls k = some c → k ≠ 0 → InitAccepted deviceId s'.trace) ∧
    (∀ k c, s'.generation.transport.calls k = some c →
      c.opcode = Opcode.MSG_SEND ∨ c.opcode = Opcode.FILE_UPLOAD →
        Did s'.trace .connected (.ok ())) := by
  have hgrow := h.grows hg
  have old : ∀ {k c c'}, s.generation.transport.calls k = some c →
      s'.generation.transport.calls k = some c' →
        c'.opcode = c.opcode ∧ c'.payload = c.payload := by
    intro k c c' hc hc'
    obtain ⟨d, hd, ho, hp, -⟩ := hgrow.transport.calls k c hc
    cases hc'.symm.trans hd
    exact ⟨ho, hp⟩
  have notFirst : InitAccepted deviceId s.trace → s.generation.transport.started ≠ 0 := by
    intro hinit hs
    obtain ⟨p, hp⟩ := hi.init hinit
    have hsome := hg.started 0
    rw [hp] at hsome
    obtain ⟨c, hc⟩ := Option.isSome_iff_exists.mp hsome.symm
    have hlt := (Transport.transportInv_of_reachable hg.transport).started 0 c hc
    exact absurd hlt (by rw [hs]; exact Nat.lt_irrefl 0)
  rcases h.calls with ⟨-, hold⟩ | ⟨o, p, hmay, hnew⟩
  · refine ⟨fun c' hc' => ?_, fun k c' hc' hne => ?_, fun k c' hc' ho => ?_⟩
    · obtain ⟨c, hc⟩ := hold 0 c' hc'
      obtain ⟨ho, hp⟩ := old hc hc'
      rw [ho, hp]
      exact hi.first c hc
    · obtain ⟨c, hc⟩ := hold k c' hc'
      exact h.init (hi.later k c hc hne)
    · obtain ⟨c, hc⟩ := hold k c' hc'
      rw [(old hc hc').1] at ho
      exact h.did (hi.sends k c hc ho)
  · have hcase := mayInvoke_cases hmay ht hk hi
    refine ⟨fun c' hc' => ?_, fun k c' hc' hne => ?_, fun k c' hc' ho => ?_⟩
    · rcases hnew 0 c' hc' with ⟨c, hc⟩ | ⟨hs, hco, hcp⟩
      · obtain ⟨ho, hp⟩ := old hc hc'
        rw [ho, hp]
        exact hi.first c hc
      · rcases hcase with ⟨-, ho, hp⟩ | hinit
        · exact ⟨hco.trans ho, hcp.trans hp⟩
        · exact absurd hs.symm (notFirst hinit)
    · rcases hnew k c' hc' with ⟨c, hc⟩ | ⟨hs, -, -⟩
      · exact h.init (hi.later k c hc hne)
      · rcases hcase with ⟨h0, -, -⟩ | hinit
        · exact absurd (hs.trans h0) hne
        · exact h.init hinit
    · rcases hnew k c' hc' with ⟨c, hc⟩ | ⟨hs, hco, -⟩
      · rw [(old hc hc').1] at ho
        exact h.did (hi.sends k c hc ho)
      · exact h.did (mayInvoke_sends hmay ht (hco ▸ ho))

theorem started_quiet {b : GenerationAction} {g : Generation}
    (hb : s.generation.step fromStr b = some g) (ht : TraceInv deviceId s) (hk : TasksInv s)
    (hmay : ∀ opcode payload, b = .invoke opcode payload → isPublished s.trace = true)
    (hno : ∀ opcode payload, ¬ Performed s.trace (.invoke opcode payload)) :
    g.transport.started = s.generation.transport.started := by
  have noInit : ¬ InitAccepted deviceId s.trace := fun hinit => by
    obtain ⟨o, p, hp⟩ := performed_of_init hinit
    exact hno o p hp
  rcases Generation.calls_step hb with hl | ⟨o, p, -, -, -, rfl | ⟨-, hka, -, -⟩⟩
  · exact hl.1
  · exact absurd (ht.init_of_published (hmay o p rfl)) noInit
  · refine absurd (ht.init_of_keepalive (Classical.not_not.mp fun hn => ?_)) noInit
    simp [hk.keepalive.mpr hn] at hka

theorem callsInv_change (h : Change fromStr s s') (hg : GenerationInv s.generation)
    (ht : TraceInv deviceId s) (hk : TasksInv s) (hi : CallsInv deviceId s) :
    CallsInv deviceId s' := by
  obtain ⟨hans, hinit⟩ := hi.kept h hg
  obtain ⟨hfirst, hlater, hsends⟩ := callsInv_owners h hg ht hk hi
  have hgrow := h.grows hg
  have carry : ∀ {a a' : Attempt}, s.phase = .attempting a → a'.rest = a.rest →
      a'.waiting = a.waiting → ∀ k, a'.waiting = some k →
      ∃ opcode payload next c, a'.rest = .call (.invoke opcode payload) next ∧
        s'.generation.transport.calls k = some c ∧ c.opcode = opcode ∧ c.payload = payload := by
    intro a a' hp hr hw k hk'
    obtain ⟨o, p, next, c, hrest, hc, ho, hpay⟩ := hi.waiting a k hp (hw ▸ hk')
    obtain ⟨c', hc', ho', hp', -⟩ := hgrow.transport.calls k c hc
    exact ⟨o, p, next, c', hr.trans hrest, hc', ho'.trans ho, hp'.trans hpay⟩
  cases h with
  | flags a a' hp hr hw hs =>
    subst hs
    refine ⟨fun b k hb hbw => ?_, hans, hinit, hfirst, hlater, fun hno b hb hbw => ?_, hsends⟩
    · cases hb
      exact carry hp hr hw k hbw
    · cases hb
      exact hi.fresh hno a hp (hw ▸ hbw)
  | foreign b g hb hpub hg' hs =>
    subst hs
    refine ⟨fun a k ha hw => carry ha rfl rfl k hw, hans, hinit, hfirst, hlater,
      fun hno a ha hw => ?_, hsends⟩
    exact (started_quiet hg' ht hk hpub hno).trans (hi.fresh hno a ha hw)
  | issue a opcode payload next g hp hr hw hg' hs =>
    subst hs
    refine ⟨fun b k hb hbw => ?_, hans, hinit, hfirst, hlater, fun _ b hb hbw => ?_, hsends⟩
    · cases hb
      cases hbw
      obtain ⟨hc, -⟩ := Generation.invoke_calls hg'
      exact ⟨opcode, payload, next, _, hr, hc ▸ Function.update_self .., rfl, rfl⟩
    · cases hb
      cases hbw
  | answer a op r next g at_ hp hr he hs =>
    subst hs
    have hans' : ∀ opcode payload q, Answered (s.trace ++ [⟨op, r⟩]) opcode payload q →
        ∃ k c, g.transport.calls k = some c ∧ c.opcode = opcode ∧ c.payload = payload ∧
          g.invokes k = some (.returned q) := by
      intro opcode payload q hq
      rcases did_snoc.mp hq with hq | hq
      · exact hans opcode payload q hq
      · cases hq
        obtain ⟨rfl, k, hw, hret⟩ := he
        obtain ⟨o, p, next', c, hrest, hc, ho, hpay⟩ := hi.waiting a k hp hw
        cases hr.symm.trans hrest
        exact ⟨k, c, hc, ho, hpay, hret⟩
    refine ⟨fun b k hb hbw => ?_, hans', fun hacc => ?_, hfirst, hlater, fun hno b hb _ => ?_,
      hsends⟩
    · cases hb
      cases hbw
    · obtain ⟨p, hp'⟩ := hacc
      rcases did_snoc.mp hp' with hold | hnew
      · exact hinit ⟨p, hold⟩
      · cases hnew
        obtain ⟨rfl, k, hw, hret⟩ := he
        obtain ⟨o, q, next', c, hrest, hc, ho, hpay⟩ := hi.waiting a k hp hw
        by_cases hk0 : k = 0
        · exact ⟨p, hk0 ▸ hret⟩
        · exact hinit (hi.later k c hc hk0)
    · cases hb
      have hno' : ∀ o p, ¬ Performed s.trace (.invoke o p) := fun o p hperf =>
        hno o p (performed_snoc.mpr (.inl hperf))
      have hw : a.waiting = none := by
        cases hw : a.waiting with
        | none => rfl
        | some k =>
          obtain ⟨o, p, next', c, hrest, -⟩ := hi.waiting a k hp hw
          cases hr.symm.trans hrest
          exact absurd (performed_snoc.mpr (.inr rfl)) (hno o p)
      have h0 := hi.fresh hno' a hp hw
      rcases opEffect_generation he with hge | ⟨b', hb', hrun⟩
      · exact hge ▸ h0
      · exact (started_quiet hb' ht hk (by rintro o p rfl; cases hrun) hno').trans h0
  | recv a a' g hp hr hw hg' hs =>
    subst hs
    refine ⟨fun b k hb hbw => ?_, hans, hinit, hfirst, hlater, fun hno b hb hbw => ?_, hsends⟩
    · cases hb
      exact carry hp hr hw k hbw
    · cases hb
      exact (started_quiet hg' ht hk nofun hno).trans (hi.fresh hno a hp (hw ▸ hbw))
  | drop a w r g hp hg' hs => subst hs; exact ⟨nofun, hans, hinit, hfirst, hlater, nofun, hsends⟩
  | offline r hp hs => subst hs; exact ⟨nofun, hans, hinit, hfirst, hlater, nofun, hsends⟩
  | cancel r g hp hg' hs => subst hs; exact ⟨nofun, hans, hinit, hfirst, hlater, nofun, hsends⟩
  | abortAll r g hp hg' hs => subst hs; exact ⟨nofun, hans, hinit, hfirst, hlater, nofun, hsends⟩
  | join r hp hj hk hs => subst hs; exact ⟨nofun, hans, hinit, hfirst, hlater, nofun, hsends⟩
  | clear r g hp hg' hs => subst hs; exact ⟨nofun, hans, hinit, hfirst, hlater, nofun, hsends⟩
  | takeSink r g hp hg' hs => subst hs; exact ⟨nofun, hans, hinit, hfirst, hlater, nofun, hsends⟩

theorem callsInv_new (config : LoginConfig) (b : Bool) :
    CallsInv deviceId (new deviceId config b) := by
  refine ⟨fun a k ha hw => ?_, fun _ _ _ h => absurd h did_nil, fun ⟨_, h⟩ => absurd h did_nil,
    fun c hc => ?_, fun k c hc => ?_, fun _ _ _ _ => rfl, fun k c hc => ?_⟩
  · cases ha
    cases hw
  · cases hc
  · cases hc
  · cases hc

structure Inv (deviceId : String) (s : Session) : Prop where
  generation : GenerationInv s.generation
  trace : TraceInv deviceId s
  tasks : TasksInv s
  calls : CallsInv deviceId s

theorem inv_change (h : Change fromStr s s') (hi : Inv deviceId s) : Inv deviceId s' := by
  refine ⟨?_, traceInv_change h hi.trace, tasksInv_change h hi.trace hi.tasks,
    callsInv_change h hi.generation hi.trace hi.tasks hi.calls⟩
  rcases h.generation with he | ⟨b, hb, -⟩
  · exact he ▸ hi.generation
  · exact Generation.generationInv_step hb hi.generation

theorem inv_of_reachable (h : (automaton fromStr deviceId).Reachable s) : Inv deviceId s :=
  h.invariant
    (fun _ ⟨config, b, hb⟩ => hb ▸ ⟨Generation.generationInv_new b, traceInv_new config b,
      tasksInv_new config b, callsInv_new config b⟩)
    fun _ _ _ hs => inv_change (change_step hs)

/-- A run of a session is a run of its connection. -/
theorem generation_leads (h : (automaton fromStr deviceId).Leads s s') :
    (Generation.automaton fromStr).Leads s.generation s'.generation := by
  induction h with
  | refl => exact .refl
  | tail _ _ hs ih =>
    rcases (change_step hs).generation with he | ⟨b, hb, -⟩
    · rw [he]
      exact ih
    · exact .tail ih trivial hb

theorem generation_reachable (h : (automaton fromStr deviceId).Reachable s) :
    (Generation.automaton fromStr).Reachable s.generation := by
  obtain ⟨r, ⟨config, b, rfl⟩, hp⟩ := h
  exact ⟨_, ⟨b, rfl⟩, generation_leads hp⟩

end Maxrs.Session
