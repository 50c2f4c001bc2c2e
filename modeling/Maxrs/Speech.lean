import Maxrs.Owners
import Maxrs.UploadProtocol
import Maxrs.Vocabulary
set_option autoImplicit false

/-! Everything a client ever says, on all its connections. -/
namespace Maxrs

def SessionAction.Invokes (s : Session) (b : SessionAction) (opcode : Nat) (payload : Value) :
    Prop :=
  b = .sender (.invoke opcode payload) ∨
    ∃ a next, s.phase = .attempting a ∧ a.rest = .call (.invoke opcode payload) next

namespace Session

variable {fromStr : String → Except String Packet} {deviceId : String} {s s' : Session}

theorem stepAttempt_invokes {a : Attempt} {act : AttemptAction} (hp : s.phase = .attempting a)
    (h : s.stepAttempt fromStr a act = some s') :
    s'.generation = s.generation ∨ ∃ ga, s.generation.step fromStr ga = some s'.generation ∧
      ∀ opcode payload, ga = .invoke opcode payload →
        ∃ a next, s.phase = .attempting a ∧ a.rest = .call (.invoke opcode payload) next := by
  cases attempt_turn h with
  | performs op r next b g _ _ hb hg =>
    refine .inr ⟨b, hg, ?_⟩
    obtain rfl | rfl | rfl | ⟨u, rfl⟩ := effect_cases hb <;> exact nofun
  | issue opcode payload next g hr _ hg =>
    refine .inr ⟨_, hg, fun opcode payload he => ?_⟩
    cases he
    exact ⟨a, next, hp, hr⟩
  | onInvoke _ _ g _ _ hg | recv _ g _ hg => exact .inr ⟨_, hg, nofun⟩
  | answers | take | look => exact .inl rfl

theorem step_invokes {b : SessionAction} (h : s.step fromStr b = some s') :
    s'.generation = s.generation ∨ ∃ ga, s.generation.step fromStr ga = some s'.generation ∧
      ∀ opcode payload, ga = .invoke opcode payload → b.Invokes s opcode payload := by
  have one : ∀ {ga : GenerationAction} {m : Session}, s.act fromStr ga = some m →
      s'.generation = m.generation →
      (∀ opcode payload, ga = .invoke opcode payload → b.Invokes s opcode payload) →
      s'.generation = s.generation ∨ ∃ ga, s.generation.step fromStr ga = some s'.generation ∧
        ∀ opcode payload, ga = .invoke opcode payload → b.Invokes s opcode payload := by
    intro ga m hm he hi
    obtain ⟨g, hg, rfl⟩ := act_eq hm
    exact .inr ⟨ga, hg.trans (by rw [he]), hi⟩
  cases b with
  | poll =>
    simp only [step, poll] at h
    split at h
    · split at h
      · cases h
      · split at h
        · obtain ⟨m, hm, rfl⟩ := Option.map_eq_some_iff.mp h
          exact one hm rfl (by simp)
        · cases h
          exact .inl rfl
    · cases h
  | park =>
    simp only [step, park] at h
    split at h
    · split at h <;> cases h
      exact .inl rfl
    · cases h
  | attempt act =>
    simp only [step] at h
    split at h
    · rename_i a hp
      split at h
      · rcases stepAttempt_invokes hp h with he | ⟨ga, hg, hi⟩
        · exact .inl he
        · exact .inr ⟨ga, hg, fun opcode payload he => .inr (hi opcode payload he)⟩
      · cases h
    · cases h
  | finish =>
    simp only [step, finish] at h
    split at h
    · obtain ⟨m, hm, rfl⟩ := Option.map_eq_some_iff.mp h
      exact one hm rfl (by simp)
    · cases h
  | close act =>
    cases act with
    | offline | join =>
      simp only [step, stepClose] at h
      repeat' split at h
      all_goals first
        | (cases h; done)
        | (cases h
           exact .inl rfl)
    | cancel | abortAll | clear | takeSink =>
      simp only [step, stepClose] at h
      split at h
      · obtain ⟨m, hm, rfl⟩ := Option.map_eq_some_iff.mp h
        exact one hm rfl (by simp)
      · cases h
  | worker act => cases act <;> exact one h rfl (by simp [WorkerAction.toGeneration])
  | sender act =>
    simp only [step, Option.ite_none_right_eq_some] at h
    refine one h.2 rfl fun opcode payload he => ?_
    cases act <;> cases he
    exact .inl rfl
  | shutdown => exact one h rfl (by simp)

theorem step_calls {b : SessionAction} (h : s.step fromStr b = some s') (hi : Inv deviceId s)
    {k : CallId} {c' : Call} (hk : s'.generation.transport.calls k = some c') :
    (∃ c, s.generation.transport.calls k = some c ∧ c'.opcode = c.opcode ∧
      c'.payload = c.payload) ∨
    AttemptRequest deviceId s.config s.trace c'.opcode c'.payload ∨
    (b = .sender (.invoke c'.opcode c'.payload) ∧ k = s.generation.transport.started) := by
  have old : (∃ c, s.generation.transport.calls k = some c) →
      ∃ c, s.generation.transport.calls k = some c ∧ c'.opcode = c.opcode ∧
        c'.payload = c.payload := by
    rintro ⟨c, hc⟩
    obtain ⟨d, hd, ho, hp, -⟩ := ((change_step h).grows hi.generation).transport.calls k c hc
    cases hk.symm.trans hd
    exact ⟨c, hc, ho, hp⟩
  rcases step_invokes h with he | ⟨ga, hg, hinv⟩
  · exact .inl (old ⟨c', he ▸ hk⟩)
  · rcases Generation.calls_step hg with ⟨-, hcalls⟩ | ⟨opcode, payload, -, hcalls, -, hor⟩
    · exact .inl (old (hcalls k c' hk))
    · by_cases hne : k = s.generation.transport.started
      · rw [hcalls, hne, Function.update_self] at hk
        cases hk
        rcases hor with hga | ⟨-, -, rfl, rfl⟩
        · rcases hinv opcode payload hga with rfl | ⟨a, next, hp, hr⟩
          · exact .inr (.inr ⟨rfl, hne⟩)
          · obtain ⟨rest, hafter, hphase⟩ := hi.trace
            have hrest := hphase a hp
            rw [← hrest, hr] at hafter
            exact .inr (.inl (request_of_after hafter))
        · exact .inr (.inl .ping)
      · rw [hcalls, Function.update_of_ne hne] at hk
        exact .inl (old ⟨c', hk⟩)

end Session

theorem Transport.read_kept {t t' : Transport} {a : TransportAction} (h : t.step a = some t')
    (ha : ∀ p, a ≠ .read p) {n : Nat} {p : Packet} (hp : .read n p ∈ t'.log) :
    .read n p ∈ t.log := by
  have other : ∀ {e : TransportEvent}, t'.log = t.log ++ [e] → .read n p ≠ e →
      .read n p ∈ t.log := by
    intro e he hne
    rw [he, List.mem_append, List.mem_singleton] at hp
    exact hp.resolve_right hne
  cases a with
  | start opcode payload | abandon | clear =>
    cases h
    exact hp
  | call k a =>
    obtain ⟨c, hc, h⟩ := Option.bind_eq_some_iff.mp h
    obtain ⟨c', hs⟩ := stepCall_callStep h
    rcases hs.log with he | ⟨s, _, _, he⟩ | ⟨s, _, _, he⟩
    · exact he ▸ hp
    · exact other he (by simp)
    · exact other he (by simp)
  | ack a =>
    rcases (stepAck_frame h).2.2.2.2.2 with he | ⟨_, q, _, _, _, he⟩
    · exact he ▸ hp
    · exact other he (by simp)
  | read q => exact absurd rfl (ha q)
  | receiveResponse =>
    obtain ⟨⟨m, q⟩, hr, rfl⟩ := Option.map_eq_some_iff.mp h
    rcases deliver_log t m q with he | ⟨k, he⟩
    · exact he ▸ hp
    · exact other he (by simp)
  | install | takeSink =>
    simp only [step, Option.ite_none_right_eq_some, Option.some.injEq] at h
    obtain ⟨_, rfl⟩ := h
    exact hp

namespace Generation

variable {fromStr : String → Except String Packet} {g g' : Generation}

def Decoded (fromStr : String → Except String Packet) (g : Generation) : Prop :=
  ∀ n p, .read n p ∈ g.transport.log → ∃ text, fromStr text = .ok p

theorem Decoded.onTransport {a : TransportAction} {m : Generation} (hi : Decoded fromStr g)
    (h : g.onTransport a = some m) (ha : ∀ p, a ≠ .read p) (he : g'.transport = m.transport) :
    Decoded fromStr g' := by
  obtain ⟨t, ht, rfl⟩ := onTransport_eq h
  intro n p hp
  rw [he] at hp
  exact hi n p (Transport.read_kept ht ha hp)

theorem Decoded.beside (hi : Decoded fromStr g) (h : Beside g g') : Decoded fromStr g' := by
  intro n p hp
  rcases h.entry with hl | ⟨d, hl, hd⟩
  · exact hi n p (hl ▸ hp)
  · rw [hl, List.mem_append, List.mem_singleton] at hp
    refine hi n p (hp.resolve_right fun he => ?_)
    subst he
    cases hd

theorem readTurn_decodes {frame : Option Frame} {act : FrameAction} {p : Packet}
    (h : readTurn fromStr frame = (act, some p)) : ∃ text, fromStr text = .ok p := by
  unfold readTurn at h
  split at h
  · cases h
  · split at h
    · cases h
    · cases h
    · split at h
      · cases h
      · cases h
        exact ⟨_, by assumption⟩

theorem decoded_reader {a : ReaderAction} (h : g.stepReader fromStr a = some g')
    (hi : Decoded fromStr g) : Decoded fromStr g' := by
  cases a with
  | frame frame =>
    simp only [stepReader] at h
    split at h
    · split at h
      · intro n p hp
        exact hi n p (onFrame_log h ▸ hp)
      · rename_i act packet hturn
        obtain ⟨g₁, h₁, h⟩ := Option.bind_eq_some_iff.mp h
        obtain ⟨t, ht, rfl⟩ := onTransport_eq h₁
        simp only [Transport.step, Option.ite_none_right_eq_some, Option.some.injEq] at ht
        obtain ⟨-, rfl⟩ := ht
        intro n p hp
        rw [onFrame_log h] at hp
        rcases List.mem_append.mp hp with hp | hp
        · exact hi n p hp
        · rw [List.mem_singleton] at hp
          cases hp
          exact readTurn_decodes hturn
    · cases h
  | start | filter | forward =>
    simp only [stepReader] at h
    repeat' split at h
    all_goals first
      | (cases h; done)
      | (cases h
         exact hi)
  | received =>
    simp only [stepReader] at h
    split at h
    · obtain ⟨m, hm, rfl⟩ := Option.map_eq_some_iff.mp h
      exact hi.onTransport hm (by simp) rfl
    · cases h
  | ack b =>
    simp only [stepReader] at h
    split at h
    · split at h
      · obtain ⟨m, hm, rfl⟩ := Option.map_eq_some_iff.mp h
        exact hi.onTransport hm (by simp) (by split <;> rfl)
      · cases h
    · cases h
  | abort =>
    simp only [stepReader] at h
    split at h
    · obtain ⟨m, hm, h⟩ := Option.bind_eq_some_iff.mp h
      obtain ⟨m', hm', rfl⟩ := Option.map_eq_some_iff.mp h
      exact (hi.onTransport hm (by simp) rfl).onTransport hm' (by simp) (by split <;> rfl)
    · cases h

theorem decoded_step {a : GenerationAction} (h : g.step fromStr a = some g')
    (hi : Decoded fromStr g) : Decoded fromStr g' := by
  cases a with
  | invoke opcode payload => exact hi.beside (beside_invoke h)
  | onInvoke k b => exact hi.beside (beside_stepInvoke h)
  | reader b => exact decoded_reader h hi
  | keepalive b => exact hi.beside (beside_stepKeepalive h)
  | install | clear | takeSink => exact hi.onTransport h (by simp) rfl
  | spawnReader | spawnKeepalive | recv =>
    simp only [step] at h
    repeat' split at h
    all_goals first
      | (cases h; done)
      | (cases h
         exact hi)
  | setOwnUserId id | register fileId | dropWaiter w | cancel | abortAll =>
    cases h
    exact hi
  | dropAttempt waiting =>
    cases waiting with
    | none =>
      cases h
      exact hi
    | some k =>
      obtain ⟨m, hm, rfl⟩ := Option.map_eq_some_iff.mp h
      have hm' : Decoded fromStr m := hi.beside (beside_stepInvoke hm)
      exact hm'

theorem decoded_of_reachable (h : (automaton fromStr).Reachable g) : Decoded fromStr g := by
  refine h.invariant (fun g hg n p hp => ?_) fun _ _ _ => decoded_step
  obtain ⟨b, rfl⟩ := hg
  cases hp

end Generation

variable {setup : Setup} {sh sh' : Shared} {w w' : Client}

/-- The configuration with which the attempt on connection `c` can begin: the token may be one that
an earlier attempt has set. -/
def Configured (setup : Setup) (sh : Shared) (c : ConnId) (config : LoginConfig) : Prop :=
  config = { setup.loginConfig with sessionToken := config.sessionToken } ∧
    ∀ t, config.sessionToken = some t → setup.loginConfig.sessionToken = some t ∨
      ∃ d, d < c ∧ Did (sh.sessions d).trace (.setSessionToken t) ()

theorem Configured.mono {c c' : ConnId} {config : LoginConfig} (h : Configured setup sh c config)
    (hg : sh.Grows sh') (hc : c ≤ sh.created) (hc' : c ≤ c') : Configured setup sh' c' config := by
  refine ⟨h.1, fun t ht => (h.2 t ht).imp id ?_⟩
  rintro ⟨d, hd, hdid⟩
  exact ⟨d, Nat.lt_of_lt_of_le hd hc', hg.did d (Nat.lt_of_lt_of_le hd hc) _ _ hdid⟩

structure ConfigInv (setup : Setup) (w : Client) : Prop where
  runner : ∀ r run runner, w.runs r = some run → run.supervisor = .looping runner →
    Configured setup w.shared w.shared.created runner.config
  session : ∀ c, c < w.shared.created →
    Configured setup w.shared c (w.shared.sessions c).config

theorem configured_after {c : ConnId} {config : LoginConfig} {b : SessionAction} {s : Session}
    (h : Configured setup sh sh.created config) (hg : sh.Grows sh') (hc : c < sh.created)
    (hs : (sh.sessions c).step setup.fromStr b = some s) (he : sh'.sessions c = s) :
    Configured setup sh' sh'.created (configAfter config (sh.sessions c) b) := by
  have hold := h.mono hg (Nat.le_refl _) hg.created
  unfold configAfter
  split
  · split
    · rename_i t ht
      refine ⟨by rw [h.1], fun t' ht' => .inr ⟨c, Nat.lt_of_lt_of_le hc hg.created, ?_⟩⟩
      cases ht'
      rw [he]
      unfold Session.tokenToSet at ht
      split at ht
      · rename_i next _ _ _ hp
        cases ht
        simp only [Session.step, hp, Session.stepAttempt] at hs
        split at hs
        · cases hs
          exact did_snoc.mpr (.inr rfl)
        · cases hs
      · cases ht
    · exact hold
  · exact hold

theorem configInv_step {a : ClientAction} (hr : (Client.automaton setup).Reachable w)
    (h : w.step setup a = some w') (hi : ConfigInv setup w) : ConfigInv setup w' := by
  have hinv := clientInv_of_reachable hr
  have hg := client_grows (client_step h) hinv
  refine ⟨fun r run' runner' hrun hsup => ?_, fun c hc => ?_⟩
  · rcases (client_step h).runner_config hrun hsup with
      he | ⟨run, runner, hq, hm, he | ⟨c, b, s, hpc, hs, hself, he⟩⟩ <;> rw [he]
    · exact ⟨rfl, fun t ht => .inl ht⟩
    · exact (hi.runner r run runner hq hm).mono hg (Nat.le_refl _) hg.created
    · have hc := hinv.handles.runner r run runner c hq hm hpc
      exact configured_after (hi.runner r run runner hq hm) hg hc hs hself
  · rcases (client_step h).session_config hc with
      ⟨hlt, he⟩ | ⟨rfl, r, run, runner, hq, hm, he⟩ <;> rw [he]
    · exact (hi.session c hlt).mono hg (Nat.le_of_lt hlt) (Nat.le_refl _)
    · exact (hi.runner r run runner hq hm).mono hg (Nat.le_refl _) (Nat.le_refl _)

theorem configInv_of_reachable (h : (Client.automaton setup).Reachable w) : ConfigInv setup w := by
  refine h.invariant_of (fun w hw => ?_) fun w a w' hr hs hi => configInv_step hr hs hi
  obtain ⟨millis, rfl⟩ := hw
  refine ⟨fun r run runner hr => ?_, fun c hc => absurd hc (Nat.not_lt_zero c)⟩
  cases hr

/-- A token to log in with is the saved one, or an answer of the server on this connection or on
an earlier one has brought it. -/
theorem token_origin (h : (Client.automaton setup).Reachable w) {c : ConnId} {t : String}
    (hc : c < w.shared.created) (ht : (w.shared.sessions c).config.sessionToken = some t) :
    setup.loginConfig.sessionToken = some t ∨
      ∃ d, d < c ∧ WonBySms (w.shared.sessions d).trace t := by
  induction c using Nat.strong_induction_on generalizing t with
  | h c ih =>
    rcases ((configInv_of_reachable h).session c hc).2 t ht with hsaved | ⟨d, hd, hdid⟩
    · exact .inl hsaved
    · have hdc := Nat.lt_trans hd hc
      have hi := Session.inv_of_reachable ((clientInv_of_reachable h).shared.sessions d hdc)
      obtain ⟨before, after, htr, u, hlogged⟩ := hdid.split hi.trace.faithful
      obtain ⟨p, hp, -⟩ := hlogged.login
      -- the attempt on `d` has asked for a login with this token
      obtain ⟨b₁, a₁, hb₁⟩ := List.append_of_mem hp
      obtain ⟨rest, hafter, -⟩ := hi.trace
      rw [htr, hb₁, List.append_assoc, List.cons_append] at hafter
      obtain ⟨next, hasks⟩ := hafter.split
      have later : ∀ op r, Did b₁ op r → Did (w.shared.sessions d).trace op r := by
        intro op r hd
        rw [htr, hb₁, List.append_assoc]
        exact List.mem_append_left _ hd
      cases request_of_after hasks with
      | login t' ht' =>
        rcases ht' with hcfg | ⟨o, pl, q, ho, hans, htok⟩
        · rcases ih d hd hdc hcfg with hc | ⟨e, he, hwon⟩
          · exact .inl hc
          · exact .inr ⟨e, Nat.lt_trans he hd, hwon⟩
        · exact .inr ⟨d, hd, o, pl, q, ho, later _ _ hans, htok⟩

theorem SendStep.requests_subset {snd snd' : Send} (h : SendStep setup sh snd sh' snd') :
    ∀ p, p ∈ snd.requests → p ∈ snd'.requests := by
  intro p hp
  cases h with
  | issue _ _ _ _ _ _ _ _ _ _ => exact List.mem_append_left _ hp
  | clock _ _ _ | takeCid _ _ _ _ | borrow _ _ | handed _ _ _ _ _ | stopped _ _ _ | wait _ _ _ _ _
  | woken _ _ _ | act _ _ _ | answer _ _ _ _ _ _ _ _ _ _ _ | turn _ _ _ _ | done _ _ _ _
  | retry _ _ _ _ _ _ | fail _ _ _ _ _ _ | drop _ => exact hp

theorem SendStep.calls {snd snd' : Send} (h : SendStep setup sh snd sh' snd') {c : ConnId}
    {k : CallId} {d' : Call} (hk : sh'.call c k = some d') :
    (∃ d, sh.call c k = some d) ∨ (c, k) ∈ snd'.requests := by
  have touch : ∀ {e : ConnId}, Touches setup sh e sh' → ∃ d, sh.call c k = some d := by
    rintro e (rfl | ⟨a, s, ha, hs, rfl⟩)
    · exact ⟨d', hk⟩
    · by_cases hce : c = e
      · subst hce
        obtain ⟨g, hg, rfl⟩ := Session.act_eq hs
        rw [Shared.call, setSession_self] at hk
        rcases Generation.calls_step hg with ⟨-, hcalls⟩ | ⟨o, p, -, -, -, he | ⟨he, -⟩⟩
        · exact hcalls k d' hk
        · cases a <;> cases he
          cases ha
        · cases a <;> cases he
      · rw [Shared.call, setSession_of_ne _ _ hce] at hk
        exact ⟨d', hk⟩
  have same : sh'.sessions = sh.sessions → ∃ d, sh.call c k = some d := fun he =>
    ⟨d', by rw [Shared.call, ← he]; exact hk⟩
  cases h with
  | issue b opcode payload next s hb hr hw hact he =>
    subst he
    by_cases hcb : c = b.connection
    · subst hcb
      obtain ⟨g, hg, rfl⟩ := Session.act_eq hact
      rw [Shared.call, setSession_self] at hk
      obtain ⟨hcalls, -⟩ := Generation.invoke_calls hg
      by_cases hks : k = (sh.sessions b.connection).generation.transport.started
      · exact .inr (hks ▸ List.mem_append_right _ (List.mem_singleton.mpr rfl))
      · change g.transport.calls k = some d' at hk
        rw [hcalls, Function.update_of_ne hks] at hk
        exact .inl ⟨d', hk⟩
    · rw [Shared.call, setSession_of_ne _ _ hcb] at hk
      exact .inl ⟨d', hk⟩
  | act b hp ht => exact .inl (touch ht)
  | answer b b' op r next hp hr ha hb hbt ht => exact .inl (touch ht)
  | drop ht =>
    rcases ht with rfl | ⟨b, -, ht⟩
    · exact .inl ⟨d', hk⟩
    · exact .inl (touch ht)
  | takeCid _ _ _ hs =>
    subst hs
    exact .inl ⟨d', hk⟩
  | clock _ _ hs | borrow _ hs | handed _ _ _ _ hs | stopped _ _ hs | wait _ _ _ _ hs | woken _ _ hs
  | turn _ _ _ hs | done _ _ _ hs | retry _ _ _ _ _ hs | fail _ _ _ _ _ hs =>
    subst hs
    exact .inl ⟨d', hk⟩

namespace Client

def SaidBy (setup : Setup) (w : Client) (c : ConnId) (k : CallId) (d : Call) : Prop :=
  AttemptRequest setup.deviceId (w.shared.sessions c).config (w.shared.sessions c).trace
      d.opcode d.payload ∨
    ∃ i snd, w.sends i = some snd ∧ (c, k) ∈ snd.requests

def SaidInv (setup : Setup) (w : Client) : Prop :=
  ∀ c k d, c < w.shared.created → w.shared.call c k = some d → SaidBy setup w c k d

theorem saidInv_step {a : ClientAction} (hr : (automaton setup).Reachable w)
    (h : w.step setup a = some w') (hi : SaidInv setup w) : SaidInv setup w' := by
  have hinv := clientInv_of_reachable hr
  have hg := client_grows (client_step h) hinv
  -- the sends keep their requests
  have sends : ∀ {i snd}, w.sends i = some snd → ∃ snd', w'.sends i = some snd' ∧
      ∀ p, p ∈ snd.requests → p ∈ snd'.requests := by
    intro i snd hs
    cases client_step h with
    | startSend j job hj =>
      have hne : i ≠ j := by
        rintro rfl
        cases hj.symm.trans hs
      exact ⟨snd, by simp [Function.update_of_ne hne, hs], fun _ => id⟩
    | send j old new sh hj hst =>
      by_cases hij : i = j
      · subst hij
        cases hj.symm.trans hs
        exact ⟨new, Function.update_self .., hst.requests_subset⟩
      · exact ⟨snd, by simp [Function.update_of_ne hij, hs], fun _ => id⟩
    | startRun _ _ | run _ _ _ _ _ _ | startDisconnect _ _ | disconnect _ _ _ _ _ _
    | worker _ _ _ _ _ => exact ⟨snd, hs, fun _ => id⟩
  intro c k d' hc hk
  -- a call that was there before
  have old : ∀ {d}, c < w.shared.created → w.shared.call c k = some d →
      (w'.shared.sessions c).config = (w.shared.sessions c).config → SaidBy setup w' c k d' := by
    intro d hlt hd hcfg
    obtain ⟨ho, hp⟩ := call_back hg hlt hd hk
    rcases hi c k d hlt hd with hreq | ⟨i, snd, hs, hm⟩
    · refine .inl ?_
      rw [ho, hp, hcfg]
      exact hreq.later fun op r => hg.did c hlt op r
    · obtain ⟨snd', hs', hsub⟩ := sends hs
      exact .inr ⟨i, snd', hs', hsub _ hm⟩
  have same : w'.shared.sessions c = w.shared.sessions c → SaidBy setup w' c k d' := by
    intro he
    have hlt : c < w.shared.created := by
      by_contra hge
      have hnew := unborn_of_reachable hr c (Nat.le_of_not_lt hge)
      rw [Shared.call, he, hnew] at hk
      cases hk
    exact old hlt (by rw [Shared.call, ← he]; exact hk) (by rw [he])
  -- a step of the session by one of its own tasks
  have own : (∀ i, a.task ≠ .send i) → SaidBy setup w' c k d' := by
    intro hsend
    rcases session_by h hinv (lifecycleInv_of_reachable hr) c with
      he | ⟨-, -, config, b, he⟩ | ⟨hlt, b, hb, hby⟩
    · exact same he
    · rw [Shared.call, he] at hk
      cases hk
    · have hs := Session.inv_of_reachable (hinv.shared.sessions c hlt)
      have hcfg := (Session.change_step hb).config
      rcases Session.step_calls hb hs hk with ⟨d, hd, -⟩ | hreq | ⟨rfl, -⟩
      · exact old hlt hd hcfg
      · refine .inl ?_
        rw [hcfg]
        exact hreq.later fun op r => hg.did c hlt op r
      · obtain ⟨i, hi⟩ := hby
        exact absurd hi (hsend i)
  cases a with
  | send i x =>
    obtain ⟨snd, hsnd, h⟩ := Option.bind_eq_some_iff.mp h
    obtain ⟨out, hout, rfl⟩ := Option.map_eq_some_iff.mp h
    have hst := send_step hout
    rcases hst.calls hk with ⟨d, hd⟩ | hm
    · exact old (hst.attempts.created ▸ hc) hd (hst.attempts.keptToken c).2
    · exact .inr ⟨i, out.2, Function.update_self .., hm⟩
  | startSend i job =>
    simp only [Client.step] at h
    split at h <;> cases h
    exact same rfl
  | run r x =>
    exact own fun i => by cases hx : x.ofCall <;> simp [ClientAction.task, hx]
  | worker d x => cases x <;> exact own fun i he => by cases he
  | startRun _ | startDisconnect _ | disconnect _ _ => exact own fun i he => by cases he

theorem saidInv_of_reachable (h : (automaton setup).Reachable w) : SaidInv setup w := by
  refine h.invariant_of (fun w hw => ?_) fun w a w' hr hs hi => saidInv_step hr hs hi
  obtain ⟨millis, rfl⟩ := hw
  exact fun c k d hc => absurd hc (Nat.not_lt_zero c)

/-- The server has answered a request of this kind on the connection. -/
def Told (w : Client) (c : ConnId) (opcode : Nat) (p : Packet) : Prop :=
  ∃ seq payload, Session.RequestAnswered (w.shared.log c) (Packet.request seq opcode payload) p

/-- The token is the saved one, or the server has given it away on this connection or before. -/
def Known (setup : Setup) (w : Client) (c : ConnId) (t : String) : Prop :=
  setup.loginConfig.sessionToken = some t ∨ ∃ d opcode p, d ≤ c ∧
    (opcode = Opcode.AUTH ∨ opcode = Opcode.AUTH_PASSWORD) ∧ Told w d opcode p ∧
    loginTokenFromAuthPayload p.payload = .ok t

theorem told_of_answered (h : (automaton setup).Reachable w) {c : ConnId}
    (hc : c < w.shared.created) {opcode : Nat} {payload : Value} {p : Packet}
    (ha : Answered (w.shared.sessions c).trace opcode payload (.ok p)) : Told w c opcode p := by
  have hi := Session.inv_of_reachable ((clientInv_of_reachable h).shared.sessions c hc)
  obtain ⟨seq, hans⟩ := Session.answered_ok hi ha
  exact ⟨seq, payload, hans⟩

/-- What a call of `send_text` or `send_file_bytes` says: its message under its `cid`, and a file by
the id that an answer to `FILE_UPLOAD` has given it. -/
def SendRequest (told : Nat → Packet → Prop) (cid : Int) : SendJob → Nat → Value → Prop
  | .text m, opcode, payload => opcode = Opcode.MSG_SEND ∧ payload = textMessagePayload m cid
  | .file m, opcode, payload =>
    (opcode = Opcode.FILE_UPLOAD ∧ payload = fileUploadPayload) ∨
    (opcode = Opcode.MSG_SEND ∧ ∃ p url fileId, told Opcode.FILE_UPLOAD p ∧
      uploadInfo p.payload = .ok (url, fileId) ∧
      payload = fileMessagePayload m.chatId m.caption fileId cid)

theorem told_of_issued (h : (automaton setup).Reachable w) {c : ConnId} {snd : Send}
    {fileId : Int} (hc : c < w.shared.created) (hi : IssuedOn w.shared snd c fileId) :
    ∃ p url, Told w c Opcode.FILE_UPLOAD p ∧ uploadInfo p.payload = .ok (url, fileId) := by
  obtain ⟨k, d, p, url, -, hd, ho, hpay, hret, hinfo⟩ := hi
  have hgen := (Session.inv_of_reachable
    ((clientInv_of_reachable h).shared.sessions c hc)).generation
  obtain ⟨seq, -, hans⟩ := Session.requestAnswered_of_returned hgen hd hret
  rw [Call.request, ho] at hans
  exact ⟨p, url, ⟨seq, d.payload, hans⟩, hinfo⟩

/-- The requests of a call, and where the file of its message comes from. -/
theorem send_request (h : (automaton setup).Reachable w) {i : SendId} {snd : Send} {c : ConnId}
    {k : CallId} {d : Call} (hs : w.sends i = some snd) (hm : (c, k) ∈ snd.requests)
    (hd : w.shared.call c k = some d) :
    SendRequest (Told w c) snd.cid snd.job d.opcode d.payload := by
  have hsend := sendInv_of_reachable h i snd hs
  obtain ⟨hu, d', hd', hgen⟩ := hsend.requests c k hm
  cases hd.symm.trans hd'
  cases hj : snd.job with
  | text m =>
    rw [hj] at hgen
    exact hgen
  | file m =>
    rw [hj] at hgen
    rcases hgen with hup | ⟨ho, fileId, hfit, hpay⟩
    · exact .inl hup
    · obtain ⟨-, acts, ⟨millis, rfl⟩, hrun⟩ := h.exists_exec
      have hfile : attachedFile d.payload = some fileId := by
        rw [hpay]
        exact Value.asI64_int fileId hfit
      obtain ⟨hissued, -⟩ := attested_of_exec hrun i snd hs c k d fileId hm hd ho hfile
      obtain ⟨p, url, htold, hinfo⟩ := told_of_issued h (hsend.known c hu) hissued
      exact .inr ⟨ho, p, url, fileId, htold, hinfo, hpay⟩

/-- The attempts draw on what was configured and on what the server has told. -/
theorem attempt_request (h : (automaton setup).Reachable w) {c : ConnId}
    (hc : c < w.shared.created) {opcode : Nat} {payload : Value}
    (hreq : AttemptRequest setup.deviceId (w.shared.sessions c).config
      (w.shared.sessions c).trace opcode payload) :
    Request setup.deviceId setup.loginConfig (Known setup w c) (Told w c)
      (Did (w.shared.sessions c).trace) opcode payload := by
  have hcfg := ((configInv_of_reachable h).session c hc).1
  have won : ∀ {d t}, d ≤ c → WonBySms (w.shared.sessions d).trace t → Known setup w c t := by
    rintro d t hd ⟨o, pl, p, ho, ha, hp⟩
    exact .inr ⟨d, o, p, hd, ho, told_of_answered h (Nat.lt_of_le_of_lt hd hc) ha, hp⟩
  refine hreq.mono ?_ (fun t ht => ?_) (fun o p ⟨pl, ha⟩ => told_of_answered h hc ha)
    fun _ _ => id
  · rw [hcfg]
  · rcases ht with ht | ht
    · rcases token_origin h hc ht with hsaved | ⟨d, hd, hwon⟩
      · exact .inl hsaved
      · exact won (Nat.le_of_lt hd) hwon
    · exact won (Nat.le_refl c) ht

/-- Everything a client ever writes: a request of its vocabulary, with nothing in it but what it was
configured with, what the server has told it and what the operator, the solver or the caller of a
send has given, or the acknowledgement of a message it has read; each such frame is decoded from
its encoding again. -/
theorem client_speech {json : JsonText} (hjson : setup.fromStr = json.fromStr)
    (h : (automaton setup).Reachable w) {c : ConnId} (hc : c < w.shared.created) :
    (∀ k q, .wrote k q ∈ w.shared.log c →
      (∃ seq opcode payload, q = Packet.request seq opcode payload ∧
        (Request setup.deviceId setup.loginConfig (Known setup w c) (Told w c)
            (Did (w.shared.sessions c).trace) opcode payload ∨
          ∃ i snd, w.sends i = some snd ∧ (c, k) ∈ snd.requests ∧
            SendRequest (Told w c) snd.cid snd.job opcode payload)) ∧
      q.Fits ∧ Packet.ofValue q.toValue = some q) ∧
    (∀ n q, .acked n q ∈ w.shared.log c →
      (∃ p m, .read n p ∈ w.shared.log c ∧ p.isRequest = true ∧
        serverRequest p = .notifMessage m ∧ q = ackPacket p m) ∧
      q.Fits ∧ Packet.ofValue q.toValue = some q) := by
  have hs := (clientInv_of_reachable h).shared
  have hsession := hs.sessions c hc
  have hi := Session.inv_of_reachable hsession
  have coded : ∀ {q : Packet}, q.Fits → q.Fits ∧ Packet.ofValue q.toValue = some q :=
    fun hq => ⟨hq, Packet.ofValue_toValue hq⟩
  constructor
  · intro k q hq
    obtain ⟨d, seq, hd, hseq, rfl, -⟩ :=
      Transport.wroteInv_of_reachable hi.generation.transport k q hq
    have hlt : seq < 2 ^ 32 := by
      obtain ⟨turn, -, rfl⟩ := Option.map_eq_some_iff.mp hseq
      exact Nat.mod_lt _ (by decide)
    rcases saidInv_of_reachable h c k d hc hd with hreq | ⟨i, snd, hsnd, hm⟩
    · exact ⟨⟨seq, _, _, rfl, .inl (attempt_request h hc hreq)⟩,
        coded (fits_request hlt hreq.fits)⟩
    · have hgen := (genuine_of_wrote hs (sendInv_of_reachable h i snd hsnd) hm hq).1
      exact ⟨⟨seq, _, _, rfl, .inr ⟨i, snd, hsnd, hm, send_request h hsnd hm hd⟩⟩,
        coded (fits_request hlt hgen.fits)⟩
  · intro n q hq
    have hg := Session.generation_reachable hsession
    obtain ⟨m, hb, -⟩ := (Generation.pipelineInv_of_reachable hg).acked n q hq
    obtain ⟨p, hp, hreq, hserver, rfl⟩ := hb
    obtain ⟨text, htext⟩ := Generation.decoded_of_reachable hg n p hp
    rw [hjson] at htext
    exact ⟨⟨p, m, hp, hreq, hserver, rfl⟩, coded (fits_ack m (JsonText.fits_of_fromStr htext))⟩

/-- The documents behind the texts of the sample server. -/
def sampleJson : JsonText where
  parse text := (sampleSetup.fromStr text).map Packet.toValue
  report _ := "no packet"

/-- The message of a send, with the login before it. -/
theorem client_speech_text : ∃ w : Client, ∃ q, .wrote 2 q ∈ w.shared.log 0 ∧
    q.opcode = Opcode.MSG_SEND ∧ Packet.ofValue q.toValue = some q := by
  have hr : (automaton { sampleSetup with fromStr := sampleJson.fromStr }).Reachable
      (((automaton { sampleSetup with fromStr := sampleJson.fromStr }).exec
        (new { sampleSetup with fromStr := sampleJson.fromStr } 0) sampleSend).get rfl) :=
    Automaton.reachable_get ⟨0, rfl⟩
  have hw : .wrote 2 (Packet.request 3 Opcode.MSG_SEND
      (textMessagePayload { chatId := 1, message := { text := "hi", elements := [] } } (-1))) ∈
      (((automaton { sampleSetup with fromStr := sampleJson.fromStr }).exec
        (new { sampleSetup with fromStr := sampleJson.fromStr } 0)
        sampleSend).get rfl).shared.log 0 :=
    List.mem_of_getLast? rfl
  have hspeech := client_speech (c := 0) (show _ = sampleJson.fromStr from rfl) hr (by decide)
  exact ⟨_, _, hw, rfl, (hspeech.1 2 _ hw).2.2⟩

end Client

end Maxrs
