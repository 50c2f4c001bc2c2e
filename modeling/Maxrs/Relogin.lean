import Maxrs.Isolation
import Maxrs.Pipeline
set_option autoImplicit false

/-! The session token that an attempt leaves to its successors. -/
namespace Maxrs

/-- What `run_attempt` has made of `config.session_token`. -/
def tokenAfter (config : LoginConfig) (tr : AttemptTrace) : Option String :=
  tr.foldl
    (fun kept e =>
      match e.1 with
      | .setSessionToken token => some token
      | _ => kept)
    config.sessionToken

theorem tokenAfter_set (config : LoginConfig) (tr : AttemptTrace) (token : String) :
    tokenAfter config (tr ++ [⟨.setSessionToken token, ()⟩]) = some token := by
  simp [tokenAfter]

theorem tokenAfter_of_ne (config : LoginConfig) (tr : AttemptTrace) {op : AttemptOp} {r : op.Ret}
    (h : ∀ token, op ≠ .setSessionToken token) :
    tokenAfter config (tr ++ [⟨op, r⟩]) = tokenAfter config tr := by
  unfold tokenAfter
  rw [List.foldl_append]
  cases op with
  | setSessionToken token => exact absurd rfl (h token)
  | _ => rfl

theorem tokenAfter_cases (config : LoginConfig) (tr : AttemptTrace) :
    tokenAfter config tr = config.sessionToken ∨
      ∃ token, tokenAfter config tr = some token ∧ Did tr (.setSessionToken token) () := by
  induction tr using List.reverseRecOn with
  | nil => exact .inl rfl
  | append_singleton tr e ih =>
    obtain ⟨op, r⟩ := e
    by_cases h : ∃ token, op = .setSessionToken token
    · obtain ⟨token, rfl⟩ := h
      exact .inr ⟨token, tokenAfter_set config tr token, did_snoc.mpr (.inr rfl)⟩
    · rw [tokenAfter_of_ne config tr fun token he => h ⟨token, he⟩]
      exact ih.imp id fun ⟨token, ht, hd⟩ => ⟨token, ht, hd.mono⟩

def WonBySms (tr : AttemptTrace) (token : String) : Prop :=
  ∃ opcode payload p, (opcode = Opcode.AUTH ∨ opcode = Opcode.AUTH_PASSWORD) ∧
    Answered tr opcode payload (.ok p) ∧ loginTokenFromAuthPayload p.payload = .ok token

/-- Behind a `LOGIN` with this token a response to it was read that is no error. -/
def LoginRead (log : List TransportEvent) (token : String) : Prop :=
  ∃ before after k s n p, log = before ++ .read n p :: after ∧
    .wrote k (Packet.request s Opcode.LOGIN (loginPayload token)) ∈ before ∧
    p.seq = s ∧ p.isRequest = false ∧ p.isError = false

theorem LoginRead.of_snoc {log : List TransportEvent} {e : TransportEvent} {token : String}
    (h : LoginRead (log ++ [e]) token) (he : e.ofReader = false) : LoginRead log token := by
  obtain ⟨before, after, k, s, n, p, hl, hw, hp⟩ := h
  rcases List.eq_nil_or_concat after with rfl | ⟨mid, last, rfl⟩
  · obtain ⟨-, hd⟩ := List.append_inj' hl rfl
    cases hd
    cases he
  · have hl' : log ++ [e] = (before ++ .read n p :: mid) ++ [last] := by simpa using hl
    obtain ⟨hb, -⟩ := List.append_inj' hl' rfl
    exact ⟨before, mid, k, s, n, p, hb, hw, hp⟩

theorem LoginRead.of_getElem {log : List TransportEvent} {i j k s n : Nat} {p : Packet}
    {token : String} (hij : i < j)
    (hw : log[i]? = some (.wrote k (Packet.request s Opcode.LOGIN (loginPayload token))))
    (hr : log[j]? = some (.read n p)) (hs : p.seq = s) (hp : p.isRequest = false)
    (he : p.isError = false) : LoginRead log token := by
  obtain ⟨hj, hget⟩ := List.getElem?_eq_some_iff.mp hr
  refine ⟨log.take j, log.drop (j + 1), k, s, n, p, ?_, ?_, hs, hp, he⟩
  · rw [← hget, ← List.drop_eq_getElem_cons hj, List.take_append_drop]
  · refine List.mem_of_getElem? (i := i) ?_
    rw [List.getElem?_take_of_lt hij, hw]

theorem Generation.loginRead_joined {g g' : Generation} {token : String} (h : PipeStep g g')
    (hj : g.reader.joined = true) (hl : LoginRead g'.transport.log token) :
    LoginRead g.transport.log token := by
  have beside : ∀ {x : Generation}, Beside g x → LoginRead x.transport.log token →
      LoginRead g.transport.log token := by
    intro x hb hx
    rcases hb.entry with he | ⟨e, he, hr⟩ <;> rw [he] at hx
    · exact hx
    · exact hx.of_snoc hr
  cases h with
  | beside hb => exact beside hb hl
  | reader hn _ =>
    rw [hj] at hn
    cases hn
  | spawn _ he | recv _ _ _ _ he | abortAll he =>
    subst he
    exact hl
  | drop x hb he =>
    subst he
    exact beside hb hl

namespace Session

variable {fromStr : String → Except String Packet} {deviceId : String} {s s' : Session}

def keptToken (s : Session) : Option String := tokenAfter s.config s.trace

/-- A token of the SMS flow with which the server lets the client in. -/
def Won (s : Session) (token : String) : Prop :=
  WonBySms s.trace token ∧ LoginRead s.generation.transport.log token

def ComesTo (s : Session) (before : AttemptTrace) (op : AttemptOp) : Prop :=
  (∃ r after, s.trace = before ++ ⟨op, r⟩ :: after) ∨
    (s.trace = before ∧ ∃ a next, s.phase = .attempting a ∧ a.rest = .call op next)

theorem ComesTo.pre {before : AttemptTrace} {op : AttemptOp} (h : s.ComesTo before op)
    (hi : TraceInv deviceId s) : AttemptPre deviceId s.config before op := by
  rcases h with ⟨r, after, he⟩ | ⟨rfl, a, next, hp, hr⟩
  · exact hi.faithful before _ after he
  · exact hi.pre hp hr

theorem Change.config (h : Change fromStr s s') : s'.config = s.config := by
  cases h with
  | flags _ _ _ _ _ he | foreign _ _ _ _ _ he | issue _ _ _ _ _ _ _ _ _ he
  | answer _ _ _ _ _ _ _ _ _ he | recv _ _ _ _ _ _ _ he | drop _ _ _ _ _ _ he _ | offline _ _ he
  | cancel _ _ _ _ he | abortAll _ _ _ _ he | join _ _ _ _ he | clear _ _ _ _ he
  | takeSink _ _ _ _ he =>
    subst he
    rfl

theorem Won.of_over (h : Change fromStr s s') (hi : Inv deviceId s) (h7 : s.phase.rank = 7) :
    s'.trace = s.trace ∧ ∀ token, s'.Won token → s.Won token := by
  have htrace : s'.trace = s.trace := by
    cases h with
    | foreign _ _ _ _ _ he =>
      subst he
      rfl
    | flags _ _ hp _ _ _ | issue _ _ _ _ _ hp _ _ _ _ | answer _ _ _ _ _ _ hp _ _ _
    | recv _ _ _ hp _ _ _ _ | drop _ _ _ _ hp _ _ _ | offline _ hp _ | cancel _ _ hp _ _
    | abortAll _ _ hp _ _ | join _ hp _ _ _ | clear _ _ hp _ _ | takeSink _ _ hp _ _ =>
      simp [hp, Phase.rank] at h7
  refine ⟨htrace, ?_⟩
  rintro token ⟨hw, hl⟩
  refine ⟨htrace ▸ hw, ?_⟩
  rcases h.generation with he | ⟨b, hb, -⟩
  · exact he ▸ hl
  · exact Generation.loginRead_joined (Generation.pipe_step hb) (tornDown_of_over hi h7).reader hl

theorem keptToken_step {config : LoginConfig} {b : SessionAction}
    (h : s.step fromStr b = some s') (hk : config.sessionToken = s.keptToken) :
    (configAfter config s b).sessionToken = s'.keptToken := by
  have hch := change_step h
  have hcfg := hch.config
  by_cases hset : ∃ a token next, s.phase = .attempting a ∧
      a.rest = .call (.setSessionToken token) next ∧ b = .attempt .perform
  · obtain ⟨a, token, next, hp, hr, rfl⟩ := hset
    obtain ⟨rest, waiting, polling, checked⟩ := a
    cases hr
    have ht : s.tokenToSet = some token := by simp [tokenToSet, hp]
    simp only [step, hp, stepAttempt] at h
    split at h <;> cases h
    simp [configAfter, ht, keptToken, answer, tokenAfter_set]
  · have hsame : (configAfter config s b).sessionToken = config.sessionToken := by
      unfold configAfter
      split
      · split
        · rename_i token ht
          unfold tokenToSet at ht
          split at ht
          · rename_i hp
            exact absurd ⟨_, _, _, hp, rfl, rfl⟩ hset
          · cases ht
        · rfl
      · rfl
    rw [hsame, hk, keptToken, keptToken, hcfg]
    have quiet : s'.trace = s.trace → tokenAfter s.config s.trace = tokenAfter s.config s'.trace :=
      fun he => by rw [he]
    cases hch with
    | flags _ _ _ _ _ he | foreign _ _ _ _ _ he | issue _ _ _ _ _ _ _ _ _ he
    | recv _ _ _ _ _ _ _ he | drop _ _ _ _ _ _ he _ | offline _ _ he | cancel _ _ _ _ he
    | abortAll _ _ _ _ he | join _ _ _ _ he | clear _ _ _ _ he | takeSink _ _ _ _ he =>
      subst he
      exact quiet rfl
    | answer a op r next g at_ hp hr heff he =>
      by_cases hop : ∃ token, op = .setSessionToken token
      · obtain ⟨token, rfl⟩ := hop
        have gone : s'.trace ≠ s.trace := by
          subst he
          simp [answer]
        cases b with
        | attempt act =>
          simp only [step, hp] at h
          split at h
          · cases act with
            | perform => exact absurd ⟨a, token, next, hp, hr, rfl⟩ hset
            | onInvoke x =>
              simp only [stepAttempt] at h
              split at h
              · cases h
              · obtain ⟨g', -, rfl⟩ := act_eq h
                exact quiet rfl
              · cases h
            | _ => simp only [stepAttempt, hr, reduceCtorEq] at h
          · cases h
        | _ => exact absurd (trace_step h (by simp)) gone
      · subst he
        exact (tokenAfter_of_ne s.config s.trace fun token ht => hop ⟨token, ht⟩).symm

end Session

variable {setup : Setup} {sh sh' : Shared} {w w' : Client}

structure Shared.SameAttempts (sh sh' : Shared) : Prop where
  created : sh'.created = sh.created
  session : ∀ c, ∃ g, sh'.sessions c = { sh.sessions c with generation := g }

theorem Shared.SameAttempts.of_eq (hc : sh'.created = sh.created)
    (hs : sh'.sessions = sh.sessions) : sh.SameAttempts sh' :=
  ⟨hc, fun c => ⟨(sh.sessions c).generation, congrFun hs c⟩⟩

theorem Shared.SameAttempts.refl (sh : Shared) : sh.SameAttempts sh := .of_eq rfl rfl

theorem sameAttempts_act {c : ConnId} {a : GenerationAction} {s : Session}
    (h : (sh.sessions c).act setup.fromStr a = some s) : sh.SameAttempts (sh.setSession c s) := by
  obtain ⟨g, -, rfl⟩ := Session.act_eq h
  refine ⟨rfl, fun d => ?_⟩
  by_cases hd : d = c
  · subst hd
    exact ⟨g, setSession_self ..⟩
  · exact ⟨(sh.sessions d).generation, setSession_of_ne sh _ hd⟩

theorem sameAttempts_cancelShutdown (sh : Shared) : sh.SameAttempts sh.cancelShutdown := by
  refine ⟨rfl, fun c => ?_⟩
  by_cases hc : c < sh.created
  · exact ⟨(sh.sessions c).generation.cancel, by simp [Shared.cancelShutdown, hc]⟩
  · exact ⟨(sh.sessions c).generation, by simp [Shared.cancelShutdown, hc]⟩

theorem SendStep.attempts {snd snd' : Send} (h : SendStep setup sh snd sh' snd') :
    sh.SameAttempts sh' := by
  have touch : ∀ {c : ConnId}, Touches setup sh c sh' → sh.SameAttempts sh' := by
    rintro c (rfl | ⟨a, s, -, hs, rfl⟩)
    · exact .refl _
    · exact sameAttempts_act hs
  cases h with
  | act b hp ht => exact touch ht
  | answer b b' op r next hp hr ha hb hbt ht => exact touch ht
  | drop ht =>
    rcases ht with rfl | ⟨b, -, ht⟩
    · exact .refl _
    · exact touch ht
  | issue _ _ _ _ _ _ _ _ hs he =>
    subst he
    exact sameAttempts_act hs
  | takeCid _ _ _ hs =>
    subst hs
    exact .of_eq rfl rfl
  | clock _ _ hs | borrow _ hs | handed _ _ _ _ hs | stopped _ _ hs
  | wait _ _ _ _ hs | woken _ _ hs | turn _ _ _ hs | done _ _ _ hs
  | retry _ _ _ _ _ hs | fail _ _ _ _ _ hs =>
    subst hs
    exact .refl _

theorem DisconnectStep.attempts {d : DisconnectId} {pc pc' : DisconnectPc}
    (h : DisconnectStep sh d pc sh' pc') : sh.SameAttempts sh' := by
  cases h with
  | stopCancel _ hs =>
    subst hs
    exact sameAttempts_cancelShutdown sh
  | stopPublish _ hs | lock _ _ hs | cancelHandlers _ hs | unlock _ hs | drop _ hs =>
    subst hs
    exact .of_eq rfl rfl

theorem RunStep.attempts {r : RunId} {run run' : Run} (h : RunStep setup sh r run sh' run') :
    (sh.SameAttempts sh' ∧ ∀ runner', run'.supervisor = .looping runner' →
      (run.supervisor = .spawned ∧ ∀ c, runner'.pc ≠ .attempt c) ∨
      ∃ runner, run.supervisor = .looping runner ∧ runner'.config = runner.config ∧
        ∀ c, runner'.pc = .attempt c → runner.pc = .attempt c) ∨
    ∃ runner runner', run.supervisor = .looping runner ∧ run'.supervisor = .looping runner' ∧
      ((runner.pc = .create ∧ sh' = sh.begin setup runner.config ∧
          runner' = runner.goto (.attempt sh.created)) ∨
        ∃ c b s, runner.pc = .attempt c ∧ runner'.pc = .attempt c ∧
          (sh.sessions c).step setup.fromStr b = some s ∧
          sh' = { sh.setSession c s with recovery := sh.recoveryAfter c b } ∧
          runner'.config = configAfter runner.config (sh.sessions c) b) := by
  have old : ∀ runner', run.supervisor = .looping runner' →
      (run.supervisor = .spawned ∧ ∀ c, runner'.pc ≠ .attempt c) ∨
      ∃ runner, run.supervisor = .looping runner ∧ runner'.config = runner.config ∧
        ∀ c, runner'.pc = .attempt c → runner.pc = .attempt c :=
    fun m hm => .inr ⟨m, hm, rfl, fun _ => id⟩
  cases h with
  | lock _ _ hs | reject _ _ hs | closed _ _ hs | join _ _ _ hs | dropTrying _ hs
  | dropJoining _ hs | guardPublish _ _ hs =>
    subst hs
    exact .inl ⟨.of_eq rfl rfl, old⟩
  | guardCancel _ _ hs =>
    subst hs
    exact .inl ⟨sameAttempts_cancelShutdown sh, old⟩
  | supervisorCancel _ _ hs =>
    subst hs
    exact .inl ⟨sameAttempts_cancelShutdown sh, fun _ hl => by cases hl⟩
  | spawn _ _ hs | loopEnd _ _ _ _ hs | supervisorPublish _ _ hs | cancelHandlers _ _ hs
  | unlock _ _ hs =>
    subst hs
    exact .inl ⟨.of_eq rfl rfl, fun _ hl => by cases hl⟩
  | start hp hs =>
    subst hs
    refine .inl ⟨.refl _, fun m hm => .inl ⟨hp, ?_⟩⟩
    cases hm
    exact nofun
  | loop m m' hm hs =>
    cases hs with
    | goto hs _ hne hcfg | after _ _ _ _ hs hne hcfg =>
      subst hs
      refine .inl ⟨.refl _, fun n hn => .inr ⟨m, hm, ?_, fun c hc => ?_⟩⟩
      · cases hn
        exact hcfg
      · cases hn
        exact absurd hc (hne c)
    | begin hcr hs hr => exact .inr ⟨m, m', hm, rfl, .inl ⟨hcr, hs, hr⟩⟩
    | session c b s hc hc' hstep _ hs hcfg =>
      exact .inr ⟨m, m', hm, rfl, .inr ⟨c, b, s, hc, hc', hstep, hs, hcfg⟩⟩

/-- The token that one attempt leaves is the one the next begins with. -/
structure TokenInv (w : Client) : Prop where
  owner : 0 < w.shared.created → ∃ r run, w.runs r = some run ∧ 2 ≤ run.supervisor.rank
  current : ∀ r run runner, w.runs r = some run → run.supervisor = .looping runner →
    (∀ c, runner.pc = .attempt c → c + 1 = w.shared.created) ∧
      ∀ c, c + 1 = w.shared.created →
        runner.config.sessionToken = (w.shared.sessions c).keptToken
  chain : ∀ c, c + 1 < w.shared.created →
    (w.shared.sessions (c + 1)).config.sessionToken = (w.shared.sessions c).keptToken

theorem Shared.SameAttempts.keptToken (h : sh.SameAttempts sh') (c : ConnId) :
    (sh'.sessions c).keptToken = (sh.sessions c).keptToken ∧
      (sh'.sessions c).config = (sh.sessions c).config := by
  obtain ⟨g, hg⟩ := h.session c
  rw [hg]
  exact ⟨rfl, rfl⟩

def ConfigFrom (setup : Setup) (sh sh' : Shared) (runner runner' : Runner) : Prop :=
  runner'.config = runner.config ∨ ∃ c b s, runner.pc = .attempt c ∧
    (sh.sessions c).step setup.fromStr b = some s ∧ sh'.sessions c = s ∧
    runner'.config = configAfter runner.config (sh.sessions c) b

theorem RunStep.config {r : RunId} {run run' : Run} {runner' : Runner}
    (h : RunStep setup sh r run sh' run') (hl : run'.supervisor = .looping runner') :
    runner'.config = setup.loginConfig ∨ ∃ runner, run.supervisor = .looping runner ∧
      ConfigFrom setup sh sh' runner runner' := by
  cases h with
  | start _ _ =>
    cases hl
    exact .inl rfl
  | loop m m' hm hst =>
    cases hl
    refine .inr ⟨m, hm, ?_⟩
    cases hst with
    | goto _ _ _ he | after _ _ _ _ _ _ he => exact .inl he
    | begin _ _ he => exact .inl (he ▸ rfl)
    | session c b s hpc _ hs _ hsh he =>
      exact .inr ⟨c, b, s, hpc, hs, by rw [hsh]; exact setSession_self .., he⟩
  | lock _ _ _ | reject _ _ _ | closed _ _ _ | join _ _ _ _ | dropTrying _ _ | dropJoining _ _
  | guardCancel _ _ _ | guardPublish _ _ _ => exact .inr ⟨runner', hl, .inl rfl⟩
  | spawn _ _ _ | loopEnd _ _ _ _ _ | supervisorCancel _ _ _ | supervisorPublish _ _ _
  | cancelHandlers _ _ _ | unlock _ _ _ => cases hl

theorem ClientStep.runner_config {r : RunId} {run' : Run} {runner' : Runner}
    (h : ClientStep setup w w') (hr : w'.runs r = some run')
    (hl : run'.supervisor = .looping runner') :
    runner'.config = setup.loginConfig ∨ ∃ run runner, w.runs r = some run ∧
      run.supervisor = .looping runner ∧ ConfigFrom setup w.shared w'.shared runner runner' := by
  cases h with
  | run q run new sh hq hst =>
    rcases update_some hr with ⟨rfl, rfl⟩ | ⟨_, hr⟩
    · exact (hst.config hl).imp id fun ⟨runner, hm, hc⟩ => ⟨run, runner, hq, hm, hc⟩
    · exact .inr ⟨run', runner', hr, hl, .inl rfl⟩
  | startRun q hq =>
    rcases update_some hr with ⟨rfl, rfl⟩ | ⟨_, hr⟩
    · cases hl
    · exact .inr ⟨run', runner', hr, hl, .inl rfl⟩
  | startSend _ _ _ | send _ _ _ _ _ _ | startDisconnect _ _ | disconnect _ _ _ _ _ _
  | worker _ _ _ _ _ => exact .inr ⟨run', runner', hr, hl, .inl rfl⟩

theorem ClientStep.session_config {c : ConnId} (h : ClientStep setup w w')
    (hc : c < w'.shared.created) :
    (c < w.shared.created ∧ (w'.shared.sessions c).config = (w.shared.sessions c).config) ∨
      (c = w.shared.created ∧ ∃ r run runner, w.runs r = some run ∧
        run.supervisor = .looping runner ∧ (w'.shared.sessions c).config = runner.config) := by
  have same : w.shared.SameAttempts w'.shared → c < w.shared.created ∧
      (w'.shared.sessions c).config = (w.shared.sessions c).config :=
    fun hsame => ⟨hsame.created ▸ hc, (hsame.keptToken c).2⟩
  cases h with
  | run r run run' sh hq hst =>
    rcases hst.attempts with
      ⟨hsame, -⟩ | ⟨m, m', hm, -, ⟨-, rfl, -⟩ | ⟨d, b, s, -, -, hs, rfl, -⟩⟩
    · exact .inl (same hsame)
    · rcases Nat.lt_succ_iff_lt_or_eq.mp hc with hlt | rfl
      · have hold : (w.shared.begin setup m.config).sessions c = w.shared.sessions c :=
          setSession_of_ne _ _ (Nat.ne_of_lt hlt)
        exact .inl ⟨hlt, congrArg Session.config hold⟩
      · have hnew : (w.shared.begin setup m.config).sessions w.shared.created =
            .new setup.deviceId m.config w.shared.recovery.shutdown := setSession_self ..
        exact .inr ⟨rfl, r, run, m, hq, hm, congrArg Session.config hnew⟩
    · refine .inl ⟨hc, ?_⟩
      show (Shared.sessions (w.shared.setSession d s) c).config = _
      by_cases hcd : c = d
      · subst hcd
        rw [setSession_self, (Session.change_step hs).config]
      · rw [setSession_of_ne _ _ hcd]
  | startRun _ _ | startSend _ _ _ | startDisconnect _ _ => exact .inl (same (.refl _))
  | send _ _ _ _ _ hst => exact .inl (same hst.attempts)
  | disconnect _ _ _ _ _ hst => exact .inl (same hst.attempts)
  | worker _ _ _ _ hs => exact .inl (same (sameAttempts_act hs))

theorem TokenInv.frame (hi : TokenInv w) (h' : w.shared.SameAttempts w'.shared)
    (howner : (∃ r run, w.runs r = some run ∧ 2 ≤ run.supervisor.rank) →
      ∃ r run, w'.runs r = some run ∧ 2 ≤ run.supervisor.rank)
    (hlooping : ∀ r run' runner', w'.runs r = some run' → run'.supervisor = .looping runner' →
      w.shared.created = 0 ∧ (∀ c, runner'.pc ≠ .attempt c) ∨
        ∃ run runner, w.runs r = some run ∧ run.supervisor = .looping runner ∧
          runner'.config = runner.config ∧
          ∀ c, runner'.pc = .attempt c → runner.pc = .attempt c) : TokenInv w' := by
  have hc := h'.created
  refine ⟨fun h0 => howner (hi.owner (hc ▸ h0)), fun r run' runner' hr hs => ?_, fun c hlt => ?_⟩
  · rcases hlooping r run' runner' hr hs with ⟨h0, hp⟩ | ⟨run, runner, hrun, hsup, hcfg, hpc⟩
    · refine ⟨fun c hat => absurd hat (hp c), fun c hlast => ?_⟩
      rw [hc, h0] at hlast
      cases hlast
    · obtain ⟨hat, hlast⟩ := hi.current r run runner hrun hsup
      rw [hc, hcfg]
      refine ⟨fun c h => hat c (hpc c h), fun c h => ?_⟩
      rw [(h'.keptToken c).1]
      exact hlast c h
  · rw [(h'.keptToken (c + 1)).2, (h'.keptToken c).1]
    exact hi.chain c (hc ▸ hlt)

theorem tokenInv_run {r : RunId} {run run' : Run} (hr : w.runs r = some run)
    (h : RunStep setup w.shared r run sh' run') (hl : LifecycleInv w) (hi : TokenInv w) :
    TokenInv { w with shared := sh', runs := Function.update w.runs r (some run') } := by
  have howner : (∃ q m, w.runs q = some m ∧ 2 ≤ m.supervisor.rank) →
      ∃ q m, Function.update w.runs r (some run') q = some m ∧ 2 ≤ m.supervisor.rank := by
    rintro ⟨q, m, hq, hm⟩
    by_cases hqr : q = r
    · subst hqr
      cases hr.symm.trans hq
      exact ⟨q, run', Function.update_self .., Nat.le_trans hm (h.rank (hl.runs q run hr)).1⟩
    · exact ⟨q, m, by simp [Function.update_of_ne hqr, hq], hm⟩
  rcases h.attempts with ⟨hsame, hrun⟩ | ⟨runner, runner', hsup, hsup', hmove⟩
  · refine hi.frame hsame howner fun q m m' hq hm => ?_
    rcases update_some hq with ⟨rfl, rfl⟩ | ⟨hne, hq⟩
    · rcases hrun m' hm with hspawn | ⟨n, hn, hcfg, hpc⟩
      · refine .inl ⟨Nat.eq_zero_of_not_pos fun h0 => ?_, hspawn.2⟩
        obtain ⟨p, n, hp, hn⟩ := hi.owner h0
        have hsame := hl.unique q p run n hr hp (by simp [hspawn.1, SupervisorPc.rank]) (by omega)
        subst hsame
        cases hr.symm.trans hp
        simp [hspawn.1, SupervisorPc.rank] at hn
      · exact .inr ⟨run, n, hr, hn, hcfg, hpc⟩
    · exact .inr ⟨m, m', hq, hm, rfl, fun _ => id⟩
  · obtain ⟨hat, hlast⟩ := hi.current r run runner hr hsup
    -- the only runner is this one
    have mine : ∀ {q m m'}, Function.update w.runs r (some run') q = some m →
        m.supervisor = .looping m' → m' = runner' := by
      intro q m m' hq hm
      rcases update_some hq with ⟨rfl, rfl⟩ | ⟨hne, hq⟩
      · cases hsup'.symm.trans hm
        rfl
      · exact absurd (hl.unique q r m run hq hr (by simp [hm, SupervisorPc.rank])
          (by simp [hsup, SupervisorPc.rank])) hne
    have hown : ∃ q m, Function.update w.runs r (some run') q = some m ∧ 2 ≤ m.supervisor.rank :=
      ⟨r, run', Function.update_self .., by simp [hsup', SupervisorPc.rank]⟩
    rcases hmove with ⟨hpc, rfl, rfl⟩ | ⟨c, b, s, hpc, hpc', hs, rfl, hcfg⟩
    · have hnew : (w.shared.begin setup runner.config).sessions w.shared.created =
          .new setup.deviceId runner.config w.shared.recovery.shutdown := setSession_self ..
      have hold : ∀ c, c < w.shared.created →
          (w.shared.begin setup runner.config).sessions c = w.shared.sessions c :=
        fun c hc => setSession_of_ne _ _ (Nat.ne_of_lt hc)
      refine ⟨fun _ => hown, fun q m m' hq hm => ?_, fun c hc => ?_⟩
      · rw [mine hq hm]
        refine ⟨fun c hc => ?_, fun c hc => ?_⟩
        · cases hc
          rfl
        · have hc' : c = w.shared.created := Nat.succ_inj.mp hc
          subst hc'
          show runner.config.sessionToken = _
          rw [hnew]
          rfl
      · have hle : c + 1 ≤ w.shared.created := Nat.lt_succ_iff.mp hc
        show ((w.shared.begin setup runner.config).sessions (c + 1)).config.sessionToken =
          ((w.shared.begin setup runner.config).sessions c).keptToken
        rw [hold c hle]
        rcases Nat.lt_or_eq_of_le hle with hlt | heq
        · rw [hold _ hlt]
          exact hi.chain c hlt
        · rw [heq, hnew]
          exact hlast c heq
    · have hc := hat c hpc
      have hother : ∀ d, d ≠ c → ({ w.shared.setSession c s with
          recovery := w.shared.recoveryAfter c b } : Shared).sessions d = w.shared.sessions d :=
        fun d hd => setSession_of_ne _ _ hd
      have hself : ({ w.shared.setSession c s with
          recovery := w.shared.recoveryAfter c b } : Shared).sessions c = s := setSession_self ..
      refine ⟨fun _ => hown, fun q m m' hq hm => ?_, fun d hd => ?_⟩
      · rw [mine hq hm]
        refine ⟨fun d hd => ?_, fun d hd => ?_⟩
        · cases hpc'.symm.trans hd
          exact hc
        · have hd' : d = c := Nat.succ_inj.mp (hd.trans hc.symm)
          subst hd'
          show runner'.config.sessionToken = _
          rw [hself, hcfg]
          exact Session.keptToken_step hs (hlast d hc)
      · have hlt : d + 1 < w.shared.created := hd
        have hne : d ≠ c := by
          rintro rfl
          exact Nat.ne_of_lt hlt hc
        show (Shared.sessions _ (d + 1)).config.sessionToken = (Shared.sessions _ d).keptToken
        rw [hother d hne, ← hi.chain d hlt]
        by_cases he : d + 1 = c
        · rw [he, hself, (Session.change_step hs).config]
        · rw [hother _ he]

theorem tokenInv_step (h : ClientStep setup w w') (hl : LifecycleInv w) (hi : TokenInv w) :
    TokenInv w' := by
  have same : ∀ {m : Run} {r : RunId} {runner : Runner}, w.runs r = some m →
      m.supervisor = .looping runner → w.shared.created = 0 ∧ (∀ c, runner.pc ≠ .attempt c) ∨
        ∃ run runner₀, w.runs r = some run ∧ run.supervisor = .looping runner₀ ∧
          runner.config = runner₀.config ∧ ∀ c, runner.pc = .attempt c → runner₀.pc = .attempt c :=
    fun hr hm => .inr ⟨_, _, hr, hm, rfl, fun _ => id⟩
  cases h with
  | run r run run' sh hr hst => exact tokenInv_run hr hst hl hi
  | startRun r hr =>
    refine hi.frame (.refl _) (fun ⟨q, m, hq, hm⟩ => ⟨q, m, ?_, hm⟩) fun q m m' hq hm => ?_
    · have hne : q ≠ r := by
        rintro rfl
        cases hr.symm.trans hq
      simp [Function.update_of_ne hne, hq]
    · rcases update_some hq with ⟨rfl, rfl⟩ | ⟨hne, hq⟩
      · cases hm
      · exact same hq hm
  | startSend _ _ _ | startDisconnect _ _ => exact hi.frame (.refl _) id fun q m m' => same
  | send i snd snd' sh hs hst => exact hi.frame hst.attempts id fun q m m' => same
  | disconnect d pc pc' sh hd hst => exact hi.frame hst.attempts id fun q m m' => same
  | worker c a s hc hs => exact hi.frame (sameAttempts_act hs) id fun q m m' => same

theorem tokenInv_of_reachable (h : (Client.automaton setup).Reachable w) : TokenInv w := by
  refine h.invariant_of (fun w hw => ?_) fun w a w' hr hs hi =>
    tokenInv_step (client_step hs) (lifecycleInv_of_reachable hr) hi
  obtain ⟨millis, rfl⟩ := hw
  refine ⟨fun h0 => absurd h0 (Nat.lt_irrefl 0), fun r run runner hr => ?_,
    fun c hc => absurd hc (Nat.not_lt_zero _)⟩
  cases hr

theorem begin_action {a : ClientAction} (h : w.step setup a = some w')
    (hne : w'.shared.created ≠ w.shared.created) : ∃ r, a = .run r (.loop .beginCreate) := by
  cases a with
  | startRun r | startSend i job | startDisconnect d =>
    simp only [Client.step] at h
    split at h <;> cases h
    exact absurd rfl hne
  | send i a =>
    obtain ⟨snd, -, h⟩ := Option.bind_eq_some_iff.mp h
    obtain ⟨out, hout, rfl⟩ := Option.map_eq_some_iff.mp h
    exact absurd (send_step hout).control.created hne
  | disconnect d a =>
    obtain ⟨pc, -, h⟩ := Option.bind_eq_some_iff.mp h
    obtain ⟨out, hout, rfl⟩ := Option.map_eq_some_iff.mp h
    exact absurd (disconnect_step hout).attempts.created hne
  | worker c a =>
    simp only [Client.step] at h
    split at h
    · obtain ⟨sh, hsh, rfl⟩ := Option.map_eq_some_iff.mp h
      obtain ⟨s, -, rfl⟩ := onSession_eq hsh
      exact absurd rfl hne
    · cases h
  | run r a =>
    obtain ⟨run, -, h⟩ := Option.bind_eq_some_iff.mp h
    obtain ⟨out, hout, rfl⟩ := Option.map_eq_some_iff.mp h
    replace hne : out.1.created ≠ w.shared.created := hne
    cases a with
    | loop l =>
      simp only [Run.step] at hout
      split at hout
      · obtain ⟨out', hl, rfl⟩ := Option.map_eq_some_iff.mp hout
        cases runner_step hl with
        | goto hs | session _ _ _ _ _ _ _ hs | after _ _ _ _ hs =>
          exact absurd (congrArg Shared.created hs) hne
        | begin hpc _ _ =>
          refine ⟨r, ?_⟩
          cases l with
          | beginCreate => rfl
          | _ => simp [Runner.step, hpc] at hl
      · cases hout
    | _ =>
      simp only [Run.step] at hout
      repeat' split at hout
      all_goals first
        | (cases hout; done)
        | (cases hout; exact absurd rfl hne)

theorem begin_shared {r : RunId} (h : w.step setup (.run r (.loop .beginCreate)) = some w') :
    ∃ config, w'.shared = w.shared.begin setup config := by
  obtain ⟨run, -, h⟩ := Option.bind_eq_some_iff.mp h
  obtain ⟨out, hout, rfl⟩ := Option.map_eq_some_iff.mp h
  simp only [Run.step] at hout
  split at hout
  · obtain ⟨out', hl, rfl⟩ := Option.map_eq_some_iff.mp hout
    simp only [Runner.step] at hl
    split at hl <;> cases hl
    exact ⟨_, rfl⟩
  · cases hout

theorem over_of_next {c : ConnId} (h : (Client.automaton setup).Reachable w)
    (hc : c + 1 < w.shared.created) : (w.shared.sessions c).phase.rank = 7 := by
  refine (isolationInv_of_reachable h c (Nat.lt_of_succ_lt hc)).resolve_right ?_
  rintro ⟨r, run, runner, hr, hs, hp⟩
  exact Nat.ne_of_lt hc (((tokenInv_of_reachable h).current r run runner hr hs).1 c hp)

/-- When this step begins an attempt, the attempt before it has left no won token behind. -/
def TokenKept (w : Client) (a : ClientAction) : Prop :=
  ∀ r, a = .run r (.loop .beginCreate) → ∀ c token, c + 1 = w.shared.created →
    (w.shared.sessions c).Won token → (w.shared.sessions c).keptToken = some token

theorem kept_of_won (h : (Client.automaton setup).ReachableBy (fun w a => TokenKept w a) w) :
    ∀ c token, c + 1 < w.shared.created → (w.shared.sessions c).Won token →
      (w.shared.sessions c).keptToken = some token := by
  refine h.invariant_of (I := fun w => ∀ c token, c + 1 < w.shared.created →
      (w.shared.sessions c).Won token → (w.shared.sessions c).keptToken = some token)
    (fun w hw c token hc => ?_) fun w a w' hr hok hs hi c token hc hw => ?_
  · obtain ⟨millis, rfl⟩ := hw
    exact absurd hc (Nat.not_lt_zero _)
  · have hinv := clientInv_of_reachable hr.reachable
    have hch := (client_step hs).change hinv.handles
    by_cases hlt : c + 1 < w.shared.created
    · rcases session_change hch (Nat.lt_of_succ_lt hlt) with he | ⟨b, hb, -⟩
      · rw [he] at hw ⊢
        exact hi c token hlt hw
      · have hsession := hinv.shared.sessions c (Nat.lt_of_succ_lt hlt)
        have hsc := Session.change_step hb
        obtain ⟨htrace, hwon⟩ := Session.Won.of_over hsc (Session.inv_of_reachable hsession)
          (over_of_next hr.reachable hlt)
        rw [Session.keptToken, htrace, hsc.config]
        exact hi c token hlt (hwon token hw)
    · have hnew : w'.shared.created ≠ w.shared.created := fun he => hlt (he ▸ hc)
      obtain ⟨r, rfl⟩ := begin_action hs hnew
      cases hch with
      | begin config he =>
        have hlast : c + 1 = w.shared.created := by
          rw [he] at hc
          exact Nat.le_antisymm (Nat.lt_succ_iff.mp hc) (Nat.not_lt.mp hlt)
        have hsame : w'.shared.sessions c = w.shared.sessions c := by
          rw [he]
          exact setSession_of_ne _ _ (Nat.ne_of_lt (hlast ▸ Nat.lt_succ_self c))
        rw [hsame] at hw ⊢
        exact hok r rfl c token hlast hw
      | session _ _ _ _ _ _ he | cancelShutdown he | publishStopped he | handlers he | lock _ he
      | cid _ he | quiet he => exact absurd (congrArg Shared.created he) hnew

theorem LoginRejected.later {before after : AttemptTrace} {token : String}
    (h : LoginRejected before token) : LoginRejected (before ++ after) token := by
  obtain ⟨message, hm⟩ := h
  exact ⟨message, Did.later hm⟩

/-- An attempt passes the token on that it began with, unless the server rejects it. -/
theorem Session.keptToken_of_config {deviceId : String} {s : Session} {token : String}
    (h : TraceInv deviceId s) (hc : s.config.sessionToken = some token) :
    s.keptToken = some token ∨ LoginRejected s.trace token := by
  rcases tokenAfter_cases s.config s.trace with he | ⟨token', ht, hd⟩
  · exact .inl (he.trans hc)
  · obtain ⟨before, after, heq, u, hl⟩ := hd.split h.faithful
    rcases hl.saved with hsaved | hrej
    · cases hc.symm.trans hsaved
      exact .inl ht
    · exact .inr (heq ▸ (hrej token hc).later)

theorem config_of_kept (h : (Client.automaton setup).Reachable w) {c₁ c₂ : ConnId}
    {token : String} (h12 : c₁ < c₂) (h2 : c₂ < w.shared.created)
    (hk : (w.shared.sessions c₁).keptToken = some token) :
    (w.shared.sessions c₂).config.sessionToken = some token ∨
      ∃ c, c₁ < c ∧ c < c₂ ∧ LoginRejected (w.shared.sessions c).trace token := by
  have hchain := (tokenInv_of_reachable h).chain
  induction c₂, h12 using Nat.le_induction with
  | base => exact .inl ((hchain c₁ h2).trans hk)
  | succ c hle ih =>
    have hc : c < w.shared.created := Nat.lt_of_succ_lt h2
    rcases ih hc with hcfg | ⟨d, hd, hdc, hrej⟩
    · have hsession := (clientInv_of_reachable h).shared.sessions c hc
      rcases Session.keptToken_of_config (Session.inv_of_reachable hsession).trace hcfg with
        hkept | hrej
      · exact .inl ((hchain c h2).trans hkept)
      · exact .inr ⟨c, hle, Nat.lt_succ_self c, hrej⟩
    · exact .inr ⟨d, hd, Nat.lt_succ_of_lt hdc, hrej⟩

namespace Client

/-- The server has rejected a `LOGIN` with this token, on a connection between the two or before
this point of the attempt on the second. -/
def RejectedSince (w : Client) (c₁ c₂ : ConnId) (before : AttemptTrace) (token : String) : Prop :=
  (∃ c, c₁ < c ∧ c < c₂ ∧ LoginRejected (w.shared.sessions c).trace token) ∨
    LoginRejected before token

/-- In a run in which no attempt ends between the response to its `LOGIN` and the assignment of
`config.session_token`, a token of the SMS flow is what every later attempt logs in with, until
the server rejects it; an attempt that ends there has its successor begin without the token. -/
theorem won_token_kept :
    (∀ w, (automaton setup).ReachableBy TokenKept w → ∀ c₁ c₂ token, c₁ < c₂ →
      c₂ < w.shared.created → (w.shared.sessions c₁).Won token →
      ∀ before op, (w.shared.sessions c₂).ComesTo before op →
      (∀ opcode payload, op = .invoke opcode payload → isAuthOpcode opcode = true →
        (opcode = Opcode.LOGIN ∧ payload = loginPayload token) ∨
          RejectedSince w c₁ c₂ before token) ∧
      (∀ operator phone, op = .requestSmsCode operator phone →
        RejectedSince w c₁ c₂ before token)) ∧
    (∀ w w' r c token, (automaton setup).Reachable w →
      (automaton setup).step w (.run r (.loop .beginCreate)) = some w' →
      c + 1 = w.shared.created → (w.shared.sessions c).keptToken ≠ some token →
      (w'.shared.sessions w.shared.created).config.sessionToken ≠ some token) := by
  refine ⟨fun w h c₁ c₂ token h12 h2 hw before op hc => ?_, fun w w' r c token h hs hc hk => ?_⟩
  · have hr := h.reachable
    have hkept := kept_of_won h c₁ token (Nat.lt_of_le_of_lt h12 h2) hw
    have hsession := (clientInv_of_reachable hr).shared.sessions c₂ h2
    have hpre := hc.pre (Session.inv_of_reachable hsession).trace
    -- with the token in its configuration, the attempt is past it only after a rejection
    have rejected : SavedRejected (w.shared.sessions c₂).config before →
        RejectedSince w c₁ c₂ before token := by
      intro hrej
      rcases config_of_kept hr h12 h2 hkept with hcfg | hbetween
      · exact .inr (hrej token hcfg)
      · exact .inl hbetween
    refine ⟨?_, ?_⟩
    · rintro opcode payload rfl hauth
      rcases hpre with ⟨-, ho, -⟩ | ⟨-, -, ⟨token', ht, ho, hp⟩ | hrej⟩
      · subst ho
        simp [isAuthOpcode, Opcode.SESSION_INIT, Opcode.LOGIN, Opcode.AUTH_REQUEST,
          Opcode.AUTH_CAPTCHA_REQUEST, Opcode.AUTH, Opcode.AUTH_PASSWORD] at hauth
      · rcases config_of_kept hr h12 h2 hkept with hcfg | hbetween
        · cases hcfg.symm.trans ht
          exact .inl ⟨ho, hp⟩
        · exact .inr (.inl hbetween)
      · exact .inr (rejected hrej)
    · rintro operator phone rfl
      exact rejected hpre.2
  · have hchain := (tokenInv_of_reachable (h.tail hs)).chain c
    obtain ⟨config, hbegin⟩ := begin_shared hs
    have hsame : w'.shared.sessions c = w.shared.sessions c := by
      rw [hbegin]
      exact setSession_of_ne _ _ (Nat.ne_of_lt (hc ▸ Nat.lt_succ_self c))
    rw [hsame, hbegin, hc] at hchain
    rw [hbegin, hchain (Nat.lt_succ_self _)]
    exact hk

/-- A client without a saved token, whose operator can be asked. -/
def smsSetup : Setup where
  loginConfig :=
    { phone := some "+7", password := none, sessionToken := none,
      captcha := { solverUrl := none, callbackBind := "", callbackUrlBase := none },
      operator := .cli }
  deviceId := "device"
  fromStr
    | "init" => .ok (Packet.response 1 Opcode.SESSION_INIT .null)
    | "code" => .ok (Packet.response 2 Opcode.AUTH_REQUEST (.object [("token", .string "S")]))
    | "auth" => .ok (Packet.response 3 Opcode.AUTH
        (.object [("tokenAttrs", .object [("LOGIN", .object [("token", .string "T")])])]))
    | "login" => .ok (Packet.response 4 Opcode.LOGIN
        (.object [("profile", .object [("contact", .object [("id", .int 7)])])]))
    | text => .error text

def sampleExchange (text : String) : List ClientAction :=
  [sampleAttempt .issue] ++ sampleRequest (fun a => sampleAttempt (.onInvoke a)) ++
  sampleFrame 0 text ++ sampleAnswer (fun a => sampleAttempt (.onInvoke a)) ++
  [sampleAttempt .take]

/-- The SMS flow up to the file into which the token is written. -/
def sampleSmsLogin : List ClientAction :=
  sampleOpening ++ sampleExchange "code" ++ [sampleAttempt (.answer (.ok "1234"))] ++
  sampleExchange "auth" ++ sampleExchange "login" ++ [sampleAttempt .perform]

def keeps (s : Session) : Bool :=
  s.trace.all fun
    | ⟨.invoke _ _, .ok p⟩ =>
      match loginTokenFromAuthPayload p.payload with
      | .ok token => s.keptToken == some token
      | .error _ => true
    | _ => true

def keepsAtBegin (w : Client) : ClientAction → Bool
  | .run _ (.loop .beginCreate) => keeps (w.shared.sessions (w.shared.created - 1))
  | _ => true

theorem tokenKept_of_keeps {a : ClientAction} (h : keepsAtBegin w a = true) : TokenKept w a := by
  rintro r rfl c token hc ⟨⟨opcode, payload, p, -, hans, htoken⟩, -⟩
  have hlast : w.shared.created - 1 = c := by
    rw [← hc]
    rfl
  rw [keepsAtBegin, hlast] at h
  have hall := List.all_eq_true.mp h _ hans
  simpa [htoken] using hall

/-- What the second attempt has done when it comes to its first request of the login. -/
def sampleReady : AttemptTrace :=
  [⟨.connect, .ok ()⟩, ⟨.spawnReader, ()⟩,
    ⟨.invoke Opcode.SESSION_INIT (sessionInitPayload .default "device"),
      .ok (Packet.response 1 Opcode.SESSION_INIT .null)⟩, ⟨.spawnKeepalive, ()⟩]

/-- The token is stored, and the next attempt logs in with it. -/
def sampleStored : List ClientAction :=
  sampleSmsLogin ++ [sampleAttempt (.stored (.ok ())), sampleAttempt .perform,
    .run 0 (.loop .connected), sampleAttempt .perform, .run 0 (.loop .dispatchCheck)] ++
  sampleReconnect

set_option maxRecDepth 2000 in
theorem won_token_kept_stored :
    (∃ w : Client, (w.shared.sessions 1).ComesTo sampleReady
        (.invoke Opcode.LOGIN (loginPayload "T")) ∧
      ((Opcode.LOGIN = Opcode.LOGIN ∧ loginPayload "T" = loginPayload "T") ∨
        RejectedSince w 0 1 sampleReady "T")) ∧
    ∃ w w' : Client, (automaton smsSetup).step w (.run 0 (.loop .beginCreate)) = some w' ∧
      (w'.shared.sessions 1).config.sessionToken ≠ some "T" := by
  have hr : (automaton smsSetup).ReachableBy TokenKept
      (((automaton smsSetup).execWhile keepsAtBegin (new smsSetup 0) sampleStored).get rfl) :=
    ⟨_, ⟨0, rfl⟩, Automaton.execWhile_path (fun _ _ => tokenKept_of_keeps)
      (Option.some_get _).symm⟩
  have hwon : ((((automaton smsSetup).execWhile keepsAtBegin (new smsSetup 0)
      sampleStored).get rfl).shared.sessions 0).Won "T" := by
    refine ⟨⟨Opcode.AUTH, _, _, .inl rfl, List.mem_of_getElem? (i := 6) rfl, rfl⟩, ?_⟩
    exact .of_getElem (i := 13) (j := 14) (by decide) rfl rfl rfl rfl rfl
  have hcomes : ((((automaton smsSetup).execWhile keepsAtBegin (new smsSetup 0)
      sampleStored).get rfl).shared.sessions 1).ComesTo sampleReady
        (.invoke Opcode.LOGIN (loginPayload "T")) := .inr ⟨rfl, _, _, rfl, rfl⟩
  refine ⟨⟨_, hcomes, (won_token_kept.1 _ hr 0 1 "T" (by decide) (by decide) hwon _ _ hcomes).1
    _ _ rfl rfl⟩, ?_⟩
  have hlost : (automaton smsSetup).Reachable (((automaton smsSetup).exec (new smsSetup 0)
      (sampleSmsLogin ++ sampleReconnect.take 15)).get rfl) := Automaton.reachable_get ⟨0, rfl⟩
  have hs : (automaton smsSetup).step _ (.run 0 (.loop .beginCreate)) =
      some (((automaton smsSetup).step (((automaton smsSetup).exec (new smsSetup 0)
        (sampleSmsLogin ++ sampleReconnect.take 15)).get rfl)
          (.run 0 (.loop .beginCreate))).get rfl) := (Option.some_get _).symm
  exact ⟨_, _, hs, won_token_kept.2 _ _ 0 0 "T" hlost hs rfl nofun⟩

/-- The connection is closed while the token is being written to its file: the next attempt asks
for another SMS. -/
theorem won_token_lost : ¬ ∀ w, (automaton smsSetup).Reachable w → ∀ c₁ c₂ token, c₁ < c₂ →
    c₂ < w.shared.created → (w.shared.sessions c₁).Won token →
    ∀ before payload, (w.shared.sessions c₂).ComesTo before (.invoke Opcode.AUTH_REQUEST payload) →
    RejectedSince w c₁ c₂ before token := by
  intro h
  have hr : (automaton smsSetup).Reachable (((automaton smsSetup).exec (new smsSetup 0)
      (sampleSmsLogin ++ sampleReconnect)).get rfl) := Automaton.reachable_get ⟨0, rfl⟩
  have hwon : ((((automaton smsSetup).exec (new smsSetup 0)
      (sampleSmsLogin ++ sampleReconnect)).get rfl).shared.sessions 0).Won "T" := by
    refine ⟨⟨Opcode.AUTH, _, _, .inl rfl, List.mem_of_getElem? (i := 6) rfl, rfl⟩, ?_⟩
    exact .of_getElem (i := 13) (j := 14) (by decide) rfl rfl rfl rfl rfl
  rcases h _ hr 0 1 "T" (by decide) (by decide) hwon sampleReady
      (smsAuthRequestPayload "+7" none) (.inr ⟨rfl, _, _, rfl, rfl⟩) with
    ⟨c, h0, h1, -⟩ | ⟨message, hm⟩
  · exact absurd h1 (Nat.not_lt.mpr h0)
  · simpa [sampleReady, Opcode.LOGIN, Opcode.SESSION_INIT] using Did.mem hm

end Client

end Maxrs
