import Maxrs.LoginRuns
import Maxrs.Relogin
import Maxrs.Speech
import Maxrs.Startup
set_option autoImplicit false

/-! One process after another on a machine, and the session token file between them. -/
namespace Maxrs

def StorePre (tr : AttemptTrace) : AttemptOp → Prop
  | .storeSessionTokenFile contents =>
    ∃ token p, contents = trim token ++ "\n" ∧ LoginAccepted tr token p
  | _ => True

section

variable {α : Type} {config : LoginConfig} {tr : AttemptTrace}

theorem storePre_request {post : AttemptTrace → Except Error String → Prop} {opcode : Nat}
    {payload : Value} {f : Packet → AttemptScript (Except Error String)}
    (hok : ∀ p, (f p).Always StorePre post (tr ++ [⟨.invoke opcode payload, .ok p⟩]))
    (herr : ∀ tr e, post tr (.error e)) :
    ((invoke opcode payload).orFail f).Always StorePre post tr := by
  refine (Script.always_orFail _ _ _).mpr ⟨trivial, fun r => ?_⟩
  cases r with
  | ok p => exact hok p
  | error e => exact herr _ e

theorem storePre_performLogin (token : String) :
    (performLogin token).Always StorePre
      (fun tr r => ∀ token', r = .ok token' → ∃ p, LoginAccepted tr token' p) tr := by
  refine storePre_request (fun p => ?_) fun _ _ => nofun
  cases userIdFromLoginPayload p.payload with
  | error e => exact nofun
  | ok u =>
    refine ⟨trivial, fun _ token' ht => ?_⟩
    cases ht
    exact ⟨p, Did.mono (did_snoc.mpr (.inr rfl))⟩

theorem storePre_loginWithAuthPayload (payload : Value) :
    (loginWithAuthPayload payload).Always StorePre (fun _ _ => True) tr := by
  unfold loginWithAuthPayload
  split
  · trivial
  · refine (storePre_performLogin _).orFail (fun tr' token h => ?_) fun _ _ _ => trivial
    obtain ⟨p, hp⟩ := h token rfl
    exact ⟨⟨token, p, rfl, hp⟩, fun _ => trivial⟩

theorem storePre_verifySmsCode (smsToken code : String) :
    (verifySmsCode config smsToken code).Always StorePre (fun _ _ => True) tr := by
  refine storePre_request (fun p => ?_) fun _ _ => trivial
  split
  · split
    · trivial
    · unfold verifyPasswordChallenge
      split
      · trivial
      · exact storePre_request (fun q => storePre_loginWithAuthPayload _) fun _ _ => trivial
  · exact storePre_loginWithAuthPayload _

theorem storePre_requestSmsCode (phone : String) :
    (requestSmsCode config phone).Always StorePre (fun _ _ => True) tr := by
  have asks : ∀ {tr : AttemptTrace} {captchaToken : Option String},
      (requestSmsCodeWithCaptchaToken phone captchaToken).Always StorePre (fun _ _ => True) tr :=
    storePre_request (fun _ => trivial) fun _ _ => trivial
  refine (Script.always_bind _ _ _).mpr (asks.mono (fun _ _ h => h) fun tr r _ => ?_)
  cases r with
  | ok token => trivial
  | error e =>
    dsimp only
    split
    · have solves : (solveAuthCaptcha config phone).Always StorePre (fun _ _ => True) tr := by
        refine storePre_request (fun p => ?_) fun _ _ => trivial
        dsimp only
        split
        · trivial
        · split
          · trivial
          · exact ⟨trivial, fun _ => trivial⟩
      exact solves.orFail (fun _ _ _ => asks) fun _ _ _ => trivial
    · trivial

theorem storePre_smsLogin : (smsLogin config).Always StorePre (fun _ _ => True) tr := by
  unfold smsLogin
  split
  · trivial
  · refine (storePre_requestSmsCode _).orFail (fun tr smsToken _ => ?_) fun _ _ _ => trivial
    refine (Script.always_orFail _ _ _).mpr ⟨trivial, fun r => ?_⟩
    cases r with
    | ok code => exact storePre_verifySmsCode smsToken (trim code)
    | error e => trivial

theorem storePre_login : (login config).Always StorePre (fun _ _ => True) tr := by
  unfold login
  split
  · refine (Script.always_bind _ _ _).mpr ((storePre_performLogin _).mono (fun _ _ h => h) ?_)
    intro tr r _
    cases r with
    | ok token => trivial
    | error e =>
      dsimp only
      split
      · exact storePre_smsLogin
      · trivial
  · exact storePre_smsLogin

theorem storePre_runAttempt (deviceId : String) :
    (runAttempt deviceId config).Always StorePre (fun _ _ => True) [] := by
  refine (Script.always_orFail _ _ _).mpr ⟨trivial, fun r => ?_⟩
  cases r with
  | error e => trivial
  | ok _ =>
    refine ⟨trivial, fun _ => (Script.always_orFail _ _ _).mpr ⟨trivial, fun r => ?_⟩⟩
    cases r with
    | error e => trivial
    | ok p =>
      refine ⟨trivial, fun _ => storePre_login.orFail (fun tr token _ => ?_) fun _ _ _ => trivial⟩
      exact (always_afterLogin_quiet token tr).mono
        (fun _ op h => by cases op <;> trivial) fun _ _ _ => trivial

end

structure FirstInv (setup : Setup) (w : Client) : Prop where
  runner : w.shared.created = 0 → ∀ r run runner, w.runs r = some run →
    run.supervisor = .looping runner → runner.config = setup.loginConfig
  session : 0 < w.shared.created → (w.shared.sessions 0).config = setup.loginConfig

section

variable {setup : Setup} {w w' : Client}

theorem firstInv_step {a : ClientAction} (hr : (Client.automaton setup).Reachable w)
    (h : w.step setup a = some w') (hi : FirstInv setup w) : FirstInv setup w' := by
  have hinv := clientInv_of_reachable hr
  have hg := client_grows (client_step h) hinv
  refine ⟨fun h0 r run' runner' hrun hsup => ?_, fun h0 => ?_⟩
  · have hnone : w.shared.created = 0 := Nat.le_zero.mp (h0 ▸ hg.created)
    rcases (client_step h).runner_config hrun hsup with
      he | ⟨run, runner, hq, hm, he | ⟨c, b, s, hpc, -⟩⟩
    · exact he
    · exact he.trans (hi.runner hnone r run runner hq hm)
    · have hc := hinv.handles.runner r run runner c hq hm hpc
      exact absurd hc (hnone ▸ Nat.not_lt_zero c)
  · rcases (client_step h).session_config h0 with
      ⟨hpos, he⟩ | ⟨hnone, r, run, runner, hq, hm, he⟩
    · exact he.trans (hi.session hpos)
    · exact he.trans (hi.runner hnone.symm r run runner hq hm)

theorem firstInv_of_reachable (h : (Client.automaton setup).Reachable w) : FirstInv setup w := by
  refine h.invariant_of (fun w hw => ?_) fun w a w' hr hs hi => firstInv_step hr hs hi
  obtain ⟨millis, rfl⟩ := hw
  exact ⟨fun _ r run runner hr => (nomatch hr), fun h0 => absurd h0 (Nat.lt_irrefl 0)⟩

/-- Every attempt begins with the token of the client, as long as the server has not rejected it. -/
theorem config_of_launch (h : (Client.automaton setup).Reachable w) {token : String}
    (ht : setup.loginConfig.sessionToken = some token) {c : ConnId} (hc : c < w.shared.created) :
    (w.shared.sessions c).config.sessionToken = some token ∨
      ∃ d, d < c ∧ LoginRejected (w.shared.sessions d).trace token := by
  induction c with
  | zero => exact .inl (by rw [(firstInv_of_reachable h).session hc, ht])
  | succ c ih =>
    have hc' := Nat.lt_of_succ_lt hc
    rcases ih hc' with hcfg | ⟨d, hd, hrej⟩
    · have hsession := (clientInv_of_reachable h).shared.sessions c hc'
      rcases Session.keptToken_of_config (Session.inv_of_reachable hsession).trace hcfg with
        hkept | hrej
      · exact .inl (((tokenInv_of_reachable h).chain c hc).trans hkept)
      · exact .inr ⟨c, Nat.lt_succ_self c, hrej⟩
    · exact .inr ⟨d, Nat.lt_succ_of_lt hd, hrej⟩

end

def Session.storing (s : Session) : Option String :=
  match s.phase with
  | .attempting { rest := .call (.storeSessionTokenFile contents) _, .. } => some contents
  | _ => none

/-- Every attempt but the last is over. -/
def Client.storing (w : Client) : Option String :=
  (w.shared.sessions (w.shared.created - 1)).storing

theorem Session.storing_step {fromStr : String → Except String Packet} {deviceId : String}
    {s s' : Session} {u : Unit} (hi : TraceInv deviceId s)
    (h : s.step fromStr (.attempt (.stored (.ok u))) = some s') :
    ∃ token p, s.storing = some (trim token ++ "\n") ∧
      Did s'.trace (.storeSessionTokenFile (trim token ++ "\n")) (.ok ()) ∧
      LoginAccepted s'.trace token p := by
  simp only [step] at h
  split at h
  · rename_i a hp
    split at h
    · simp only [stepAttempt] at h
      split at h
      · rename_i contents next hrest
        cases h
        obtain ⟨q, hq, hqr⟩ := hi
        rw [← hqr a hp, hrest] at hq
        obtain ⟨token, p, rfl, hacc⟩ := (storePre_runAttempt deviceId).head hq
        obtain ⟨rest, waiting, polling, checked⟩ := a
        cases hrest
        refine ⟨token, p, ?_, did_snoc.mpr (.inr rfl), Did.mono hacc⟩
        rw [storing, hp]
      · cases h
    · cases h
  · cases h

def ClientAction.stored : ClientAction → Bool
  | .run _ (.loop (.attempt (.stored (.ok _)))) => true
  | _ => false

theorem ClientAction.stored_eq {a : ClientAction} (h : a.stored = true) :
    ∃ r u, a = .run r (.loop (.attempt (.stored (.ok u)))) := by
  unfold stored at h
  split at h
  · exact ⟨_, _, rfl⟩
  · cases h

structure Machine where
  /-- What stood in the session token file when the process read it. -/
  launched : Option String
  file : Option String
  /-- A write has failed, or was cut off and may go on behind the back of the client: until the
  process has ended nobody can say what the file holds. -/
  torn : Bool
  setup : Setup
  client : Client

inductive MachineAction where
  | client (a : ClientAction)
  /-- The process ends, wherever it stands, and another begins in this environment; `left` is what
  a write leaves that has not succeeded. -/
  | restart (env : Environment) (left : Option String) (deviceId : String)
      (fromStr : String → Except String Packet) (millis : Nat)

namespace Machine

def idle (m : Machine) : Bool := !m.torn && m.client.storing.isNone

/-- `LoginConfig::from_env` and `MaxClient::new`. -/
def launch (env : Environment) (file : Option String) (deviceId : String)
    (fromStr : String → Except String Packet) (millis : Nat) : Except Error Machine :=
  (LoginConfig.fromEnv env file).bind fun config =>
    config.validate.map fun _ =>
      { launched := file
        file := file
        torn := false
        setup := { loginConfig := config, deviceId := deviceId, fromStr := fromStr }
        client := .new { loginConfig := config, deviceId := deviceId, fromStr := fromStr } millis }

def step (m : Machine) : MachineAction → Option Machine
  | .client a =>
    (m.client.step m.setup a).map fun w =>
      { m with
        client := w
        file := if a.stored then m.client.storing else m.file
        torn := m.torn || (m.client.storing.isSome && w.storing.isNone && !a.stored) }
  | .restart env left deviceId fromStr millis =>
    (launch env (if m.idle then m.file else left) deviceId fromStr millis).toOption

def automaton : Automaton Machine MachineAction where
  init := fun m => ∃ env file deviceId fromStr millis,
    launch env file deviceId fromStr millis = .ok m
  step := step

variable {m m' : Machine}

theorem launch_eq {env : Environment} {file : Option String} {deviceId : String}
    {fromStr : String → Except String Packet} {millis : Nat}
    (h : launch env file deviceId fromStr millis = .ok m) :
    m.launched = file ∧ m.file = file ∧ m.torn = false ∧ m.client = .new m.setup millis ∧
      m.setup.loginConfig.sessionToken = sessionTokenFromFile file := by
  unfold launch at h
  cases hc : LoginConfig.fromEnv env file with
  | error e =>
    rw [hc] at h
    cases h
  | ok config =>
    rw [hc] at h
    replace h : config.validate.map _ = Except.ok m := h
    cases hv : config.validate with
    | error e =>
      rw [hv] at h
      cases h
    | ok u =>
      rw [hv] at h
      cases h
      obtain ⟨-, -, hsaved⟩ := LoginConfig.fromEnv_eq hc
      exact ⟨rfl, rfl, rfl, rfl, hsaved⟩

theorem launch_none {env : Environment} {file : Option String} {deviceId : String}
    {fromStr : String → Except String Packet} {millis : Nat} :
    (launch env file deviceId fromStr millis).toOption = none ↔
      (∃ e, OperatorChannel.fromEnv env = .error e) ∨ LoginConfig.Lacks env file := by
  unfold launch
  cases hop : OperatorChannel.fromEnv env with
  | error e =>
    have hc : LoginConfig.fromEnv env file = .error e := by
      rw [LoginConfig.fromEnv, hop]
      rfl
    rw [hc]
    exact ⟨fun _ => .inl ⟨e, rfl⟩, fun _ => rfl⟩
  | ok operator =>
    obtain ⟨config, hc⟩ : ∃ config, LoginConfig.fromEnv env file = .ok config := by
      rw [LoginConfig.fromEnv, hop]
      exact ⟨_, rfl⟩
    have hv := LoginConfig.validate_fromEnv hc
    rw [hc, Except.bind]
    cases hval : config.validate with
    | error e =>
      rw [hval] at hv
      refine ⟨fun _ => .inr (Classical.not_not.mp fun hno => ?_), fun _ => rfl⟩
      cases hv.mpr hno
    | ok u =>
      refine ⟨nofun, fun hno => ?_⟩
      rcases hno with ⟨e, he⟩ | hlacks
      · cases he
      · exact absurd hlacks (hv.mp hval)

theorem stored_step {setup : Setup} {w w' : Client} {a : ClientAction}
    (hr : (Client.automaton setup).Reachable w) (h : w.step setup a = some w')
    (ha : a.stored = true) : ∃ c token p, c + 1 = w.shared.created ∧
      w'.shared.created = w.shared.created ∧ w.storing = some (trim token ++ "\n") ∧
      Did (w'.shared.sessions c).trace (.storeSessionTokenFile (trim token ++ "\n")) (.ok ()) ∧
      LoginAccepted (w'.shared.sessions c).trace token p := by
  obtain ⟨r, u, rfl⟩ := ClientAction.stored_eq ha
  obtain ⟨run, hrun, h⟩ := Option.bind_eq_some_iff.mp h
  obtain ⟨out, hout, rfl⟩ := Option.map_eq_some_iff.mp h
  simp only [Run.step] at hout
  split at hout
  · rename_i runner hsup
    obtain ⟨out', hl, rfl⟩ := Option.map_eq_some_iff.mp hout
    simp only [Runner.step] at hl
    split at hl
    · rename_i c hpc
      simp only [Runner.isLocal, if_true] at hl
      obtain ⟨sh', hsh, rfl⟩ := Option.map_eq_some_iff.mp hl
      obtain ⟨s, hs, rfl⟩ := onSession_eq hsh
      have hlast := ((tokenInv_of_reachable hr).current r run runner hrun hsup).1 c hpc
      have hsession := (clientInv_of_reachable hr).shared.sessions c (hlast ▸ Nat.lt_succ_self c)
      obtain ⟨token, p, hst, hdid, hacc⟩ :=
        Session.storing_step (Session.inv_of_reachable hsession).trace hs
      have hself : (w.shared.setSession c s).sessions c = s := setSession_self ..
      rw [← hself] at hdid hacc
      refine ⟨c, token, p, hlast, rfl, ?_, hdid, hacc⟩
      rw [Client.storing, ← hlast]
      exact hst
    · cases hl
  · cases hout

/-- What the file holds when nothing is known against it: what the process found, or a token with
which the server has let this process in. -/
def Holds (m : Machine) : Prop :=
  m.file = m.launched ∨ ∃ c token p, c < m.client.shared.created ∧
    m.file = some (trim token ++ "\n") ∧
    Did (m.client.shared.sessions c).trace (.storeSessionTokenFile (trim token ++ "\n")) (.ok ()) ∧
    LoginAccepted (m.client.shared.sessions c).trace token p

structure Inv (m : Machine) : Prop where
  client : (Client.automaton m.setup).Reachable m.client
  token : m.setup.loginConfig.sessionToken = sessionTokenFromFile m.launched
  holds : m.Holds

theorem Inv.of_launch {env : Environment} {file : Option String} {deviceId : String}
    {fromStr : String → Except String Packet} {millis : Nat}
    (h : launch env file deviceId fromStr millis = .ok m) : Inv m := by
  obtain ⟨hl, hf, -, hc, ht⟩ := launch_eq h
  exact ⟨hc ▸ .init ⟨millis, rfl⟩, hl ▸ ht, .inl (hf.trans hl.symm)⟩

theorem inv_step {a : MachineAction} (h : m.step a = some m') (hi : Inv m) : Inv m' := by
  cases a with
  | restart env left deviceId fromStr millis =>
    simp only [step] at h
    cases hl : launch env (if m.idle then m.file else left) deviceId fromStr millis with
    | error e =>
      rw [hl] at h
      cases h
    | ok n =>
      rw [hl] at h
      cases h
      exact .of_launch hl
  | client a =>
    obtain ⟨w, hw, rfl⟩ := Option.map_eq_some_iff.mp h
    refine ⟨hi.client.tail hw, hi.token, ?_⟩
    by_cases ha : a.stored = true
    · obtain ⟨c, token, p, hc, hcr, hst, hdid, hacc⟩ := stored_step hi.client hw ha
      refine .inr ⟨c, token, p, ?_, ?_, hdid, hacc⟩
      · show c < w.shared.created
        omega
      · simp [ha, hst]
    · have hg := client_grows (client_step hw) (clientInv_of_reachable hi.client)
      simp only [Holds, ha, Bool.false_eq_true, if_false]
      refine hi.holds.imp id ?_
      rintro ⟨c, token, p, hc, hf, hdid, hacc⟩
      exact ⟨c, token, p, Nat.lt_of_lt_of_le hc hg.created, hf, hg.did c hc _ _ hdid,
        hg.did c hc _ _ hacc⟩

theorem inv_of_reachable (h : automaton.Reachable m) : Inv m := by
  refine h.invariant (fun m hm => ?_) fun _ _ _ => inv_step
  obtain ⟨env, file, deviceId, fromStr, millis, hl⟩ := hm
  exact .of_launch hl

theorem restart_eq {env : Environment} {left : Option String} {deviceId : String}
    {fromStr : String → Except String Packet} {millis : Nat} (hidle : m.idle = true)
    (h : m.step (.restart env left deviceId fromStr millis) = some m') :
    launch env m.file deviceId fromStr millis = .ok m' := by
  simp only [step, hidle, if_true] at h
  cases hl : launch env m.file deviceId fromStr millis with
  | error e =>
    rw [hl] at h
    cases h
  | ok n =>
    rw [hl] at h
    cases h
    rfl

theorem file_step {a : MachineAction} (hi : Inv m) (hidle : m.idle = true)
    (h : m.step a = some m') : m'.file = m.file := by
  cases a with
  | restart env left deviceId fromStr millis => exact (launch_eq (restart_eq hidle h)).2.1
  | client a =>
    obtain ⟨w, hw, rfl⟩ := Option.map_eq_some_iff.mp h
    by_cases ha : a.stored = true
    · obtain ⟨c, token, p, -, -, hst, -⟩ := stored_step hi.client hw ha
      simp [idle, hst] at hidle
    · simp [ha]

theorem file_path (hi : Inv m) (h : automaton.Path (fun k _ => k.idle = true) m m') :
    m'.file = m.file := by
  refine (h.preserves (I := fun k => Inv k ∧ k.file = m.file) ?_ ⟨hi, rfl⟩).2
  intro k a k' hidle hs hk
  exact ⟨inv_step hs hk.1, (file_step hk.1 hidle hs).trans hk.2⟩

/-- The server has rejected a `LOGIN` with this token, on an earlier connection of the process or
before this point of the attempt on the connection. -/
def Rejected (m : Machine) (c : ConnId) (before : AttemptTrace) (token : String) : Prop :=
  (∃ d, d < c ∧ LoginRejected (m.client.shared.sessions d).trace token) ∨
    LoginRejected before token

/-- The stored token outlives the process. While no write is under way the file holds what the
process found in it or a token with which the server has let it in. As long as none is, every
process finds in the file what the one before it has left there, and only where that is no token
does it need more of its environment. It logs in with the token, and asks nobody for a code until
the server has rejected it. -/
theorem restart_login (h : automaton.Reachable m) :
    (m.idle = true → m.Holds) ∧
    (∀ n, automaton.Path (fun k _ => k.idle = true) m n → n.idle = true →
      ∀ env left deviceId fromStr millis,
      (∀ m', automaton.step n (.restart env left deviceId fromStr millis) = some m' →
        m'.launched = m.file) ∧
      (automaton.step n (.restart env left deviceId fromStr millis) = none ↔
        (∃ e, OperatorChannel.fromEnv env = .error e) ∨ LoginConfig.Lacks env m.file)) ∧
    ∀ token, m.launched = some (trim token ++ "\n") → (trim token).isEmpty = false →
      ∀ c, c < m.client.shared.created →
      ∀ before op, (m.client.shared.sessions c).ComesTo before op →
      (∀ opcode payload, op = .invoke opcode payload → isAuthOpcode opcode = true →
        (opcode = Opcode.LOGIN ∧ payload = loginPayload (trim token)) ∨
          m.Rejected c before (trim token)) ∧
      ∀ operator phone, op = .requestSmsCode operator phone →
        m.Rejected c before (trim token) := by
  have hinv := inv_of_reachable h
  refine ⟨fun _ => hinv.holds, fun n hn hidle env left deviceId fromStr millis => ⟨fun m' hs => ?_,
    ?_⟩, fun token hl hne c hc before op hcome => ?_⟩
  · exact (launch_eq (restart_eq hidle hs)).1.trans (file_path hinv hn)
  · rw [← file_path hinv hn]
    simp only [automaton, step, hidle, if_true]
    exact launch_none
  · have hsaved : m.setup.loginConfig.sessionToken = some (trim token) :=
      hinv.token.trans (hl ▸ sessionToken_stored hne)
    have hcfg := config_of_launch hinv.client hsaved hc
    have hsession := (clientInv_of_reachable hinv.client).shared.sessions c hc
    have hpre := hcome.pre (Session.inv_of_reachable hsession).trace
    -- with the token in its configuration, the attempt is past it only after a rejection
    have rejected : SavedRejected (m.client.shared.sessions c).config before →
        m.Rejected c before (trim token) := by
      intro hrej
      rcases hcfg with hcfg | hbefore
      · exact .inr (hrej _ hcfg)
      · exact .inl hbefore
    refine ⟨?_, ?_⟩
    · rintro opcode payload rfl hauth
      rcases hpre with ⟨-, ho, -⟩ | ⟨-, -, ⟨token', ht, ho, hp⟩ | hrej⟩
      · subst ho
        simp [isAuthOpcode, Opcode.SESSION_INIT, Opcode.LOGIN, Opcode.AUTH_REQUEST,
          Opcode.AUTH_CAPTCHA_REQUEST, Opcode.AUTH, Opcode.AUTH_PASSWORD] at hauth
      · rcases hcfg with hcfg | hbefore
        · cases hcfg.symm.trans ht
          exact .inl ⟨ho, hp⟩
        · exact .inr (.inl hbefore)
      · exact .inr (rejected hrej)
    · rintro operator phone rfl
      exact rejected hpre.2

/-- A number and an operator at the terminal. -/
def sampleEnv : Environment
  | "MAX_PHONE" => some " +7 "
  | "MAX_OPERATOR_CHANNEL" => some "CLI"
  | _ => none

/-- The first process on the machine: nothing has been stored. -/
def sampleFirst : Machine :=
  match launch sampleEnv none "device" Client.smsSetup.fromStr 0 with
  | .ok m => m
  | .error _ => { launched := none, file := none, torn := false, setup := Client.smsSetup,
                  client := .new Client.smsSetup 0 }

/-- It logs in by SMS and stores its token. -/
def sampleStored : List MachineAction :=
  (Client.sampleSmsLogin ++ [sampleAttempt (.stored (.ok ()))]).map .client

/-- The next process comes to its first request of the login. -/
def sampleSecond : List MachineAction :=
  sampleStored ++ [.restart (fun _ => none) none "device" Client.smsSetup.fromStr 0] ++
  sampleOpening.map .client

set_option maxRecDepth 2000 in
theorem restart_login_stored :
    (∃ m : Machine, m.file = some (trim "T" ++ "\n") ∧ m.Holds ∧
      ∃ m', automaton.step m (.restart (fun _ => none) none "device" Client.smsSetup.fromStr 0) =
        some m' ∧ m'.launched = m.file) ∧
    ∃ m : Machine, (m.client.shared.sessions 0).ComesTo Client.sampleReady
        (.invoke Opcode.LOGIN (loginPayload "T")) ∧
      ((Opcode.LOGIN = Opcode.LOGIN ∧ loginPayload "T" = loginPayload (trim "T")) ∨
        m.Rejected 0 Client.sampleReady (trim "T")) := by
  have hinit : automaton.init sampleFirst := ⟨sampleEnv, none, "device", _, 0, rfl⟩
  have hstored : automaton.Reachable ((automaton.exec sampleFirst sampleStored).get rfl) :=
    Automaton.reachable_get hinit
  have hs : automaton.step ((automaton.exec sampleFirst sampleStored).get rfl)
      (.restart (fun _ => none) none "device" Client.smsSetup.fromStr 0) =
        some ((automaton.step ((automaton.exec sampleFirst sampleStored).get rfl)
          (.restart (fun _ => none) none "device" Client.smsSetup.fromStr 0)).get rfl) :=
    (Option.some_get _).symm
  have hcomes : (((automaton.exec sampleFirst sampleSecond).get rfl).client.shared.sessions
      0).ComesTo Client.sampleReady (.invoke Opcode.LOGIN (loginPayload "T")) :=
    .inr ⟨rfl, _, _, rfl, rfl⟩
  refine ⟨⟨_, rfl, (restart_login hstored).1 rfl, _, hs,
    ((restart_login hstored).2.1 _ .refl rfl _ _ _ _ _).1 _ hs⟩, _, hcomes, ?_⟩
  exact ((restart_login (Automaton.reachable_get hinit)).2.2 "T" rfl (by decide) 0
    (by decide) _ _ hcomes).1 _ _ rfl rfl

end Machine

end Maxrs
