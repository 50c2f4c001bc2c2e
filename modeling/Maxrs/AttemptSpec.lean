import Maxrs.Session
set_option autoImplicit false

/-! What `run_attempt` may rely on at each of its operations. -/
namespace Maxrs

def Did (tr : AttemptTrace) (op : AttemptOp) (r : op.Ret) : Prop :=
  (⟨op, r⟩ : (op : AttemptOp) × op.Ret) ∈ tr

def Performed (tr : AttemptTrace) (op : AttemptOp) : Prop := op ∈ tr.map Sigma.fst

def Answered (tr : AttemptTrace) (opcode : Nat) (payload : Value) (r : Except Error Packet) :
    Prop := Did tr (.invoke opcode payload) r

def InitAccepted (deviceId : String) (tr : AttemptTrace) : Prop :=
  ∃ p, Answered tr Opcode.SESSION_INIT (sessionInitPayload .default deviceId) (.ok p)

def LoginAccepted (tr : AttemptTrace) (token : String) (p : Packet) : Prop :=
  Answered tr Opcode.LOGIN (loginPayload token) (.ok p)

def LoginRejected (tr : AttemptTrace) (token : String) : Prop :=
  ∃ message, Answered tr Opcode.LOGIN (loginPayload token) (.error (.server Opcode.LOGIN message))

def SavedRejected (config : LoginConfig) (tr : AttemptTrace) : Prop :=
  ∀ token, config.sessionToken = some token → LoginRejected tr token

def isAuthOpcode (opcode : Nat) : Bool :=
  opcode == Opcode.LOGIN || opcode == Opcode.AUTH_REQUEST || opcode == Opcode.AUTH_CAPTCHA_REQUEST
    || opcode == Opcode.AUTH || opcode == Opcode.AUTH_PASSWORD

/-- The session is set up and nobody is logged in. -/
structure Ready (deviceId : String) (tr : AttemptTrace) : Prop where
  connect : Did tr .connect (.ok ())
  reader : Did tr .spawnReader ()
  init : InitAccepted deviceId tr
  keepalive : Did tr .spawnKeepalive ()
  noLogin : ∀ token p, ¬ LoginAccepted tr token p
  noId : ∀ u, ¬ Did tr (.setOwnUserId u) ()
  noToken : ∀ token, ¬ Did tr (.setSessionToken token) ()

/-- `login` has gone through with this token, whose account has id `u`. -/
structure LoggedIn (deviceId : String) (config : LoginConfig) (tr : AttemptTrace)
    (token : String) (u : Int) : Prop where
  connect : Did tr .connect (.ok ())
  reader : Did tr .spawnReader ()
  init : InitAccepted deviceId tr
  keepalive : Did tr .spawnKeepalive ()
  login : ∃ p, LoginAccepted tr token p ∧ userIdFromLoginPayload p.payload = .ok u
  ownId : Did tr (.setOwnUserId u) ()
  only : ∀ token' p, LoginAccepted tr token' p → token' = token
  saved : config.sessionToken = some token ∨ SavedRejected config tr

/-- The promise kept at each operation, about the operations before it. -/
def AttemptPre (deviceId : String) (config : LoginConfig) (tr : AttemptTrace) : AttemptOp → Prop
  | .connect => tr = []
  | .spawnReader => tr = [⟨.connect, .ok ()⟩]
  | .invoke opcode payload =>
    (tr = [⟨.connect, .ok ()⟩, ⟨.spawnReader, ()⟩] ∧ opcode = Opcode.SESSION_INIT ∧
      payload = sessionInitPayload .default deviceId) ∨
    (Ready deviceId tr ∧ isAuthOpcode opcode = true ∧
      ((∃ token, config.sessionToken = some token ∧ opcode = Opcode.LOGIN ∧
        payload = loginPayload token) ∨ SavedRejected config tr))
  | .spawnKeepalive => InitAccepted deviceId tr
  | .requestSmsCode _ _ => Ready deviceId tr ∧ SavedRejected config tr
  | .setOwnUserId u => (∀ v, ¬ Did tr (.setOwnUserId v) ()) ∧
      ∃ token p, LoginAccepted tr token p ∧ userIdFromLoginPayload p.payload = .ok u
  | .storeSessionTokenFile _ => ∃ token u, LoggedIn deviceId config tr token u
  | .setSessionToken token => ∃ u, LoggedIn deviceId config tr token u
  | .connected | .stampConnectedAt => ∃ token u, LoggedIn deviceId config tr token u ∧
      Did tr (.setSessionToken token) ()
  | .dispatch => Did tr .connected (.ok ())
  | .solveCaptcha _ _ _ => True

/-- A result that ends the attempt with somebody logged in but no token kept. -/
def AttemptPost (tr : AttemptTrace) (r : Except Error Unit) : Prop :=
  ∀ token p, LoginAccepted tr token p →
    Did tr (.setSessionToken token) () ∨ ∃ reason, r = .error (.unexpectedResponse reason)

section

variable {deviceId : String} {config : LoginConfig} {tr : AttemptTrace}

@[simp] theorem did_snoc {op op' : AttemptOp} {r : op.Ret} {r' : op'.Ret} :
    Did (tr ++ [⟨op', r'⟩]) op r ↔
      Did tr op r ∨ (⟨op, r⟩ : (op : AttemptOp) × op.Ret) = ⟨op', r'⟩ := by
  simp [Did]

@[simp] theorem did_nil {op : AttemptOp} {r : op.Ret} : ¬ Did [] op r := List.not_mem_nil

theorem Did.mem {op : AttemptOp} {r : op.Ret} (h : Did tr op r) : op ∈ tr.map Sigma.fst :=
  List.mem_map_of_mem h

theorem did_snoc_of_ne {op op' : AttemptOp} {r : op.Ret} {r' : op'.Ret} (h : op ≠ op') :
    Did (tr ++ [⟨op', r'⟩]) op r ↔ Did tr op r :=
  did_snoc.trans (or_iff_left fun he => h (congrArg Sigma.fst he))

@[simp] theorem performed_snoc {op op' : AttemptOp} {r' : op'.Ret} :
    Performed (tr ++ [⟨op', r'⟩]) op ↔ Performed tr op ∨ op = op' := by
  unfold Performed
  rw [List.map_append, List.mem_append]
  simp only [List.map_cons, List.map_nil, List.mem_singleton]

theorem performed_snoc_of_ne {op op' : AttemptOp} {r' : op'.Ret} (h : op ≠ op') :
    Performed (tr ++ [⟨op', r'⟩]) op ↔ Performed tr op :=
  performed_snoc.trans (or_iff_left h)

theorem Did.mono {op op' : AttemptOp} {r : op.Ret} {r' : op'.Ret} (h : Did tr op r) :
    Did (tr ++ [⟨op', r'⟩]) op r := did_snoc.mpr (.inl h)

theorem InitAccepted.mono {op : AttemptOp} {r : op.Ret} (h : InitAccepted deviceId tr) :
    InitAccepted deviceId (tr ++ [⟨op, r⟩]) := by
  obtain ⟨p, hp⟩ := h
  exact ⟨p, Did.mono hp⟩

theorem SavedRejected.mono {op : AttemptOp} {r : op.Ret} (h : SavedRejected config tr) :
    SavedRejected config (tr ++ [⟨op, r⟩]) := by
  intro token ht
  obtain ⟨m, hm⟩ := h token ht
  exact ⟨m, Did.mono hm⟩

theorem Ready.snoc {op : AttemptOp} {r : op.Ret} (h : Ready deviceId tr)
    (hl : ∀ token p, (⟨.invoke Opcode.LOGIN (loginPayload token), .ok p⟩ :
      (op : AttemptOp) × op.Ret) ≠ ⟨op, r⟩)
    (hu : ∀ u, op ≠ .setOwnUserId u) (ht : ∀ token, op ≠ .setSessionToken token) :
    Ready deviceId (tr ++ [⟨op, r⟩]) where
  connect := h.connect.mono
  reader := h.reader.mono
  init := h.init.mono
  keepalive := h.keepalive.mono
  noLogin := fun token p hp => by
    rcases did_snoc.mp hp with hp | hp
    · exact h.noLogin token p hp
    · exact hl token p hp
  noId := fun u hp => by
    rcases did_snoc.mp hp with hp | hp
    · exact h.noId u hp
    · cases hp
      exact hu u rfl
  noToken := fun token hp => by
    rcases did_snoc.mp hp with hp | hp
    · exact h.noToken token hp
    · cases hp
      exact ht token rfl

theorem Ready.invoke {opcode : Nat} {payload : Value} {r : Except Error Packet}
    (h : Ready deviceId tr) (ho : opcode ≠ Opcode.LOGIN ∨ ∃ e, r = .error e) :
    Ready deviceId (tr ++ [⟨.invoke opcode payload, r⟩]) := by
  refine h.snoc (fun token p he => ?_) nofun nofun
  rcases ho with ho | ⟨e, rfl⟩
  · cases he
    exact ho rfl
  · cases he

theorem loginPayload_injective {a b : String} (h : loginPayload a = loginPayload b) : a = b := by
  simpa [loginPayload] using h

theorem LoggedIn.snoc {op : AttemptOp} {r : op.Ret} {token : String} {u : Int}
    (h : LoggedIn deviceId config tr token u)
    (hl : ∀ token p, (⟨.invoke Opcode.LOGIN (loginPayload token), .ok p⟩ :
      (op : AttemptOp) × op.Ret) ≠ ⟨op, r⟩) :
    LoggedIn deviceId config (tr ++ [⟨op, r⟩]) token u where
  connect := h.connect.mono
  reader := h.reader.mono
  init := h.init.mono
  keepalive := h.keepalive.mono
  login := by
    obtain ⟨p, hp, hu⟩ := h.login
    exact ⟨p, hp.mono, hu⟩
  ownId := h.ownId.mono
  only := fun token' p hp => by
    rcases did_snoc.mp hp with hp | hp
    · exact h.only token' p hp
    · exact absurd hp (hl token' p)
  saved := h.saved.imp id fun h => h.mono

/-- How a part of `login` may end when nobody is logged in before it. -/
def LoginPost (deviceId : String) (config : LoginConfig) (tr : AttemptTrace) :
    Except Error String → Prop
  | .ok token => ∃ u, LoggedIn deviceId config tr token u
  | .error e => Ready deviceId tr ∨
      ((∀ token, ¬ Did tr (.setSessionToken token) ()) ∧ ∃ reason, e = .unexpectedResponse reason)

/-- How a step of the SMS flow may end: still nobody is logged in. -/
def SmsPost {α : Type} (deviceId : String) (config : LoginConfig) (tr : AttemptTrace)
    (_ : Except Error α) : Prop := Ready deviceId tr ∧ SavedRejected config tr

theorem always_invoke {post : AttemptTrace → Except Error String → Prop} {opcode : Nat}
    {payload : Value} {f : Packet → AttemptScript (Except Error String)}
    (hpre : AttemptPre deviceId config tr (.invoke opcode payload))
    (hok : ∀ p, (f p).Always (AttemptPre deviceId config) post
      (tr ++ [⟨.invoke opcode payload, .ok p⟩]))
    (herr : ∀ e, post (tr ++ [⟨.invoke opcode payload, .error e⟩]) (.error e)) :
    ((invoke opcode payload).orFail f).Always (AttemptPre deviceId config) post tr := by
  refine (Script.always_orFail _ _ _).mpr ⟨hpre, fun r => ?_⟩
  cases r with
  | ok p => exact hok p
  | error e => exact herr e

theorem always_performLogin (token : String) (hr : Ready deviceId tr)
    (hs : config.sessionToken = some token ∨ SavedRejected config tr) :
    (performLogin token).Always (AttemptPre deviceId config) (fun tr' r =>
      match r with
      | .ok token' => ∃ u, LoggedIn deviceId config tr' token' u
      | .error e => (∃ e', tr' = tr ++ [⟨.invoke Opcode.LOGIN (loginPayload token), .error e'⟩] ∧
          e = e') ∨ ((∀ token, ¬ Did tr' (.setSessionToken token) ()) ∧
            ∃ reason, e = .unexpectedResponse reason)) tr := by
  refine always_invoke (.inr ⟨hr, rfl, ?_⟩) (fun p => ?_) fun e => .inl ⟨e, rfl, rfl⟩
  · exact hs.imp (fun ht => ⟨token, ht, rfl, rfl⟩) id
  · cases hu : userIdFromLoginPayload p.payload with
    | error e =>
      refine .inr ⟨fun token' ht => ?_, ?_⟩
      · rcases did_snoc.mp ht with ht | ht
        · exact hr.noToken token' ht
        · cases ht
      · unfold userIdFromLoginPayload okOr at hu
        split at hu <;> cases hu
        exact ⟨_, rfl⟩
    | ok u =>
      have hacc : LoginAccepted (tr ++ [⟨.invoke Opcode.LOGIN (loginPayload token), .ok p⟩])
          token p := did_snoc.mpr (.inr rfl)
      refine ⟨⟨fun v hv => ?_, token, p, hacc, hu⟩, fun _ => ⟨u, ?_⟩⟩
      · rcases did_snoc.mp hv with hv | hv
        · exact hr.noId v hv
        · cases hv
      · refine ⟨hr.connect.mono.mono, hr.reader.mono.mono, hr.init.mono.mono,
          hr.keepalive.mono.mono, ⟨p, hacc.mono, hu⟩, did_snoc.mpr (.inr rfl),
          fun token' p' hl => ?_, hs.imp id fun h => h.mono.mono⟩
        rcases did_snoc.mp hl with hl | hl
        · rcases did_snoc.mp hl with hl | hl
          · exact absurd hl (hr.noLogin token' p')
          · exact loginPayload_injective (AttemptOp.invoke.inj (congrArg Sigma.fst hl)).2
        · cases hl

theorem Ready.loginPost {e : Error} (h : Ready deviceId tr) :
    LoginPost deviceId config tr (.error e) := .inl h

theorem always_loginWithAuthPayload (payload : Value) (hr : Ready deviceId tr)
    (hs : SavedRejected config tr) :
    (loginWithAuthPayload payload).Always (AttemptPre deviceId config)
      (LoginPost deviceId config) tr := by
  unfold loginWithAuthPayload
  split
  · exact hr.loginPost
  · rename_i token _
    refine (always_performLogin token hr (.inr hs)).orFail (fun tr' token' h => ?_)
      fun tr' e h => ?_
    · obtain ⟨u, hu⟩ := h
      exact ⟨⟨token', u, hu⟩, fun _ => ⟨u, hu.snoc nofun⟩⟩
    · rcases h with ⟨e', rfl, rfl⟩ | h
      · exact (hr.invoke (.inr ⟨e, rfl⟩)).loginPost
      · exact .inr h

theorem always_verifyPasswordChallenge (challenge : Value) (password : String)
    (hr : Ready deviceId tr) (hs : SavedRejected config tr) :
    (verifyPasswordChallenge challenge password).Always (AttemptPre deviceId config)
      (LoginPost deviceId config) tr := by
  unfold verifyPasswordChallenge
  split
  · exact hr.loginPost
  · have hne : Opcode.AUTH_PASSWORD ≠ Opcode.LOGIN := by decide
    refine always_invoke (.inr ⟨hr, rfl, .inr hs⟩) (fun p => ?_) fun e => ?_
    · exact always_loginWithAuthPayload _ (hr.invoke (.inl hne)) hs.mono
    · exact (hr.invoke (.inl hne)).loginPost

theorem always_verifySmsCode (smsToken code : String) (hr : Ready deviceId tr)
    (hs : SavedRejected config tr) :
    (verifySmsCode config smsToken code).Always (AttemptPre deviceId config)
      (LoginPost deviceId config) tr := by
  have hne : Opcode.AUTH ≠ Opcode.LOGIN := by decide
  refine always_invoke (.inr ⟨hr, rfl, .inr hs⟩) (fun p => ?_) fun e => ?_
  · split
    · split
      · exact .inl (hr.invoke (.inl hne))
      · exact always_verifyPasswordChallenge _ _ (hr.invoke (.inl hne)) hs.mono
    · exact always_loginWithAuthPayload _ (hr.invoke (.inl hne)) hs.mono
  · exact (hr.invoke (.inl hne)).loginPost

theorem always_requestSmsCodeWithCaptchaToken (phone : String) (captchaToken : Option String)
    (hr : Ready deviceId tr) (hs : SavedRejected config tr) :
    (requestSmsCodeWithCaptchaToken phone captchaToken).Always (AttemptPre deviceId config)
      (SmsPost deviceId config) tr := by
  have hne : Opcode.AUTH_REQUEST ≠ Opcode.LOGIN := by decide
  exact always_invoke (.inr ⟨hr, rfl, .inr hs⟩) (fun p => ⟨hr.invoke (.inl hne), hs.mono⟩)
    fun e => ⟨hr.invoke (.inl hne), hs.mono⟩

theorem always_solveAuthCaptcha (phone : String) (hr : Ready deviceId tr)
    (hs : SavedRejected config tr) :
    (solveAuthCaptcha config phone).Always (AttemptPre deviceId config)
      (SmsPost deviceId config) tr := by
  have hne : Opcode.AUTH_CAPTCHA_REQUEST ≠ Opcode.LOGIN := by decide
  refine always_invoke (.inr ⟨hr, rfl, .inr hs⟩) (fun p => ?_) fun e =>
    ⟨hr.invoke (.inl hne), hs.mono⟩
  dsimp only
  split
  · exact ⟨hr.invoke (.inl hne), hs.mono⟩
  · split
    · exact ⟨hr.invoke (.inl hne), hs.mono⟩
    · exact ⟨trivial, fun r =>
        ⟨(hr.invoke (.inl hne)).snoc nofun nofun nofun, hs.mono.mono⟩⟩

theorem always_requestSmsCode (phone : String) (hr : Ready deviceId tr)
    (hs : SavedRejected config tr) :
    (requestSmsCode config phone).Always (AttemptPre deviceId config)
      (SmsPost deviceId config) tr := by
  refine (always_requestSmsCodeWithCaptchaToken phone none hr hs).bind fun tr' r h => ?_
  cases r with
  | ok token => exact h
  | error err =>
    dsimp only
    split
    · exact (always_solveAuthCaptcha phone h.1 h.2).orFail
        (fun tr'' token h' => always_requestSmsCodeWithCaptchaToken phone _ h'.1 h'.2)
        fun _ _ h' => h'
    · exact h

theorem always_smsLogin (hr : Ready deviceId tr) (hs : SavedRejected config tr) :
    (smsLogin config).Always (AttemptPre deviceId config) (LoginPost deviceId config) tr := by
  unfold smsLogin
  split
  · exact hr.loginPost
  · rename_i phone _
    refine (always_requestSmsCode phone hr hs).orFail (fun tr' smsToken h => ?_)
      fun tr' e h => h.1.loginPost
    refine (Script.always_orFail _ _ _).mpr ⟨h, fun r => ?_⟩
    have hr' : Ready deviceId (tr' ++ [⟨.requestSmsCode config.operator phone, r⟩]) :=
      h.1.snoc nofun nofun nofun
    cases r with
    | ok code => exact always_verifySmsCode smsToken _ hr' h.2.mono
    | error e => exact .inl hr'

theorem always_login (hr : Ready deviceId tr) :
    (login config).Always (AttemptPre deviceId config) (LoginPost deviceId config) tr := by
  unfold login
  split
  · rename_i token ht
    refine (always_performLogin token hr (.inl ht)).bind fun tr' r h => ?_
    cases r with
    | ok token' => exact h
    | error err =>
      dsimp only at h ⊢
      split
      · rename_i hfall
        rcases h with ⟨e', rfl, rfl⟩ | ⟨_, reason, rfl⟩
        · refine always_smsLogin (hr.invoke (.inr ⟨err, rfl⟩)) fun token' ht' => ?_
          cases err with
          | server opcode message =>
            simp only [shouldFallbackToSmsLogin, beq_iff_eq] at hfall
            subst hfall
            cases ht.symm.trans ht'
            exact ⟨message, did_snoc.mpr (.inr rfl)⟩
          | _ => simp [shouldFallbackToSmsLogin] at hfall
        · simp [shouldFallbackToSmsLogin] at hfall
      · rcases h with ⟨e', rfl, rfl⟩ | h
        · exact (hr.invoke (.inr ⟨err, rfl⟩)).loginPost
        · exact .inr h
  · rename_i hn
    exact always_smsLogin hr fun token ht => by simp [hn] at ht

theorem AttemptPost.of_ready {r : Except Error Unit} (h : Ready deviceId tr) :
    AttemptPost tr r := fun token p hl => absurd hl (h.noLogin token p)

theorem AttemptPost.of_set {r : Except Error Unit} {token : String} {u : Int}
    (h : LoggedIn deviceId config tr token u) (ht : Did tr (.setSessionToken token) ()) :
    AttemptPost tr r := fun token' p hl => .inl (h.only token' p hl ▸ ht)

theorem always_afterLogin (token : String) {u : Int} (h : LoggedIn deviceId config tr token u) :
    (Script.call (.setSessionToken token) fun _ =>
      Script.orFail (.call .connected .done) fun _ =>
      Script.call .stampConnectedAt fun _ =>
      Script.call .dispatch fun _ => .done (.ok ()) :
      AttemptScript (Except Error Unit)).Always (AttemptPre deviceId config) AttemptPost tr := by
  refine ⟨⟨u, h⟩, fun _ => ?_⟩
  have h₁ : LoggedIn deviceId config (tr ++ [⟨.setSessionToken token, ()⟩]) token u :=
    h.snoc nofun
  have ht₁ : Did (tr ++ [⟨.setSessionToken token, ()⟩]) (.setSessionToken token) () :=
    did_snoc.mpr (.inr rfl)
  refine (Script.always_orFail _ _ _).mpr ⟨⟨token, u, h₁, ht₁⟩, fun r => ?_⟩
  have h₂ : LoggedIn deviceId config
      (tr ++ [⟨.setSessionToken token, ()⟩] ++ [⟨.connected, r⟩]) token u := h₁.snoc nofun
  cases r with
  | error e => exact .of_set h₂ ht₁.mono
  | ok r =>
    have hc : Did (tr ++ [⟨.setSessionToken token, ()⟩] ++ [⟨.connected, .ok ()⟩]) .connected
        (.ok ()) := did_snoc.mpr (.inr rfl)
    refine ⟨⟨token, u, h₂, ht₁.mono⟩, fun _ => ⟨hc.mono, fun _ => ?_⟩⟩
    have h₃ : LoggedIn deviceId config (tr ++ [⟨.setSessionToken token, ()⟩] ++
        [⟨.connected, .ok r⟩] ++ [⟨.stampConnectedAt, ()⟩]) token u := h₂.snoc nofun
    exact .of_set (h₃.snoc nofun) ht₁.mono.mono.mono

/-- `run_attempt` keeps the promise at every operation, whatever the answers are. -/
theorem always_runAttempt (deviceId : String) (config : LoginConfig) :
    (runAttempt deviceId config).Always (AttemptPre deviceId config) AttemptPost [] := by
  refine (Script.always_orFail _ _ _).mpr ⟨rfl, fun r => ?_⟩
  have none : ∀ {tr : AttemptTrace} {r : Except Error Unit},
      (∀ token p, ¬ LoginAccepted tr token p) → AttemptPost tr r :=
    fun h token p hl => absurd hl (h token p)
  cases r with
  | error e =>
    refine none fun token p hl => ?_
    have hmem := Did.mem hl
    simp at hmem
  | ok _ =>
    refine ⟨rfl, fun _ => (Script.always_orFail _ _ _).mpr ⟨.inl ⟨rfl, rfl, rfl⟩, fun r => ?_⟩⟩
    have hlogin : ∀ token p r, ¬ LoginAccepted ([] ++ [⟨.connect, .ok ()⟩] ++
        [⟨.spawnReader, ()⟩] ++
        [⟨.invoke Opcode.SESSION_INIT (sessionInitPayload .default deviceId), r⟩]) token p := by
      intro token p r hl
      have hmem := Did.mem hl
      simp [Opcode.LOGIN, Opcode.SESSION_INIT] at hmem
    cases r with
    | error e => exact none fun token p => hlogin token p _
    | ok p =>
      have hinit : InitAccepted deviceId ([] ++ [⟨.connect, .ok ()⟩] ++ [⟨.spawnReader, ()⟩] ++
          [⟨.invoke Opcode.SESSION_INIT (sessionInitPayload .default deviceId), .ok p⟩]) :=
        ⟨p, did_snoc.mpr (.inr rfl)⟩
      refine ⟨hinit, fun _ => ?_⟩
      have hready : Ready deviceId ([] ++ [⟨.connect, .ok ()⟩] ++ [⟨.spawnReader, ()⟩] ++
          [⟨.invoke Opcode.SESSION_INIT (sessionInitPayload .default deviceId), .ok p⟩] ++
          [⟨.spawnKeepalive, ()⟩]) := by
        refine ⟨by simp [Did], by simp [Did], hinit.mono, did_snoc.mpr (.inr rfl),
          fun token q hl => ?_, fun u hu => ?_, fun token ht => ?_⟩
        · have hmem := Did.mem hl
          simp [Opcode.LOGIN, Opcode.SESSION_INIT] at hmem
        · simpa using hu.mem
        · simpa using ht.mem
      refine (always_login hready).orFail (fun tr' token h => ?_) fun tr' e h => ?_
      · obtain ⟨u, hu⟩ := h
        exact always_afterLogin token hu
      · rcases h with h | ⟨_, reason, rfl⟩
        · exact .of_ready h
        · exact fun _ _ _ => .inr ⟨reason, rfl⟩

def Faithful (deviceId : String) (config : LoginConfig) (tr : AttemptTrace) : Prop :=
  History.Justified (fun before e => AttemptPre deviceId config before e.1) tr

theorem Did.split {op : AttemptOp} {r : op.Ret} (hf : Faithful deviceId config tr)
    (h : Did tr op r) : ∃ before after, tr = before ++ ⟨op, r⟩ :: after ∧
      AttemptPre deviceId config before op := History.Justified.split hf h

theorem Did.later {before after : AttemptTrace} {op : AttemptOp} {r : op.Ret}
    (h : Did before op r) : Did (before ++ after) op r := List.mem_append_left _ h

structure Established (deviceId : String) (tr : AttemptTrace) (token : String) (u : Int)
    (p : Packet) : Prop where
  connect : Did tr .connect (.ok ())
  reader : Did tr .spawnReader ()
  init : InitAccepted deviceId tr
  keepalive : Did tr .spawnKeepalive ()
  login : LoginAccepted tr token p
  userId : userIdFromLoginPayload p.payload = .ok u
  ownId : Did tr (.setOwnUserId u) ()
  tokenSet : Did tr (.setSessionToken token) ()

theorem isPublished_iff : isPublished tr = true ↔ Did tr .connected (.ok ()) := by
  simp only [isPublished, List.any_eq_true, Did]
  constructor
  · rintro ⟨e, he, hm⟩
    split at hm
    · exact he
    · cases hm
  · exact fun h => ⟨_, h, rfl⟩

theorem established_of_published (hf : Faithful deviceId config tr)
    (h : Did tr .connected (.ok ())) : ∃ token u p, Established deviceId tr token u p := by
  obtain ⟨before, after, rfl, token, u, hl, ht⟩ := h.split hf
  obtain ⟨p, hp, hu⟩ := hl.login
  obtain ⟨q, hq⟩ := hl.init
  exact ⟨token, u, p, hl.connect.later, hl.reader.later, ⟨q, hq.later⟩, hl.keepalive.later,
    hp.later, hu, hl.ownId.later, ht.later⟩

end

end Maxrs
