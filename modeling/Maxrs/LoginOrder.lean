import Maxrs.LoginFlow
set_option autoImplicit false

/-! The requests of one `AuthFlow::login`, and what its result tells. -/
namespace Maxrs

def AttemptOp.request : AttemptOp → Option (Nat × Value)
  | .invoke opcode payload => some (opcode, payload)
  | _ => none

def AttemptOp.isPrompt : AttemptOp → Bool
  | .requestSmsCode _ _ => true
  | _ => false

def requestsOf (ops : List AttemptOp) : List (Nat × Value) := ops.filterMap AttemptOp.request

def savedPart (config : LoginConfig) : List (Nat × Value) :=
  match config.sessionToken with
  | some token => [(Opcode.LOGIN, loginPayload token)]
  | none => []

def captchaPart (phone : String) : Option String → List (Nat × Value)
  | some captchaToken => [(Opcode.AUTH_CAPTCHA_REQUEST, captchaRequestPayload phone),
      (Opcode.AUTH_REQUEST, smsAuthRequestPayload phone (some captchaToken))]
  | none => []

def passwordPart : Option (String × String) → List (Nat × Value)
  | some (trackId, password) => [(Opcode.AUTH_PASSWORD, passwordPayload trackId password)]
  | none => []

/-- `[LOGIN(saved)] AUTH_REQUEST [AUTH_CAPTCHA_REQUEST AUTH_REQUEST(captcha)] AUTH
[AUTH_PASSWORD] LOGIN(new)`. -/
def loginRequests (config : LoginConfig) (phone : String) (captchaToken : Option String)
    (smsToken code : String) (password : Option (String × String)) (token : String) :
    List (Nat × Value) :=
  savedPart config ++ ((Opcode.AUTH_REQUEST, smsAuthRequestPayload phone none) ::
    (captchaPart phone captchaToken ++ ((Opcode.AUTH, authPayload smsToken code) ::
      (passwordPart password ++ [(Opcode.LOGIN, loginPayload token)]))))

def LoginStage.Sent (config : LoginConfig) (sent : List (Nat × Value)) : LoginStage → Prop
  | .sms => sent = savedPart config
  | .refused phone =>
    sent = savedPart config ++ [(Opcode.AUTH_REQUEST, smsAuthRequestPayload phone none)]
  | .offered phone _ _ | .solved phone _ =>
    sent = savedPart config ++ [(Opcode.AUTH_REQUEST, smsAuthRequestPayload phone none),
      (Opcode.AUTH_CAPTCHA_REQUEST, captchaRequestPayload phone)]
  | .granted phone _ => ∃ captchaToken, sent = savedPart config ++
      (Opcode.AUTH_REQUEST, smsAuthRequestPayload phone none) :: captchaPart phone captchaToken
  | .entered _ _ => ∃ phone captchaToken, sent = savedPart config ++
      (Opcode.AUTH_REQUEST, smsAuthRequestPayload phone none) :: captchaPart phone captchaToken
  | .challenged _ _ => ∃ phone captchaToken smsToken code, sent = savedPart config ++
      ((Opcode.AUTH_REQUEST, smsAuthRequestPayload phone none) ::
        (captchaPart phone captchaToken ++ [(Opcode.AUTH, authPayload smsToken code)]))
  | .fresh _ => ∃ phone captchaToken smsToken code password, sent = savedPart config ++
      ((Opcode.AUTH_REQUEST, smsAuthRequestPayload phone none) ::
        (captchaPart phone captchaToken ++ ((Opcode.AUTH, authPayload smsToken code) ::
          passwordPart password)))

def requestsIn (tr : AttemptTrace) : List (Nat × Value) := requestsOf (tr.map Sigma.fst)

def promptsIn (tr : AttemptTrace) : Nat := (tr.map Sigma.fst).countP AttemptOp.isPrompt

variable {config : LoginConfig} {tr : AttemptTrace} {stage : LoginStage}

@[simp] theorem requestsIn_snoc (tr : AttemptTrace) (op : AttemptOp) (r : op.Ret) :
    requestsIn (tr ++ [⟨op, r⟩]) = requestsIn tr ++ op.request.toList := by
  cases h : op.request <;> simp [requestsIn, requestsOf, h]

@[simp] theorem promptsIn_snoc (tr : AttemptTrace) (op : AttemptOp) (r : op.Ret) :
    promptsIn (tr ++ [⟨op, r⟩]) = promptsIn tr + if op.isPrompt then 1 else 0 := by
  cases h : op.isPrompt <;> simp [promptsIn, h]

theorem Reached.sent (h : Reached config stage tr) : stage.Sent config (requestsIn tr) := by
  induction h with
  | unsaved hn => simp [LoginStage.Sent, savedPart, hn, requestsIn, requestsOf]
  | rejected ht => simp [LoginStage.Sent, savedPart, ht, requestsIn, requestsOf, AttemptOp.request]
  | refused _ _ ih =>
    simp only [LoginStage.Sent] at ih ⊢
    simp [ih, AttemptOp.request]
  | offered _ _ _ _ ih =>
    simp only [LoginStage.Sent] at ih ⊢
    simp [ih, AttemptOp.request]
  | solved _ ih =>
    simp only [LoginStage.Sent] at ih ⊢
    simp [ih, AttemptOp.request]
  | granted _ _ _ ih =>
    simp only [LoginStage.Sent] at ih ⊢
    exact ⟨none, by simp [ih, AttemptOp.request, captchaPart]⟩
  | @grantedAgain phone captchaToken _ _ _ _ _ ih =>
    simp only [LoginStage.Sent] at ih ⊢
    exact ⟨some captchaToken, by simp [ih, AttemptOp.request, captchaPart]⟩
  | @entered phone _ _ _ _ ih =>
    obtain ⟨captchaToken, ih⟩ := ih
    exact ⟨phone, captchaToken, by simp [ih, AttemptOp.request]⟩
  | @challenged smsToken code _ _ _ _ _ _ _ _ ih =>
    obtain ⟨phone, captchaToken, ih⟩ := ih
    exact ⟨phone, captchaToken, smsToken, trim code, by simp [ih, AttemptOp.request]⟩
  | @fresh smsToken code _ _ _ _ _ _ ih =>
    obtain ⟨phone, captchaToken, ih⟩ := ih
    exact ⟨phone, captchaToken, smsToken, trim code, none,
      by simp [ih, AttemptOp.request, passwordPart]⟩
  | @unlocked password trackId _ _ _ _ _ ih =>
    obtain ⟨phone, captchaToken, smsToken, code, ih⟩ := ih
    exact ⟨phone, captchaToken, smsToken, code, some (trackId, password),
      by simp [ih, AttemptOp.request, passwordPart]⟩

theorem LoginStage.Sent.start {sent : List (Nat × Value)} (h : stage.Sent config sent) :
    ∃ phone captchaToken smsToken code password token,
      sent <+: loginRequests config phone captchaToken smsToken code password token := by
  cases stage with
  | sms => exact ⟨"", none, "", "", none, "", by rw [h]; exact List.prefix_append _ _⟩
  | refused phone =>
    exact ⟨phone, none, "", "", none, "", by rw [h]; simp [loginRequests]⟩
  | offered phone url link | solved phone captchaToken =>
    exact ⟨phone, some "", "", "", none, "", by rw [h]; simp [loginRequests, captchaPart]⟩
  | granted phone smsToken =>
    obtain ⟨captchaToken, h⟩ := h
    exact ⟨phone, captchaToken, "", "", none, "", by rw [h]; simp [loginRequests]⟩
  | entered smsToken code =>
    obtain ⟨phone, captchaToken, h⟩ := h
    exact ⟨phone, captchaToken, "", "", none, "", by rw [h]; simp [loginRequests]⟩
  | challenged trackId password =>
    obtain ⟨phone, captchaToken, smsToken, code, h⟩ := h
    exact ⟨phone, captchaToken, smsToken, code, none, "", by rw [h]; simp [loginRequests]⟩
  | fresh token =>
    obtain ⟨phone, captchaToken, smsToken, code, password, h⟩ := h
    exact ⟨phone, captchaToken, smsToken, code, password, "", by rw [h]; simp [loginRequests]⟩

theorem LoginStage.Sent.ask {sent : List (Nat × Value)} {opcode : Nat} {payload : Value}
    (h : stage.Sent config sent) (ha : stage.Asks config opcode payload) :
    ∃ phone captchaToken smsToken code password token, sent ++ [(opcode, payload)] <+:
      loginRequests config phone captchaToken smsToken code password token := by
  cases stage with
  | sms =>
    obtain ⟨rfl, phone, -, rfl⟩ := ha
    exact ⟨phone, none, "", "", none, "", by rw [h]; simp [loginRequests]⟩
  | refused phone =>
    obtain ⟨rfl, rfl⟩ := ha
    exact ⟨phone, some "", "", "", none, "", by rw [h]; simp [loginRequests, captchaPart]⟩
  | solved phone captchaToken =>
    obtain ⟨rfl, rfl⟩ := ha
    exact ⟨phone, some captchaToken, "", "", none, "",
      by rw [h]; simp [loginRequests, captchaPart]⟩
  | entered smsToken code =>
    obtain ⟨rfl, rfl⟩ := ha
    obtain ⟨phone, captchaToken, h⟩ := h
    exact ⟨phone, captchaToken, smsToken, trim code, none, "", by rw [h]; simp [loginRequests]⟩
  | challenged trackId password =>
    obtain ⟨rfl, rfl⟩ := ha
    obtain ⟨phone, captchaToken, smsToken, code, h⟩ := h
    exact ⟨phone, captchaToken, smsToken, code, some (trackId, password), "",
      by rw [h]; simp [loginRequests, passwordPart]⟩
  | fresh token =>
    obtain ⟨rfl, rfl⟩ := ha
    obtain ⟨phone, captchaToken, smsToken, code, password, h⟩ := h
    exact ⟨phone, captchaToken, smsToken, code, password, token, by rw [h]; simp [loginRequests]⟩
  | offered phone url link | granted phone smsToken => exact ha.elim

theorem LoginDue.sent {token : String} (h : LoginDue config token tr) :
    ∃ phone captchaToken smsToken code password token',
      requestsIn tr ++ [(Opcode.LOGIN, loginPayload token)] <+:
        loginRequests config phone captchaToken smsToken code password token' := by
  rcases h with ⟨rfl, ht⟩ | h
  · exact ⟨"", none, "", "", none, "",
      by simp [requestsIn, requestsOf, loginRequests, savedPart, ht]⟩
  · exact h.sent.ask ⟨rfl, rfl⟩

theorem LoginTurn.sent {op : AttemptOp} (h : LoginTurn config tr op) :
    ∃ phone captchaToken smsToken code password token,
      requestsIn tr ++ op.request.toList <+:
        loginRequests config phone captchaToken smsToken code password token := by
  cases op with
  | invoke opcode payload =>
    rcases h with ⟨rfl, token, ht, rfl, rfl⟩ | ⟨stage, hr, ha⟩
    · exact LoginDue.sent (.inl ⟨rfl, ht⟩)
    · exact hr.sent.ask ha
  | solveCaptcha url captcha link =>
    obtain ⟨-, phone, hr⟩ := h
    simpa [AttemptOp.request] using hr.sent.start
  | requestSmsCode operator phone =>
    obtain ⟨-, smsToken, hr⟩ := h
    simpa [AttemptOp.request] using hr.sent.start
  | setOwnUserId u =>
    obtain ⟨token, before, p, hd, -, rfl⟩ := h
    simpa [AttemptOp.request] using hd.sent
  | storeSessionTokenFile contents =>
    obtain ⟨token, u, before, p, hd, -, rfl⟩ := h
    rw [requestsIn_snoc, requestsIn_snoc]
    simpa [AttemptOp.request] using hd.sent
  | connect | spawnReader | spawnKeepalive | setSessionToken token | connected
  | stampConnectedAt | dispatch => exact h.elim

/-- An answer that a login cannot go on from; the two refusals that it can are left out. -/
def LoginFailure (config : LoginConfig) (before : AttemptTrace) :
    ((op : AttemptOp) × op.Ret) → Prop
  | ⟨.invoke opcode payload, .error e⟩ =>
    ¬ (before = [] ∧ opcode = Opcode.LOGIN ∧ ∃ message, e = .server Opcode.LOGIN message) ∧
    ¬ ∃ phone message, opcode = Opcode.AUTH_REQUEST ∧
      payload = smsAuthRequestPayload phone none ∧ e = .server Opcode.AUTH_REQUEST message
  | ⟨.invoke opcode _, .ok p⟩ =>
    (opcode = Opcode.LOGIN ∧ ∀ u, userIdFromLoginPayload p.payload ≠ .ok u) ∨
    (opcode = Opcode.AUTH_REQUEST ∧ (p.payload.get "token").asStr = none) ∨
    (opcode = Opcode.AUTH_CAPTCHA_REQUEST ∧ (config.captcha.solverUrl = none ∨
      ∀ link, (p.payload.get "link").asStr = some link → link.isEmpty = true)) ∨
    (opcode = Opcode.AUTH ∧ if (p.payload.get "passwordChallenge").isObject then
        config.password = none ∨
          ((p.payload.get "passwordChallenge").get "trackId").asStr = none
      else ∀ token, loginTokenFromAuthPayload p.payload ≠ .ok token) ∨
    (opcode = Opcode.AUTH_PASSWORD ∧ ∀ token, loginTokenFromAuthPayload p.payload ≠ .ok token)
  | ⟨.solveCaptcha _ _ _, .error _⟩ | ⟨.requestSmsCode _ _, .error _⟩ => True
  | _ => False

def Clean (config : LoginConfig) (tr : AttemptTrace) : Prop :=
  History.Justified (fun before e => ¬ LoginFailure config before e) tr

theorem Reached.clean (h : Reached config stage tr) : Clean config tr := by
  induction h with
  | unsaved => exact History.justified_nil
  | rejected ht =>
    refine History.justified_snoc (l := []) History.justified_nil fun hf => ?_
    exact hf.1 ⟨rfl, rfl, _, rfl⟩
  | refused _ _ ih =>
    exact History.justified_snoc ih fun hf => hf.2 ⟨_, _, rfl, rfl, rfl⟩
  | @offered _ _ link _ _ _ hl hne hu ih =>
    refine History.justified_snoc ih fun hf => ?_
    have hempty : link = "" := by
      simpa [LoginFailure, Opcode.AUTH_CAPTCHA_REQUEST, Opcode.LOGIN, Opcode.AUTH_REQUEST,
        Opcode.AUTH, Opcode.AUTH_PASSWORD, hu, hl] using hf
    rw [hempty] at hne
    simp at hne
  | solved _ ih | entered _ ih => exact History.justified_snoc ih fun hf => hf
  | granted _ _ ht ih | grantedAgain _ ht ih =>
    refine History.justified_snoc ih fun hf => ?_
    simp [LoginFailure, Opcode.AUTH_CAPTCHA_REQUEST, Opcode.LOGIN, Opcode.AUTH_REQUEST,
      Opcode.AUTH, Opcode.AUTH_PASSWORD, ht] at hf
  | challenged _ hc hp ht ih =>
    refine History.justified_snoc ih fun hf => ?_
    simp [LoginFailure, Opcode.AUTH_CAPTCHA_REQUEST, Opcode.LOGIN, Opcode.AUTH_REQUEST,
      Opcode.AUTH, Opcode.AUTH_PASSWORD, hc, hp, ht] at hf
  | fresh _ hc ht ih =>
    refine History.justified_snoc ih fun hf => ?_
    simp [LoginFailure, Opcode.AUTH_CAPTCHA_REQUEST, Opcode.LOGIN, Opcode.AUTH_REQUEST,
      Opcode.AUTH, Opcode.AUTH_PASSWORD, hc, ht] at hf
  | unlocked _ ht ih =>
    refine History.justified_snoc ih fun hf => ?_
    simp [LoginFailure, Opcode.AUTH_CAPTCHA_REQUEST, Opcode.LOGIN, Opcode.AUTH_REQUEST,
      Opcode.AUTH, Opcode.AUTH_PASSWORD, ht] at hf

theorem LoginDue.clean {token : String} (h : LoginDue config token tr) : Clean config tr := by
  rcases h with ⟨rfl, -⟩ | h
  · exact History.justified_nil
  · exact h.clean

theorem LoginDue.clean_answer {token : String} {p : Packet} {u : Int}
    (h : LoginDue config token tr) (hu : userIdFromLoginPayload p.payload = .ok u) :
    Clean config (tr ++ [⟨.invoke Opcode.LOGIN (loginPayload token), .ok p⟩]) := by
  refine History.justified_snoc h.clean fun hf => ?_
  simp [LoginFailure, Opcode.AUTH_CAPTCHA_REQUEST, Opcode.LOGIN, Opcode.AUTH_REQUEST,
    Opcode.AUTH, Opcode.AUTH_PASSWORD, hu] at hf

theorem LoginDone.clean {token : String} {u : Int} (h : LoginDone config token u tr) :
    Clean config tr := by
  obtain ⟨before, p, hd, hu, rfl⟩ := h
  exact History.justified_snoc (hd.clean_answer hu) fun hf => hf

theorem LoginTurn.clean {op : AttemptOp} (h : LoginTurn config tr op) : Clean config tr := by
  cases op with
  | invoke opcode payload =>
    rcases h with ⟨rfl, -⟩ | ⟨stage, hr, -⟩
    · exact History.justified_nil
    · exact hr.clean
  | solveCaptcha url captcha link =>
    obtain ⟨-, phone, hr⟩ := h
    exact hr.clean
  | requestSmsCode operator phone =>
    obtain ⟨-, smsToken, hr⟩ := h
    exact hr.clean
  | setOwnUserId u =>
    obtain ⟨token, before, p, hd, hu, rfl⟩ := h
    exact hd.clean_answer hu
  | storeSessionTokenFile contents =>
    obtain ⟨token, u, hd⟩ := h
    exact hd.clean
  | connect | spawnReader | spawnKeepalive | setSessionToken token | connected
  | stampConnectedAt | dispatch => exact h.elim

theorem LoginEnd.clean {token : String} (h : LoginEnd config tr (.ok token)) :
    Clean config tr := by
  obtain ⟨u, hd | ⟨before, contents, r, hd, rfl⟩⟩ := h
  · exact hd.clean
  · exact History.justified_snoc hd.clean fun hf => hf

def LoginStage.prompts : LoginStage → Nat
  | .entered _ _ | .challenged _ _ | .fresh _ => 1
  | _ => 0

theorem Reached.prompts (h : Reached config stage tr) : promptsIn tr = stage.prompts := by
  induction h with
  | unsaved => rfl
  | rejected => rfl
  | refused _ _ ih | offered _ _ _ _ ih | solved _ ih | granted _ _ _ ih | grantedAgain _ _ ih
  | entered _ ih | challenged _ _ _ _ ih | fresh _ _ _ ih | unlocked _ _ ih =>
    rw [promptsIn_snoc, ih]
    rfl

theorem LoginDue.prompts {token : String} (h : LoginDue config token tr) : promptsIn tr ≤ 1 := by
  rcases h with ⟨rfl, -⟩ | h
  · exact Nat.zero_le _
  · exact Nat.le_of_eq h.prompts

theorem LoginTurn.prompts {op : AttemptOp} (h : LoginTurn config tr op) :
    promptsIn tr + (if op.isPrompt then 1 else 0) ≤ 1 := by
  cases op with
  | invoke opcode payload =>
    rcases h with ⟨rfl, -⟩ | ⟨stage, hr, -⟩
    · exact Nat.zero_le _
    · rw [hr.prompts]
      cases stage <;> simp [AttemptOp.isPrompt, LoginStage.prompts]
  | solveCaptcha url captcha link =>
    obtain ⟨-, phone, hr⟩ := h
    rw [hr.prompts]
    exact Nat.zero_le _
  | requestSmsCode operator phone =>
    obtain ⟨-, smsToken, hr⟩ := h
    rw [hr.prompts]
    exact Nat.le_refl 1
  | setOwnUserId u =>
    obtain ⟨token, before, p, hd, -, rfl⟩ := h
    simpa [AttemptOp.isPrompt] using hd.prompts
  | storeSessionTokenFile contents =>
    obtain ⟨token, u, before, p, hd, -, rfl⟩ := h
    rw [promptsIn_snoc, promptsIn_snoc]
    simpa [AttemptOp.isPrompt] using hd.prompts
  | connect | spawnReader | spawnKeepalive | setSessionToken token | connected
  | stampConnectedAt | dispatch => exact h.elim

theorem Reached.head {token : String} (h : Reached config stage tr)
    (ht : config.sessionToken = some token) : ∃ message,
      [⟨.invoke Opcode.LOGIN (loginPayload token),
        .error (.server Opcode.LOGIN message)⟩] <+: tr := by
  induction h with
  | unsaved hn => rw [hn] at ht; cases ht
  | @rejected _ message ht' =>
    cases ht.symm.trans ht'
    exact ⟨message, List.prefix_rfl⟩
  | refused _ _ ih | offered _ _ _ _ ih | solved _ ih | granted _ _ _ ih | grantedAgain _ _ ih
  | entered _ ih | challenged _ _ _ _ ih | fresh _ _ _ ih | unlocked _ _ ih =>
    obtain ⟨message, hm⟩ := ih
    exact ⟨message, hm.trans (List.prefix_append _ _)⟩

theorem Reached.grant {phone smsToken : String}
    (h : Reached config (.granted phone smsToken) tr) : ∃ captchaToken p,
      Answered tr Opcode.AUTH_REQUEST (smsAuthRequestPayload phone captchaToken) (.ok p) ∧
        (p.payload.get "token").asStr = some smsToken := by
  cases h with
  | granted _ _ ht => exact ⟨none, _, did_snoc.mpr (.inr rfl), ht⟩
  | @grantedAgain _ captchaToken _ _ _ _ ht =>
    exact ⟨some captchaToken, _, did_snoc.mpr (.inr rfl), ht⟩

section

variable {q : AttemptScript (Except Error String)}

open Script (After ops Made)

/-- The requests of a login are the start of a full one. -/
theorem login_requests (h : After (login config) tr q) :
    ∃ phone captchaToken smsToken code password token, requestsOf (ops tr q) <+:
      loginRequests config phone captchaToken smsToken code password token := by
  rcases (login_login config).ops_last h with hnil | ⟨before, op, ho, -, hturn⟩
  · exact ⟨"", none, "", "", none, "", by rw [hnil]; exact List.nil_prefix⟩
  · have hlast : requestsOf (ops tr q) = requestsIn before ++ op.request.toList := by
      rw [ho]
      cases hr : op.request <;> simp [requestsIn, requestsOf, hr]
    rw [hlast]
    exact hturn.sent

theorem login_prompts (h : After (login config) tr q) :
    (ops tr q).countP AttemptOp.isPrompt ≤ 1 := by
  rcases (login_login config).ops_last h with hnil | ⟨before, op, ho, -, hturn⟩
  · rw [hnil]
    exact Nat.zero_le _
  · rw [ho, List.countP_append, List.countP_singleton]
    exact hturn.prompts

/-- A saved token is tried first, and only its rejection leads on. -/
theorem login_saved {token : String} (h : After (login config) tr q)
    (ht : config.sessionToken = some token) :
    (∃ rest, requestsOf (ops tr q) = (Opcode.LOGIN, loginPayload token) :: rest) ∧
    (2 ≤ (requestsOf (ops tr q)).length → ∃ message,
      [⟨.invoke Opcode.LOGIN (loginPayload token), .error (.server Opcode.LOGIN message)⟩] <+:
        tr) := by
  constructor
  · have hfirst : (ops tr q).head? = some (.invoke Opcode.LOGIN (loginPayload token)) := by
      unfold login at h
      rw [ht] at h
      rcases After.call_cases h with ⟨rfl, rfl⟩ | ⟨r, rest, rfl, -⟩ <;> rfl
    cases hops : ops tr q with
    | nil => rw [hops] at hfirst; cases hfirst
    | cons op rest =>
      rw [hops] at hfirst
      cases hfirst
      exact ⟨requestsOf rest, rfl⟩
  · intro hlen
    rcases (login_login config).ops_last h with hnil | ⟨before, op, ho, hp, hturn⟩
    · rw [hnil] at hlen
      simp [requestsOf] at hlen
    · have hlast : (requestsIn before).length + op.request.toList.length =
          (requestsOf (ops tr q)).length := by
        rw [ho]
        cases hr : op.request <;> simp [requestsIn, requestsOf, hr]
      rw [← hlast] at hlen
      have reached : ∀ {stage before'}, Reached config stage before' → before' <+: before →
          ∃ message, [⟨.invoke Opcode.LOGIN (loginPayload token),
            .error (.server Opcode.LOGIN message)⟩] <+: tr := by
        intro stage before' hr hpre
        obtain ⟨message, hm⟩ := hr.head ht
        exact ⟨message, hm.trans (hpre.trans hp)⟩
      have due : ∀ {token' before' p}, LoginDue config token' before' →
          before' ++ [⟨.invoke Opcode.LOGIN (loginPayload token'), .ok p⟩] <+: before →
          2 ≤ (requestsIn before').length + 1 → ∃ message,
          [⟨.invoke Opcode.LOGIN (loginPayload token), .error (.server Opcode.LOGIN message)⟩] <+:
            tr := by
        rintro token' before' p (⟨rfl, -⟩ | hr) hpre hle
        · simp [requestsIn, requestsOf] at hle
        · exact reached hr ((List.prefix_append _ _).trans hpre)
      cases op with
      | invoke opcode payload =>
        rcases hturn with ⟨rfl, -⟩ | ⟨stage, hr, -⟩
        · simp [requestsIn, requestsOf, AttemptOp.request] at hlen
        · exact reached hr List.prefix_rfl
      | solveCaptcha url captcha link =>
        obtain ⟨-, phone, hr⟩ := hturn
        exact reached hr List.prefix_rfl
      | requestSmsCode operator phone =>
        obtain ⟨-, smsToken, hr⟩ := hturn
        exact reached hr List.prefix_rfl
      | setOwnUserId u =>
        obtain ⟨token', before', p, hd, -, rfl⟩ := hturn
        exact due hd List.prefix_rfl (by simpa [AttemptOp.request] using hlen)
      | storeSessionTokenFile contents =>
        obtain ⟨token', u, before', p, hd, -, rfl⟩ := hturn
        rw [requestsIn_snoc, requestsIn_snoc] at hlen
        exact due hd (List.prefix_append _ _) (by simpa [AttemptOp.request] using hlen)
      | connect | spawnReader | spawnKeepalive | setSessionToken token' | connected
      | stampConnectedAt | dispatch => exact hturn.elim

theorem Reached.refusal {phone : String} (h : Reached config (.refused phone) tr) :
    ∃ message, Answered tr Opcode.AUTH_REQUEST (smsAuthRequestPayload phone none)
      (.error (.server Opcode.AUTH_REQUEST message)) := by
  cases h with
  | refused _ _ => exact ⟨_, did_snoc.mpr (.inr rfl)⟩

theorem Reached.solution {phone captchaToken : String}
    (h : Reached config (.solved phone captchaToken) tr) :
    (∃ message, Answered tr Opcode.AUTH_REQUEST (smsAuthRequestPayload phone none)
      (.error (.server Opcode.AUTH_REQUEST message))) ∧
    ∃ url link, Did tr (.solveCaptcha url config.captcha link) (.ok captchaToken) := by
  cases h with
  | solved ho =>
    cases ho with
    | offered hr _ _ _ =>
      obtain ⟨message, hm⟩ := hr.refusal
      exact ⟨⟨message, hm.mono.mono⟩, _, _, did_snoc.mpr (.inr rfl)⟩

theorem Reached.challenge {trackId password : String}
    (h : Reached config (.challenged trackId password) tr) : config.password = some password ∧
      ∃ smsToken code p, Answered tr Opcode.AUTH (authPayload smsToken (trim code)) (.ok p) ∧
        (p.payload.get "passwordChallenge").isObject = true ∧
        ((p.payload.get "passwordChallenge").get "trackId").asStr = some trackId := by
  cases h with
  | challenged _ hc hp ht => exact ⟨hp, _, _, _, did_snoc.mpr (.inr rfl), hc, ht⟩

def RequestBasis (config : LoginConfig) (before : AttemptTrace) (opcode : Nat) (payload : Value) :
    Prop :=
  (opcode = Opcode.AUTH_CAPTCHA_REQUEST → ∃ phone message,
    payload = captchaRequestPayload phone ∧
    Answered before Opcode.AUTH_REQUEST (smsAuthRequestPayload phone none)
      (.error (.server Opcode.AUTH_REQUEST message))) ∧
  (∀ phone captchaToken, opcode = Opcode.AUTH_REQUEST →
    payload = smsAuthRequestPayload phone (some captchaToken) →
    (∃ message, Answered before Opcode.AUTH_REQUEST (smsAuthRequestPayload phone none)
      (.error (.server Opcode.AUTH_REQUEST message))) ∧
    ∃ url link, Did before (.solveCaptcha url config.captcha link) (.ok captchaToken)) ∧
  (opcode = Opcode.AUTH_PASSWORD → ∃ trackId password smsToken code p,
    payload = passwordPayload trackId password ∧ config.password = some password ∧
    Answered before Opcode.AUTH (authPayload smsToken (trim code)) (.ok p) ∧
    (p.payload.get "passwordChallenge").isObject = true ∧
    ((p.payload.get "passwordChallenge").get "trackId").asStr = some trackId)

theorem smsAuthRequestPayload_injective {phone phone' : String} {t t' : Option String}
    (h : smsAuthRequestPayload phone t = smsAuthRequestPayload phone' t') :
    phone = phone' ∧ t = t' := by
  cases t <;> cases t' <;> simp_all [smsAuthRequestPayload]

theorem login_basis {opcode : Nat} {payload : Value} {before : AttemptTrace}
    (h : After (login config) tr q) (hm : Made tr q before (.invoke opcode payload)) :
    RequestBasis config before opcode payload := by
  rcases (login_login config).made h hm with ⟨-, token, -, rfl, rfl⟩ | ⟨stage, hr, ha⟩
  · exact ⟨fun h => absurd h (by decide), fun _ _ h => absurd h (by decide),
      fun h => absurd h (by decide)⟩
  · cases stage with
    | sms =>
      obtain ⟨rfl, phone, -, rfl⟩ := ha
      refine ⟨fun h => absurd h (by decide), fun phone' t _ hp => ?_,
        fun h => absurd h (by decide)⟩
      cases (smsAuthRequestPayload_injective hp).2
    | refused phone =>
      obtain ⟨rfl, rfl⟩ := ha
      obtain ⟨message, hm⟩ := hr.refusal
      exact ⟨fun _ => ⟨phone, message, rfl, hm⟩, fun _ _ h => absurd h (by decide),
        fun h => absurd h (by decide)⟩
    | solved phone captchaToken =>
      obtain ⟨rfl, rfl⟩ := ha
      refine ⟨fun h => absurd h (by decide), fun phone' t _ hp => ?_,
        fun h => absurd h (by decide)⟩
      obtain ⟨rfl, ht⟩ := smsAuthRequestPayload_injective hp
      cases ht
      exact hr.solution
    | entered smsToken code =>
      obtain ⟨rfl, rfl⟩ := ha
      exact ⟨fun h => absurd h (by decide), fun _ _ h => absurd h (by decide),
        fun h => absurd h (by decide)⟩
    | challenged trackId password =>
      obtain ⟨rfl, rfl⟩ := ha
      obtain ⟨hp, smsToken, code, p, hauth, hc, ht⟩ := hr.challenge
      exact ⟨fun h => absurd h (by decide), fun _ _ h => absurd h (by decide),
        fun _ => ⟨trackId, password, smsToken, code, p, rfl, hp, hauth, hc, ht⟩⟩
    | fresh token =>
      obtain ⟨rfl, rfl⟩ := ha
      exact ⟨fun h => absurd h (by decide), fun _ _ h => absurd h (by decide),
        fun h => absurd h (by decide)⟩
    | offered phone url link | granted phone smsToken => exact ha.elim

theorem login_prompt {operator : OperatorChannel} {phone : String} {before : AttemptTrace}
    (h : After (login config) tr q) (hm : Made tr q before (.requestSmsCode operator phone)) :
    operator = config.operator ∧ ∃ captchaToken p smsToken,
      Answered before Opcode.AUTH_REQUEST (smsAuthRequestPayload phone captchaToken) (.ok p) ∧
        (p.payload.get "token").asStr = some smsToken := by
  obtain ⟨ho, smsToken, hr⟩ := (login_login config).made h hm
  obtain ⟨captchaToken, p, ha, ht⟩ := hr.grant
  exact ⟨ho, captchaToken, p, smsToken, ha, ht⟩

theorem login_failure {before after : AttemptTrace} {e : (op : AttemptOp) × op.Ret}
    (h : After (login config) tr q) (hl : tr = before ++ e :: after)
    (hf : LoginFailure config before e) : after = [] ∧ ∃ error, q = .done (.error error) := by
  have dirty : ∀ {tr'}, before ++ [e] <+: tr' → ¬ Clean config tr' := by
    rintro tr' ⟨rest, rfl⟩ hc
    exact hc before e rest (by simp) hf
  cases after with
  | cons e' after =>
    have hturn := (login_login config).justified h (before ++ [e]) e' after (by simp [hl])
    exact absurd hturn.clean (dirty List.prefix_rfl)
  | nil =>
    subst hl
    refine ⟨rfl, ?_⟩
    cases q with
    | call op next => exact absurd ((login_login config).head h).clean (dirty List.prefix_rfl)
    | done r =>
      cases r with
      | ok token =>
        exact absurd ((login_login config).result h).clean (dirty List.prefix_rfl)
      | error error => exact ⟨error, rfl⟩

theorem login_ok {token : String} (h : After (login config) tr (.done (.ok token))) :
    ∃ before p u rest, tr = before ++ [⟨.invoke Opcode.LOGIN (loginPayload token), .ok p⟩,
        ⟨.setOwnUserId u, ()⟩] ++ rest ∧ requestsIn rest = [] ∧
      userIdFromLoginPayload p.payload = .ok u ∧ ∀ v, Performed tr (.setOwnUserId v) ↔ v = u := by
  have only : ∀ {before p u}, LoginDue config token before → ∀ v,
      Performed (before ++ [⟨.invoke Opcode.LOGIN (loginPayload token), .ok p⟩] ++
        [⟨.setOwnUserId u, ()⟩]) (.setOwnUserId v) ↔ v = u := by
    intro before p u hd v
    rw [performed_snoc, or_iff_right (hd.asked v)]
    simp
  obtain ⟨u, ⟨before, p, hd, hu, rfl⟩ | ⟨_, contents, r, ⟨before, p, hd, hu, rfl⟩, rfl⟩⟩ :=
    (login_login config).result h
  · exact ⟨before, p, u, [], by simp, rfl, hu, only hd⟩
  · refine ⟨before, p, u, [⟨.storeSessionTokenFile contents, r⟩], by simp, rfl, hu, fun v => ?_⟩
    rw [performed_snoc_of_ne (by simp)]
    exact only hd v

theorem login_error {error : Error} (h : After (login config) tr (.done (.error error))) :
    Anonymous tr := (login_login config).result h

end

end Maxrs
