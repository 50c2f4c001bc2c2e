import Maxrs.AttemptSpec
set_option autoImplicit false

/-! The login as a protocol: how far it has come, and what may be asked there. -/
namespace Maxrs

def captchaRequestPayload (phone : String) : Value :=
  .object [("source", .string "auth"), ("identifier", .string phone)]

def authPayload (smsToken code : String) : Value :=
  .object [("token", .string smsToken), ("verifyCode", .string code),
    ("authTokenType", .string "CHECK_CODE")]

def passwordPayload (trackId password : String) : Value :=
  .object [("trackId", .string trackId), ("password", .string password)]

inductive LoginStage where
  /-- There is no saved token, or it was rejected. -/
  | sms
  | refused (phone : String)
  | offered (phone url link : String)
  | solved (phone captchaToken : String)
  | granted (phone smsToken : String)
  | entered (smsToken code : String)
  | challenged (trackId password : String)
  | fresh (token : String)

inductive Reached (config : LoginConfig) : LoginStage → AttemptTrace → Prop where
  | unsaved : config.sessionToken = none → Reached config .sms []
  | rejected {token message : String} : config.sessionToken = some token →
      Reached config .sms
        [⟨.invoke Opcode.LOGIN (loginPayload token), .error (.server Opcode.LOGIN message)⟩]
  | refused {phone message : String} {tr : AttemptTrace} : Reached config .sms tr →
      config.phone = some phone →
      Reached config (.refused phone) (tr ++ [⟨.invoke Opcode.AUTH_REQUEST
        (smsAuthRequestPayload phone none), .error (.server Opcode.AUTH_REQUEST message)⟩])
  | offered {phone url link : String} {p : Packet} {tr : AttemptTrace} :
      Reached config (.refused phone) tr → (p.payload.get "link").asStr = some link →
      link.isEmpty = false → config.captcha.solverUrl = some url →
      Reached config (.offered phone url link)
        (tr ++ [⟨.invoke Opcode.AUTH_CAPTCHA_REQUEST (captchaRequestPayload phone), .ok p⟩])
  | solved {phone link url captchaToken : String} {tr : AttemptTrace} :
      Reached config (.offered phone url link) tr →
      Reached config (.solved phone captchaToken)
        (tr ++ [⟨.solveCaptcha url config.captcha link, .ok captchaToken⟩])
  | granted {phone smsToken : String} {p : Packet} {tr : AttemptTrace} : Reached config .sms tr →
      config.phone = some phone → (p.payload.get "token").asStr = some smsToken →
      Reached config (.granted phone smsToken)
        (tr ++ [⟨.invoke Opcode.AUTH_REQUEST (smsAuthRequestPayload phone none), .ok p⟩])
  | grantedAgain {phone captchaToken smsToken : String} {p : Packet} {tr : AttemptTrace} :
      Reached config (.solved phone captchaToken) tr →
      (p.payload.get "token").asStr = some smsToken →
      Reached config (.granted phone smsToken) (tr ++ [⟨.invoke Opcode.AUTH_REQUEST
        (smsAuthRequestPayload phone (some captchaToken)), .ok p⟩])
  | entered {phone smsToken code : String} {tr : AttemptTrace} :
      Reached config (.granted phone smsToken) tr →
      Reached config (.entered smsToken code)
        (tr ++ [⟨.requestSmsCode config.operator phone, .ok code⟩])
  | challenged {smsToken code password trackId : String} {p : Packet} {tr : AttemptTrace} :
      Reached config (.entered smsToken code) tr →
      (p.payload.get "passwordChallenge").isObject = true → config.password = some password →
      ((p.payload.get "passwordChallenge").get "trackId").asStr = some trackId →
      Reached config (.challenged trackId password)
        (tr ++ [⟨.invoke Opcode.AUTH (authPayload smsToken (trim code)), .ok p⟩])
  | fresh {smsToken code token : String} {p : Packet} {tr : AttemptTrace} :
      Reached config (.entered smsToken code) tr →
      (p.payload.get "passwordChallenge").isObject = false →
      loginTokenFromAuthPayload p.payload = .ok token → Reached config (.fresh token)
        (tr ++ [⟨.invoke Opcode.AUTH (authPayload smsToken (trim code)), .ok p⟩])
  | unlocked {password trackId token : String} {p : Packet} {tr : AttemptTrace} :
      Reached config (.challenged trackId password) tr →
      loginTokenFromAuthPayload p.payload = .ok token → Reached config (.fresh token)
        (tr ++ [⟨.invoke Opcode.AUTH_PASSWORD (passwordPayload trackId password), .ok p⟩])

def LoginStage.Asks (config : LoginConfig) : LoginStage → Nat → Value → Prop
  | .sms, opcode, payload => opcode = Opcode.AUTH_REQUEST ∧
      ∃ phone, config.phone = some phone ∧ payload = smsAuthRequestPayload phone none
  | .refused phone, opcode, payload =>
    opcode = Opcode.AUTH_CAPTCHA_REQUEST ∧ payload = captchaRequestPayload phone
  | .solved phone captchaToken, opcode, payload =>
    opcode = Opcode.AUTH_REQUEST ∧ payload = smsAuthRequestPayload phone (some captchaToken)
  | .entered smsToken code, opcode, payload =>
    opcode = Opcode.AUTH ∧ payload = authPayload smsToken (trim code)
  | .challenged trackId password, opcode, payload =>
    opcode = Opcode.AUTH_PASSWORD ∧ payload = passwordPayload trackId password
  | .fresh token, opcode, payload => opcode = Opcode.LOGIN ∧ payload = loginPayload token
  | .offered _ _ _, _, _ | .granted _ _, _, _ => False

/-- A `LOGIN` with this token is due: the saved one first, a new one at the end. -/
def LoginDue (config : LoginConfig) (token : String) (tr : AttemptTrace) : Prop :=
  (tr = [] ∧ config.sessionToken = some token) ∨ Reached config (.fresh token) tr

def LoginDone (config : LoginConfig) (token : String) (u : Int) (tr : AttemptTrace) : Prop :=
  ∃ before p, LoginDue config token before ∧ userIdFromLoginPayload p.payload = .ok u ∧
    tr = before ++ [⟨.invoke Opcode.LOGIN (loginPayload token), .ok p⟩] ++
      [⟨.setOwnUserId u, ()⟩]

def LoginTurn (config : LoginConfig) (tr : AttemptTrace) : AttemptOp → Prop
  | .invoke opcode payload =>
    (tr = [] ∧ ∃ token, config.sessionToken = some token ∧ opcode = Opcode.LOGIN ∧
      payload = loginPayload token) ∨
    ∃ stage, Reached config stage tr ∧ stage.Asks config opcode payload
  | .solveCaptcha url captcha link => captcha = config.captcha ∧
      ∃ phone, Reached config (.offered phone url link) tr
  | .requestSmsCode operator phone => operator = config.operator ∧
      ∃ smsToken, Reached config (.granted phone smsToken) tr
  | .setOwnUserId u => ∃ token before p, LoginDue config token before ∧
      userIdFromLoginPayload p.payload = .ok u ∧
      tr = before ++ [⟨.invoke Opcode.LOGIN (loginPayload token), .ok p⟩]
  | .storeSessionTokenFile _ => ∃ token u, LoginDone config token u tr
  | _ => False

def Anonymous (tr : AttemptTrace) : Prop := ∀ u, ¬ Performed tr (.setOwnUserId u)

def LoginEnd (config : LoginConfig) (tr : AttemptTrace) : Except Error String → Prop
  | .ok token => ∃ u, LoginDone config token u tr ∨ ∃ before contents r,
      LoginDone config token u before ∧ tr = before ++ [⟨.storeSessionTokenFile contents, r⟩]
  | .error _ => Anonymous tr

variable {config : LoginConfig} {tr : AttemptTrace} {stage : LoginStage}

theorem performed_nil {op : AttemptOp} : ¬ Performed [] op := List.not_mem_nil

theorem Anonymous.snoc {op : AttemptOp} {r : op.Ret} (h : Anonymous tr)
    (hop : ∀ u, op ≠ .setOwnUserId u) : Anonymous (tr ++ [⟨op, r⟩]) := by
  intro u hp
  rw [performed_snoc_of_ne (Ne.symm (hop u))] at hp
  exact h u hp

theorem anonymous_nil : Anonymous [] := fun _ => performed_nil

theorem Reached.anonymous (h : Reached config stage tr) : Anonymous tr := by
  induction h with
  | unsaved => exact anonymous_nil
  | rejected => exact anonymous_nil.snoc fun u => by simp
  | refused _ _ ih | offered _ _ _ _ ih | solved _ ih | granted _ _ _ ih | grantedAgain _ _ ih
  | entered _ ih | challenged _ _ _ _ ih | fresh _ _ _ ih | unlocked _ _ ih =>
    exact ih.snoc fun u => by simp

theorem Reached.asked {op : AttemptOp} {r : op.Ret} (h : Reached config stage tr)
    (hop : ∀ u, op ≠ .setOwnUserId u) : Anonymous (tr ++ [⟨op, r⟩]) := h.anonymous.snoc hop

theorem LoginDue.asked {token : String} {r : Except Error Packet} (h : LoginDue config token tr) :
    Anonymous (tr ++ [⟨.invoke Opcode.LOGIN (loginPayload token), r⟩]) := by
  rcases h with ⟨rfl, -⟩ | h
  · exact anonymous_nil.snoc fun u => by simp
  · exact h.asked fun u => by simp

theorem LoginDue.turn {token : String} (h : LoginDue config token tr) :
    LoginTurn config tr (.invoke Opcode.LOGIN (loginPayload token)) := by
  rcases h with ⟨rfl, ht⟩ | h
  · exact .inl ⟨rfl, token, ht, rfl, rfl⟩
  · exact .inr ⟨_, h, rfl, rfl⟩

theorem always_ask {post : AttemptTrace → Except Error String → Prop} {opcode : Nat}
    {payload : Value} {f : Packet → AttemptScript (Except Error String)}
    (h : LoginTurn config tr (.invoke opcode payload))
    (hok : ∀ p, (f p).Always (LoginTurn config) post (tr ++ [⟨.invoke opcode payload, .ok p⟩]))
    (herr : ∀ e, post (tr ++ [⟨.invoke opcode payload, .error e⟩]) (.error e)) :
    ((invoke opcode payload).orFail f).Always (LoginTurn config) post tr := by
  refine (Script.always_orFail _ _ _).mpr ⟨h, fun r => ?_⟩
  cases r with
  | ok p => exact hok p
  | error e => exact herr e

theorem login_performLogin {token : String} (h : LoginDue config token tr) :
    (performLogin token).Always (LoginTurn config) (fun tr' r =>
      match r with
      | .ok token' => token' = token ∧ ∃ u, LoginDone config token u tr'
      | .error e => Anonymous tr' ∧ (shouldFallbackToSmsLogin e = true →
          tr' = tr ++ [⟨.invoke Opcode.LOGIN (loginPayload token), .error e⟩])) tr := by
  refine always_ask h.turn (fun p => ?_) fun e => ⟨h.asked, fun _ => rfl⟩
  cases hu : userIdFromLoginPayload p.payload with
  | error e =>
    refine ⟨h.asked, fun hf => ?_⟩
    unfold userIdFromLoginPayload okOr at hu
    split at hu <;> cases hu
    cases hf
  | ok u => exact ⟨⟨token, tr, p, h, hu, rfl⟩, fun _ => ⟨rfl, u, tr, p, h, hu, rfl⟩⟩

theorem login_loginWithAuthPayload {payload : Value}
    (hend : Anonymous tr)
    (h : ∀ token, loginTokenFromAuthPayload payload = .ok token →
      Reached config (.fresh token) tr) :
    (loginWithAuthPayload payload).Always (LoginTurn config) (LoginEnd config) tr := by
  unfold loginWithAuthPayload
  split
  · exact hend
  · rename_i token ht
    refine (login_performLogin (.inr (h token ht))).orFail (fun tr' token' h' => ?_)
      fun tr' e h' => h'.1
    obtain ⟨rfl, u, hd⟩ := h'
    exact ⟨⟨token', u, hd⟩, fun r => ⟨u, .inr ⟨tr', _, r, hd, rfl⟩⟩⟩

theorem okOr_ok {α : Type} {value : Option α} {error : Error} {a : α}
    (h : okOr value error = .ok a) : value = some a := by
  unfold okOr at h
  split at h <;> cases h
  rfl

theorem login_verifySmsCode {smsToken code : String}
    (h : Reached config (.entered smsToken code) tr) :
    (verifySmsCode config smsToken (trim code)).Always (LoginTurn config) (LoginEnd config) tr := by
  refine always_ask (.inr ⟨_, h, rfl, rfl⟩) (fun p => ?_) fun e => h.asked fun u => by simp
  have hasked : Anonymous
      (tr ++ [⟨.invoke Opcode.AUTH (authPayload smsToken (trim code)), .ok p⟩]) :=
    h.asked fun u => by simp
  split
  · rename_i hc
    split
    · exact hasked
    · rename_i password hp
      unfold verifyPasswordChallenge
      split
      · exact hasked
      · rename_i trackId ht
        have hch := Reached.challenged h hc (okOr_ok hp) (okOr_ok ht)
        refine always_ask (.inr ⟨_, hch, rfl, rfl⟩) (fun p => ?_) fun e =>
          hch.asked fun u => by simp
        exact login_loginWithAuthPayload (hch.asked fun u => by simp)
          fun token htok => .unlocked hch htok
  · rename_i hc
    exact login_loginWithAuthPayload hasked fun token ht => .fresh h (by simpa using hc) ht

def SmsEnd (config : LoginConfig) (phone : String) (tr : AttemptTrace) :
    Except Error String → Prop
  | .ok smsToken => Reached config (.granted phone smsToken) tr
  | .error _ => Anonymous tr

theorem login_solveAuthCaptcha {phone : String} (h : Reached config (.refused phone) tr) :
    (solveAuthCaptcha config phone).Always (LoginTurn config) (fun tr' r =>
      match r with
      | .ok captchaToken => Reached config (.solved phone captchaToken) tr'
      | .error _ => Anonymous tr') tr := by
  refine always_ask (.inr ⟨_, h, rfl, rfl⟩) (fun p => ?_) fun e => h.asked fun u => by simp
  dsimp only
  split
  · exact h.asked fun u => by simp
  · rename_i hlink
    split
    · exact h.asked fun u => by simp
    · rename_i url hu
      have ho : Reached config (.offered phone url (((p.payload.get "link").asStr).getD ""))
          (tr ++ [⟨.invoke Opcode.AUTH_CAPTCHA_REQUEST (captchaRequestPayload phone), .ok p⟩]) := by
        cases hl : (p.payload.get "link").asStr with
        | none => simp [hl] at hlink
        | some link =>
          rw [hl, Option.getD_some] at hlink
          exact .offered h hl (by simpa using hlink) (okOr_ok hu)
      refine ⟨⟨rfl, phone, ho⟩, fun r => ?_⟩
      cases r with
      | ok captchaToken => exact .solved ho
      | error e => exact ho.asked fun u => by simp

theorem login_requestSmsCode {phone : String} (h : Reached config .sms tr)
    (hp : config.phone = some phone) :
    (requestSmsCode config phone).Always (LoginTurn config) (SmsEnd config phone) tr := by
  have first : (requestSmsCodeWithCaptchaToken phone none).Always (LoginTurn config)
      (fun tr' r => SmsEnd config phone tr' r ∧ ∀ e, r = .error e →
        shouldRetrySmsWithCaptcha e = true → Reached config (.refused phone) tr') tr := by
    refine always_ask (.inr ⟨_, h, rfl, phone, hp, rfl⟩) (fun p => ?_) fun e => ?_
    · cases ht : (p.payload.get "token").asStr with
      | none =>
        refine ⟨h.asked fun u => by simp, fun e he hr => ?_⟩
        cases he
        cases hr
      | some smsToken => exact ⟨.granted h hp ht, fun e he => by cases he⟩
    · refine ⟨h.asked fun u => by simp, fun e' he hr => ?_⟩
      cases he
      cases e with
      | server opcode message =>
        simp only [shouldRetrySmsWithCaptcha, beq_iff_eq] at hr
        subst hr
        exact .refused h hp
      | _ => simp [shouldRetrySmsWithCaptcha] at hr
  refine first.bind fun tr' r hr => ?_
  cases r with
  | ok token => exact hr.1
  | error err =>
    dsimp only
    split
    · rename_i hretry
      refine (login_solveAuthCaptcha (hr.2 err rfl hretry)).orFail (fun tr'' token hs => ?_)
        fun _ _ h' => h'
      refine always_ask (.inr ⟨_, hs, rfl, rfl⟩) (fun p => ?_) fun e => hs.asked fun u => by simp
      cases ht : (p.payload.get "token").asStr with
      | none => exact hs.asked fun u => by simp
      | some smsToken => exact .grantedAgain hs ht
    · exact hr.1

theorem login_smsLogin (h : Reached config .sms tr) :
    (smsLogin config).Always (LoginTurn config) (LoginEnd config) tr := by
  unfold smsLogin
  split
  · exact h.anonymous
  · rename_i phone hp
    refine (login_requestSmsCode h (okOr_ok hp)).orFail (fun tr' smsToken hs => ?_)
      fun tr' e h' => h'
    refine (Script.always_orFail _ _ _).mpr ⟨⟨rfl, smsToken, hs⟩, fun r => ?_⟩
    cases r with
    | ok code => exact login_verifySmsCode (.entered hs)
    | error e => exact hs.asked fun u => by simp

/-- `login` asks at every stage for what is due there, whatever the answers are. -/
theorem login_login (config : LoginConfig) :
    (login config).Always (LoginTurn config) (LoginEnd config) [] := by
  unfold login
  split
  · rename_i token ht
    refine (login_performLogin (.inl ⟨rfl, ht⟩)).bind fun tr' r h => ?_
    cases r with
    | ok token' =>
      obtain ⟨rfl, u, hd⟩ := h
      exact ⟨u, .inl hd⟩
    | error err =>
      dsimp only
      split
      · rename_i hf
        rw [h.2 hf]
        cases err with
        | server opcode message =>
          simp only [shouldFallbackToSmsLogin, beq_iff_eq] at hf
          subst hf
          exact login_smsLogin (.rejected ht)
        | _ => simp [shouldFallbackToSmsLogin] at hf
      · exact h.1
  · rename_i hn
    exact login_smsLogin (.unsaved hn)

end Maxrs
