import Maxrs.Frames
import Maxrs.LoginRuns
import Maxrs.Relogin
import Maxrs.SendSpec
set_option autoImplicit false

/-! What the client has to say on a connection. -/
namespace Maxrs

open Script (After)

/-- The requests of a connection, apart from those of the senders: `token` tells the tokens to log
in with, `told` the answers on the connection by the opcode of their request, and `did` what else
the attempt has done. -/
inductive Request (deviceId : String) (config : LoginConfig) (token : String → Prop)
    (told : Nat → Packet → Prop) (did : (op : AttemptOp) → op.Ret → Prop) : Nat → Value → Prop where
  | ping : Request deviceId config token told did Opcode.PING pingPayload
  | sessionInit : Request deviceId config token told did Opcode.SESSION_INIT
      (sessionInitPayload .default deviceId)
  | login (t : String) : token t →
      Request deviceId config token told did Opcode.LOGIN (loginPayload t)
  | authRequest (phone : String) : config.phone = some phone →
      Request deviceId config token told did Opcode.AUTH_REQUEST (smsAuthRequestPayload phone none)
  | captchaRequest (phone : String) : config.phone = some phone →
      Request deviceId config token told did Opcode.AUTH_CAPTCHA_REQUEST
        (captchaRequestPayload phone)
  | authRequestSolved (phone url link captchaToken : String) (p : Packet) :
      config.phone = some phone → config.captcha.solverUrl = some url →
      told Opcode.AUTH_CAPTCHA_REQUEST p → (p.payload.get "link").asStr = some link →
      did (.solveCaptcha url config.captcha link) (.ok captchaToken) →
      Request deviceId config token told did Opcode.AUTH_REQUEST
        (smsAuthRequestPayload phone (some captchaToken))
  | auth (phone smsToken code : String) (p : Packet) : config.phone = some phone →
      told Opcode.AUTH_REQUEST p → (p.payload.get "token").asStr = some smsToken →
      did (.requestSmsCode config.operator phone) (.ok code) →
      Request deviceId config token told did Opcode.AUTH (authPayload smsToken (trim code))
  | authPassword (trackId password : String) (p : Packet) : config.password = some password →
      told Opcode.AUTH p → (p.payload.get "passwordChallenge").isObject = true →
      ((p.payload.get "passwordChallenge").get "trackId").asStr = some trackId →
      Request deviceId config token told did Opcode.AUTH_PASSWORD (passwordPayload trackId password)

theorem Request.mono {deviceId : String} {config config' : LoginConfig}
    {token token' : String → Prop} {told told' : Nat → Packet → Prop}
    {did did' : (op : AttemptOp) → op.Ret → Prop} {opcode : Nat} {payload : Value}
    (h : Request deviceId config token told did opcode payload)
    (hc : config' = { config with sessionToken := config'.sessionToken })
    (ht : ∀ t, token t → token' t) (hp : ∀ o p, told o p → told' o p)
    (hd : ∀ op r, did op r → did' op r) :
    Request deviceId config' token' told' did' opcode payload := by
  have hphone : config'.phone = config.phone := by rw [hc]
  have hpass : config'.password = config.password := by rw [hc]
  have hcaptcha : config'.captcha = config.captcha := by rw [hc]
  have hop : config'.operator = config.operator := by rw [hc]
  cases h with
  | ping => exact .ping
  | sessionInit => exact .sessionInit
  | login t h => exact .login t (ht t h)
  | authRequest phone h => exact .authRequest phone (hphone.trans h)
  | captchaRequest phone h => exact .captchaRequest phone (hphone.trans h)
  | authRequestSolved phone url link captchaToken p h hu h' hl hs =>
    refine .authRequestSolved phone url link captchaToken p (hphone.trans h) (hcaptcha ▸ hu)
      (hp _ p h') hl ?_
    rw [hcaptcha]
    exact hd _ _ hs
  | auth phone smsToken code p h h' hs hr =>
    refine .auth phone smsToken code p (hphone.trans h) (hp _ p h') hs ?_
    rw [hop]
    exact hd _ _ hr
  | authPassword trackId password p h h' hc hs =>
    exact .authPassword trackId password p (hpass.trans h) (hp _ p h') hc hs

theorem distinct_elements (elements : List MessageElement) :
    Value.DistinctItems (elements.map MessageElement.toValue) := by
  refine Value.distinctItems_iff.mpr fun v hv => ?_
  obtain ⟨e, -, rfl⟩ := List.mem_map.mp hv
  obtain ⟨kind, start, length, ⟨url⟩⟩ := e
  cases kind <;> cases url <;>
    simp [MessageElement.toValue, MessageElementKind.toValue, ElementAttributes.toValue,
      ElementAttributes.isEmpty, Value.Distinct, Value.DistinctEntries]

theorem Request.fits {deviceId : String} {config : LoginConfig} {tokens : String → Prop}
    {told : Nat → Packet → Prop} {did : (op : AttemptOp) → op.Ret → Prop} {opcode : Nat}
    {payload : Value} (h : Request deviceId config tokens told did opcode payload) :
    opcode < 2 ^ 16 ∧ payload.Distinct := by
  cases h with
  | ping =>
    exact ⟨by decide, by simp [pingPayload, Value.Distinct, Value.DistinctEntries]⟩
  | sessionInit =>
    exact ⟨by decide, by simp [sessionInitPayload, UserAgent.toValue, Value.Distinct,
      Value.DistinctEntries]⟩
  | login =>
    exact ⟨by decide, by simp [loginPayload, Value.Distinct, Value.DistinctEntries]⟩
  | authRequest | authRequestSolved =>
    exact ⟨by decide, by simp [smsAuthRequestPayload, Value.Distinct, Value.DistinctEntries]⟩
  | captchaRequest =>
    exact ⟨by decide, by simp [captchaRequestPayload, Value.Distinct, Value.DistinctEntries]⟩
  | auth => exact ⟨by decide, by simp [authPayload, Value.Distinct, Value.DistinctEntries]⟩
  | authPassword =>
    exact ⟨by decide, by simp [passwordPayload, Value.Distinct, Value.DistinctEntries]⟩

theorem Genuine.fits {cid : Int} {job : SendJob} {opcode : Nat} {payload : Value}
    (h : Genuine cid job opcode payload) : opcode < 2 ^ 16 ∧ payload.Distinct := by
  cases job with
  | text m =>
    obtain ⟨rfl, rfl⟩ := h
    exact ⟨by decide, by simp [textMessagePayload, Value.Distinct, Value.DistinctEntries,
      Value.DistinctItems, distinct_elements]⟩
  | file m =>
    rcases h with ⟨rfl, rfl⟩ | ⟨rfl, fileId, -, rfl⟩
    · exact ⟨by decide, by simp [fileUploadPayload, Value.Distinct, Value.DistinctEntries]⟩
    · exact ⟨by decide, by simp [fileMessagePayload, Value.Distinct, Value.DistinctEntries,
        Value.DistinctItems]⟩

theorem fits_request {seq opcode : Nat} {payload : Value} (hs : seq < 2 ^ 32)
    (h : opcode < 2 ^ 16 ∧ payload.Distinct) : (Packet.request seq opcode payload).Fits :=
  ⟨(by decide : PROTOCOL_VERSION < 2 ^ 8), (by decide : CMD_REQUEST < 2 ^ 8), hs, h.1, h.2⟩

theorem fits_ack {p : Packet} (m : IncomingMessage) (h : p.Fits) : (ackPacket p m).Fits :=
  ⟨(by decide : PROTOCOL_VERSION < 2 ^ 8), (by decide : CMD_RESPONSE < 2 ^ 8), h.seq, h.opcode,
    by simp [ackPacket, Packet.response, Value.Distinct, Value.DistinctEntries]⟩

section login

variable {deviceId : String} {config : LoginConfig} {tr : AttemptTrace} {phone : String}

theorem Reached.offered_basis {url link : String}
    (h : Reached config (.offered phone url link) tr) :
    config.phone = some phone ∧ config.captcha.solverUrl = some url ∧
      ∃ payload p, Answered tr Opcode.AUTH_CAPTCHA_REQUEST payload (.ok p) ∧
        (p.payload.get "link").asStr = some link := by
  cases h with
  | offered hr hl _ hu =>
    cases hr with
    | refused _ hp => exact ⟨hp, hu, _, _, did_snoc.mpr (.inr rfl), hl⟩

theorem Reached.granted_basis {smsToken : String}
    (h : Reached config (.granted phone smsToken) tr) :
    config.phone = some phone ∧ ∃ payload p, Answered tr Opcode.AUTH_REQUEST payload (.ok p) ∧
      (p.payload.get "token").asStr = some smsToken := by
  cases h with
  | granted _ hp ht => exact ⟨hp, _, _, did_snoc.mpr (.inr rfl), ht⟩
  | grantedAgain hs ht =>
    cases hs with
    | solved ho => exact ⟨ho.offered_basis.1, _, _, did_snoc.mpr (.inr rfl), ht⟩

theorem Reached.won {token : String} (h : Reached config (.fresh token) tr) :
    WonBySms tr token := by
  cases h with
  | fresh _ _ ht => exact ⟨_, _, _, .inl rfl, did_snoc.mpr (.inr rfl), ht⟩
  | unlocked _ ht => exact ⟨_, _, _, .inr rfl, did_snoc.mpr (.inr rfl), ht⟩

def AttemptRequest (deviceId : String) (config : LoginConfig) (tr : AttemptTrace) :
    Nat → Value → Prop :=
  Request deviceId config (fun t => config.sessionToken = some t ∨ WonBySms tr t)
    (fun o p => ∃ payload, Answered tr o payload (.ok p)) (Did tr)

theorem AttemptRequest.later {opcode : Nat} {payload : Value} {tr' : AttemptTrace}
    (h : AttemptRequest deviceId config tr opcode payload)
    (hd : ∀ op r, Did tr op r → Did tr' op r) :
    AttemptRequest deviceId config tr' opcode payload := by
  refine h.mono rfl (fun t ht => ?_) (fun o p hp => ?_) hd
  · rcases ht with hc | ⟨o, pl, p, ho, ha, hp⟩
    · exact .inl hc
    · exact .inr ⟨o, pl, p, ho, hd _ _ ha, hp⟩
  · obtain ⟨payload, ha⟩ := hp
    exact ⟨payload, hd _ _ ha⟩

theorem Reached.request {stage : LoginStage} {opcode : Nat} {payload : Value}
    (h : Reached config stage tr) (ha : stage.Asks config opcode payload) :
    AttemptRequest deviceId config tr opcode payload := by
  cases stage with
  | sms =>
    obtain ⟨rfl, phone, hp, rfl⟩ := ha
    exact .authRequest phone hp
  | refused phone =>
    obtain ⟨rfl, rfl⟩ := ha
    cases h with
    | refused _ hp => exact .captchaRequest phone hp
  | solved phone captchaToken =>
    obtain ⟨rfl, rfl⟩ := ha
    cases h with
    | solved ho =>
      obtain ⟨hp, hu, pl, p, hans, hl⟩ := ho.offered_basis
      exact .authRequestSolved phone _ _ captchaToken p hp hu ⟨pl, hans.mono⟩ hl
        (did_snoc.mpr (.inr rfl))
  | entered smsToken code =>
    obtain ⟨rfl, rfl⟩ := ha
    cases h with
    | entered hg =>
      obtain ⟨hp, pl, p, hans, ht⟩ := hg.granted_basis
      exact .auth _ smsToken code p hp ⟨pl, hans.mono⟩ ht (did_snoc.mpr (.inr rfl))
  | challenged trackId password =>
    obtain ⟨rfl, rfl⟩ := ha
    obtain ⟨hp, smsToken, code, p, hans, hc, ht⟩ := h.challenge
    exact .authPassword trackId password p hp ⟨_, hans⟩ hc ht
  | fresh token =>
    obtain ⟨rfl, rfl⟩ := ha
    exact .login token (.inr h.won)
  | offered phone url link | granted phone smsToken => exact ha.elim

/-- What `run_attempt` asks its connection next. -/
theorem request_of_after {opcode : Nat} {payload : Value}
    {next : Except Error Packet → AttemptScript (Except Error Unit)}
    (h : After (runAttempt deviceId config) tr (.call (.invoke opcode payload) next)) :
    AttemptRequest deviceId config tr opcode payload := by
  obtain ⟨q, hq, -, hnext⟩ := after_loginCalls h
  have sub : ∀ op r, Did (loginCalls tr) op r → Did tr op r :=
    fun _ _ h => List.mem_of_mem_drop (List.takeWhile_subset _ h)
  rcases hnext _ rfl with hno | hop | hn
  · cases hno
  · simp only [openingCalls, List.mem_cons, AttemptOp.invoke.injEq, reduceCtorEq, false_or,
      List.not_mem_nil, or_false] at hop
    obtain ⟨rfl, rfl⟩ := hop
    exact .sessionInit
  · cases q with
    | done r => cases hn
    | call op f =>
      cases hn
      rcases (login_login config).head hq with ⟨-, token, ht, rfl, rfl⟩ | ⟨stage, hr, ha⟩
      · exact .login token (.inl ht)
      · exact (hr.request ha).later sub

end login

end Maxrs
