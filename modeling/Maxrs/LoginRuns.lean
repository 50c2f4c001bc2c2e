import Maxrs.LoginOrder
import Maxrs.ProtocolOrder
set_option autoImplicit false

/-! The login inside an attempt: which of its calls are the login's, and the frames behind them. -/
namespace Maxrs

open Script (After ops Made)

/-- Operations of `login`; `run_attempt` performs the others around it. -/
def AttemptOp.isLogin : AttemptOp → Bool
  | .invoke _ _ | .solveCaptcha _ _ _ | .requestSmsCode _ _ | .setOwnUserId _
  | .storeSessionTokenFile _ => true
  | _ => false

/-- The calls of `login` in the trace of an attempt: those behind the first four. -/
def loginCalls (tr : AttemptTrace) : AttemptTrace := (tr.drop 4).takeWhile fun e => e.1.isLogin

/-- `run_attempt` up to its login. -/
def openingCalls (deviceId : String) : List AttemptOp :=
  [.connect, .spawnReader, .invoke Opcode.SESSION_INIT (sessionInitPayload .default deviceId),
    .spawnKeepalive]

/-- `run_attempt` behind its login. -/
def afterLogin (token : String) : AttemptScript (Except Error Unit) :=
  .call (.setSessionToken token) fun _ =>
  Script.orFail (.call .connected .done) fun _ =>
  .call .stampConnectedAt fun _ =>
  .call .dispatch fun _ => .done (.ok ())

variable {deviceId : String} {config : LoginConfig} {tr : AttemptTrace}

theorem LoginTurn.isLogin {op : AttemptOp} (h : LoginTurn config tr op) : op.isLogin = true := by
  cases op <;> first | rfl | exact h.elim

theorem always_afterLogin_quiet (token : String) (tr : AttemptTrace) :
    (afterLogin token).Always (fun _ op => op.isLogin = false) (fun _ _ => True) tr := by
  refine ⟨rfl, fun _ => (Script.always_orFail _ _ _).mpr ⟨rfl, fun r => ?_⟩⟩
  cases r with
  | error e => trivial
  | ok _ => exact ⟨rfl, fun _ => ⟨rfl, fun _ => trivial⟩⟩

theorem takeWhile_first {α : Type} {p : α → Bool} {first rest : List α}
    (hf : ∀ a ∈ first, p a = true) (hr : ∀ a ∈ rest, p a = false) :
    (first ++ rest).takeWhile p = first := by
  rw [List.takeWhile_append_of_pos hf]
  cases rest with
  | nil => simp
  | cons a rest => simp [hr a List.mem_cons_self]

theorem after_login_part {rest : AttemptScript (Except Error Unit)}
    (h : After ((login config).orFail afterLogin) tr rest) :
    ∃ q, After (login config) (tr.takeWhile fun e => e.1.isLogin) q ∧
      (∀ e ∈ tr, e ∈ (tr.takeWhile fun e => e.1.isLogin) ∨ e.1.isLogin = false) ∧
      ∀ op, rest.next = some op → op.isLogin = false ∨ q.next = some op := by
  have login_ops : ∀ {first : AttemptTrace} {q : AttemptScript (Except Error String)},
      After (login config) first q → ∀ e ∈ first, e.1.isLogin = true := by
    intro first q hq e he
    obtain ⟨before, after, rfl, hturn⟩ := ((login_login config).justified hq).split he
    exact hturn.isLogin
  have whole : ∀ {q : AttemptScript (Except Error String)}, After (login config) tr q →
      tr.takeWhile (fun e => e.1.isLogin) = tr := fun hq => by
    simpa using takeWhile_first (login_ops hq) (fun e he => absurd he List.not_mem_nil)
  rcases h.orFail_cases with ⟨q, hq, rfl⟩ | ⟨e, hq, rfl⟩ | ⟨token, first, last, rfl, hq, hlast⟩
  · rw [whole hq]
    refine ⟨q, hq, fun e he => .inl he, fun op hop => ?_⟩
    cases q with
    | call op' next => exact .inr hop
    | done r =>
      cases r with
      | error e => cases hop
      | ok token =>
        cases hop
        exact .inl rfl
  · rw [whole hq]
    exact ⟨_, hq, fun e he => .inl he, fun op hop => by cases hop⟩
  · have last_ops : ∀ e ∈ last, e.1.isLogin = false := by
      intro e he
      obtain ⟨before, after, rfl, hop⟩ :=
        ((always_afterLogin_quiet token []).justified hlast).split he
      exact hop
    rw [takeWhile_first (login_ops hq) last_ops]
    refine ⟨_, hq, fun e he => (List.mem_append.mp he).imp_right (last_ops e),
      fun op hop => .inl ?_⟩
    cases rest with
    | done a => cases hop
    | call op' next =>
      cases hop
      exact (always_afterLogin_quiet token []).head hlast

theorem after_loginCalls {rest : AttemptScript (Except Error Unit)}
    (h : After (runAttempt deviceId config) tr rest) :
    ∃ q, After (login config) (loginCalls tr) q ∧
      (∀ e ∈ tr, e ∈ loginCalls tr ∨ e.1.isLogin = false ∨ e.1 ∈ openingCalls deviceId) ∧
      ∀ op, rest.next = some op →
        op.isLogin = false ∨ op ∈ openingCalls deviceId ∨ q.next = some op := by
  -- a trace that ends before the login, whatever its answers were
  have early : tr.length ≤ 4 → (∀ e ∈ tr, e.1 ∈ openingCalls deviceId) →
      (∀ op, rest.next = some op → op ∈ openingCalls deviceId) →
      ∃ q, After (login config) (loginCalls tr) q ∧
        (∀ e ∈ tr, e ∈ loginCalls tr ∨ e.1.isLogin = false ∨ e.1 ∈ openingCalls deviceId) ∧
        ∀ op, rest.next = some op →
          op.isLogin = false ∨ op ∈ openingCalls deviceId ∨ q.next = some op := by
    intro hlen hops hnext
    refine ⟨login config, ?_, fun e he => .inr (.inr (hops e he)),
      fun op hop => .inr (.inl (hnext op hop))⟩
    rw [loginCalls, List.drop_eq_nil_of_le hlen]
    exact .start
  rcases After.call_cases h with ⟨rfl, rfl⟩ | ⟨r, tr₁, rfl, h₁⟩
  · refine early (by simp) (by simp) fun op hop => ?_
    cases hop
    simp [openingCalls]
  cases r with
  | error e =>
    obtain ⟨rfl, rfl⟩ := After.done_cases h₁
    exact early (by simp) (by simp [openingCalls]) fun op hop => by cases hop
  | ok _ =>
  rcases After.call_cases h₁ with ⟨rfl, rfl⟩ | ⟨_, tr₂, rfl, h₂⟩
  · refine early (by simp) (by simp [openingCalls]) fun op hop => ?_
    cases hop
    simp [openingCalls]
  rcases After.call_cases h₂ with ⟨rfl, rfl⟩ | ⟨r, tr₃, rfl, h₃⟩
  · refine early (by simp) (by simp [openingCalls]) fun op hop => ?_
    cases hop
    simp [openingCalls]
  cases r with
  | error e =>
    obtain ⟨rfl, rfl⟩ := After.done_cases h₃
    exact early (by simp) (by simp [openingCalls]) fun op hop => by cases hop
  | ok p =>
  rcases After.call_cases h₃ with ⟨rfl, rfl⟩ | ⟨_, tr₄, rfl, h₄⟩
  · refine early (by simp) (by simp [openingCalls]) fun op hop => ?_
    cases hop
    simp [openingCalls]
  · have h₅ : After ((login config).orFail afterLogin) tr₄ rest := h₄
    obtain ⟨q, hq, hops, hnext⟩ := after_login_part h₅
    refine ⟨q, hq, fun e he => ?_, fun op hop => (hnext op hop).imp_right .inr⟩
    simp only [List.mem_cons] at he
    rcases he with rfl | rfl | rfl | rfl | he
    · exact .inr (.inr (by simp [openingCalls]))
    · exact .inr (.inr (by simp [openingCalls]))
    · exact .inr (.inr (by simp [openingCalls]))
    · exact .inr (.inr (by simp [openingCalls]))
    · exact (hops e he).imp_right .inl

/-- The request was written, and an error frame was received for it. -/
def RequestRefused (log : List TransportEvent) (q : Packet) (message : String) : Prop :=
  ∃ k n p, .wrote k q ∈ log ∧ .answered k n p ∈ log ∧ p.seq = q.seq ∧ p.cmd = CMD_ERROR ∧
    message = errorMessage p.payload

namespace Session

variable {fromStr : String → Except String Packet} {s : Session}

theorem answered_ok {opcode : Nat} {payload : Value} {p : Packet} (hi : Inv deviceId s)
    (h : Answered s.trace opcode payload (.ok p)) :
    ∃ sq, RequestAnswered s.generation.transport.log (Packet.request sq opcode payload) p := by
  obtain ⟨k, c, hc, rfl, rfl, hr⟩ := hi.calls.answered _ _ _ h
  obtain ⟨sq, -, ha⟩ := requestAnswered_of_returned hi.generation hc hr
  exact ⟨sq, ha⟩

theorem answered_server {opcode opcode' : Nat} {payload : Value} {message : String}
    (hi : Inv deviceId s)
    (h : Answered s.trace opcode payload (.error (.server opcode' message))) :
    opcode' = opcode ∧ ∃ sq,
      RequestRefused s.generation.transport.log (Packet.request sq opcode payload) message := by
  obtain ⟨k, c, hc, rfl, rfl, hr⟩ := hi.calls.answered _ _ _ h
  have hpc : c.pc = .returned (.error (.server opcode' message)) := by
    rcases (hi.generation.invokes k _ c hr hc).returned _ rfl with h | ⟨-, h⟩
    · exact h
    · cases h
  obtain ⟨n, p, sq, -, -, hw, ha, hs, -, hres⟩ :=
    Transport.returned_byFrame (Transport.transportInv_of_reachable hi.generation.transport) hc
      hpc rfl
  by_cases hcmd : p.cmd = CMD_ERROR
  · rw [Transport.respond_error c.opcode hcmd] at hres
    cases hres
    exact ⟨rfl, sq, k, n, p, hw, ha, hs, hcmd, rfl⟩
  · rw [Transport.respond_ok c.opcode hcmd] at hres
    cases hres

theorem performed_loginCalls {q : AttemptScript (Except Error Unit)} {u : Int}
    (h : After (runAttempt deviceId s.config) s.trace q) :
    Performed (loginCalls s.trace) (.setOwnUserId u) ↔ Did s.trace (.setOwnUserId u) () := by
  obtain ⟨-, -, hops, -⟩ := after_loginCalls h
  constructor
  · intro hp
    obtain ⟨⟨op, r⟩, he, rfl⟩ := List.mem_map.mp hp
    exact List.mem_of_mem_drop (List.takeWhile_subset _ he)
  · intro hd
    rcases hops _ hd with hm | hm | hm
    · exact List.mem_map.mpr ⟨_, hm, rfl⟩
    · cases hm
    · simp [openingCalls] at hm

end Session

/-- The login flow: its requests in their order, what each rests on, what ends it, and what its
result means; in an attempt these are the requests on the wire, their answers are frames, and the
account that the connection knows is the one the login has set. -/
theorem login_flow (config : LoginConfig) :
    (∀ (tr : AttemptTrace) (q : AttemptScript (Except Error String)),
      After (login config) tr q →
      (∃ phone captchaToken smsToken code password token, requestsOf (ops tr q) <+:
        loginRequests config phone captchaToken smsToken code password token) ∧
      (∀ token, config.sessionToken = some token →
        (∃ rest, requestsOf (ops tr q) = (Opcode.LOGIN, loginPayload token) :: rest) ∧
        (2 ≤ (requestsOf (ops tr q)).length → ∃ message,
          [⟨.invoke Opcode.LOGIN (loginPayload token), .error (.server Opcode.LOGIN message)⟩] <+:
            tr)) ∧
      (∀ before opcode payload, Made tr q before (.invoke opcode payload) →
        RequestBasis config before opcode payload) ∧
      (ops tr q).countP AttemptOp.isPrompt ≤ 1 ∧
      (∀ before operator phone, Made tr q before (.requestSmsCode operator phone) →
        ∃ captchaToken p smsToken,
          Answered before Opcode.AUTH_REQUEST (smsAuthRequestPayload phone captchaToken) (.ok p) ∧
            (p.payload.get "token").asStr = some smsToken) ∧
      (∀ before e after, tr = before ++ e :: after → LoginFailure config before e →
        after = [] ∧ ∃ error, q = .done (.error error)) ∧
      (∀ token, q = .done (.ok token) → ∃ before p u rest,
        tr = before ++ [⟨.invoke Opcode.LOGIN (loginPayload token), .ok p⟩,
          ⟨.setOwnUserId u, ()⟩] ++ rest ∧ requestsIn rest = [] ∧
        userIdFromLoginPayload p.payload = .ok u ∧
        ∀ v, Performed tr (.setOwnUserId v) ↔ v = u) ∧
      (∀ error, q = .done (.error error) → ∀ v, ¬ Performed tr (.setOwnUserId v))) ∧
    ∀ (fromStr : String → Except String Packet) (deviceId : String) (s : Session),
      (Session.automaton fromStr deviceId).Reachable s → s.config = config →
      ∃ q, After (login config) (loginCalls s.trace) q ∧
        (∀ e ∈ s.trace, e ∈ loginCalls s.trace ∨ e.1.isLogin = false ∨
          e.1 ∈ openingCalls deviceId) ∧
        (∀ a op, s.phase = .attempting a → a.rest.next = some op →
          op.isLogin = false ∨ op ∈ openingCalls deviceId ∨ q.next = some op) ∧
        (∀ u, s.generation.ownUserId = some u ↔
          Performed (loginCalls s.trace) (.setOwnUserId u)) ∧
        (∀ opcode payload p, Answered (loginCalls s.trace) opcode payload (.ok p) → ∃ sq,
          Session.RequestAnswered s.generation.transport.log
            (Packet.request sq opcode payload) p) ∧
        ∀ opcode payload opcode' message,
          Answered (loginCalls s.trace) opcode payload (.error (.server opcode' message)) →
          opcode' = opcode ∧ ∃ sq, RequestRefused s.generation.transport.log
            (Packet.request sq opcode payload) message := by
  refine ⟨fun tr q h => ⟨login_requests h, fun token ht => login_saved h ht,
    fun before opcode payload hm => login_basis h hm, login_prompts h,
    fun before operator phone hm => (login_prompt h hm).2,
    fun before e after hl hf => login_failure h hl hf, fun token hq => login_ok (hq ▸ h),
    fun error hq => login_error (hq ▸ h)⟩, fun fromStr deviceId s hr hc => ?_⟩
  subst hc
  have hi := Session.inv_of_reachable hr
  obtain ⟨rest, hrest, hphase⟩ := hi.trace
  obtain ⟨q, hq, hops, hnext⟩ := after_loginCalls hrest
  have sub : ∀ {op : AttemptOp} {r : op.Ret}, Did (loginCalls s.trace) op r → Did s.trace op r :=
    fun h => List.mem_of_mem_drop (List.takeWhile_subset _ h)
  refine ⟨q, hq, hops, fun a op ha hop => hnext op (hphase a ha ▸ hop), fun u => ?_,
    fun opcode payload p h => Session.answered_ok hi (sub h),
    fun opcode payload opcode' message h => Session.answered_server hi (sub h)⟩
  rw [Session.performed_loginCalls hrest]
  exact hi.tasks.ownId u

/-- A client with a phone number whose saved token is rejected: `AUTH_REQUEST` is next. -/
theorem login_flow_rejected : ∃ (config : LoginConfig) (tr : AttemptTrace)
    (q : AttemptScript (Except Error String)), After (login config) tr q ∧
      requestsOf (ops tr q) = [(Opcode.LOGIN, loginPayload "T"),
        (Opcode.AUTH_REQUEST, smsAuthRequestPayload "+7" none)] ∧
      ∃ message, [⟨.invoke Opcode.LOGIN (loginPayload "T"),
        .error (.server Opcode.LOGIN message)⟩] <+: tr := by
  let config : LoginConfig := { sampleSetup.loginConfig with phone := some "+7", operator := .cli }
  have hstart : After (login config) []
      (.call (.invoke Opcode.LOGIN (loginPayload "T")) _) := .start
  have hrejected := hstart.answer (.error (.server Opcode.LOGIN "expired"))
  exact ⟨config, _, _, hrejected, rfl, (((login_flow config).1 _ _ hrejected).2.1 "T" rfl).2
    (Nat.le_refl 2)⟩

end Maxrs
