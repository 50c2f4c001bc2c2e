import Maxrs.LoginOrder
set_option autoImplicit false

/-! `validate` against `login`: when an SMS is asked for that somebody can enter. -/
namespace Maxrs

open Script (After ops Made made_of_mem)

/-- There is a number to send an SMS to, and a channel through which its code comes back. -/
def LoginConfig.canEnterSms (config : LoginConfig) : Bool :=
  present config.phone && !config.operator.isNone

def SavedRefused (config : LoginConfig) (tr : AttemptTrace) : Prop :=
  ∃ token message, config.sessionToken = some token ∧
    [⟨.invoke Opcode.LOGIN (loginPayload token), .error (.server Opcode.LOGIN message)⟩] <+: tr

/-- Every `AUTH_REQUEST` of the login is for an SMS that can be entered. -/
def SmsEnterable (config : LoginConfig) (tr : AttemptTrace)
    (q : AttemptScript (Except Error String)) : Prop :=
  ∀ payload, (Opcode.AUTH_REQUEST, payload) ∈ requestsOf (ops tr q) → config.canEnterSms = true

variable {config : LoginConfig} {tr : AttemptTrace} {q : AttemptScript (Except Error String)}

theorem canEnterSms_of_validate (h : config.validate = .ok ())
    (ht : LoginConfig.present config.sessionToken = false) : config.canEnterSms = true := by
  unfold LoginConfig.validate at h
  rw [if_neg (by simp [ht])] at h
  split at h
  · cases h
  · split at h
    · cases h
    · simp_all [LoginConfig.canEnterSms]

theorem Reached.base {phone captchaToken : String}
    (h : Reached config (.solved phone captchaToken) tr) :
    config.phone = some phone ∧ ∃ before, before <+: tr ∧ Reached config .sms before := by
  cases h with
  | solved ho =>
    cases ho with
    | offered hr _ _ _ =>
      cases hr with
      | refused hs hp =>
        exact ⟨hp, _, ((List.prefix_append _ _).trans (List.prefix_append _ _)).trans
          (List.prefix_append _ _), hs⟩

theorem sms_of_authRequest {payload : Value} (h : After (login config) tr q)
    (hm : (Opcode.AUTH_REQUEST, payload) ∈ requestsOf (ops tr q)) :
    (∃ phone, config.phone = some phone) ∧
      ∃ before, before <+: tr ∧ Reached config .sms before := by
  obtain ⟨op, hop, hreq⟩ := List.mem_filterMap.mp hm
  obtain ⟨before, hpre, hmade⟩ := made_of_mem hop
  have hturn := (login_login config).made h hmade
  cases op with
  | invoke opcode payload' =>
    cases hreq
    rcases hturn with ⟨-, token, -, ho, -⟩ | ⟨stage, hr, ha⟩
    · exact absurd ho (by decide)
    · cases stage with
      | sms =>
        obtain ⟨-, phone, hp, -⟩ := ha
        exact ⟨⟨phone, hp⟩, before, hpre, hr⟩
      | solved phone captchaToken =>
        obtain ⟨hp, base, hb, hs⟩ := hr.base
        exact ⟨⟨phone, hp⟩, base, hb.trans hpre, hs⟩
      | refused phone | entered smsToken code | challenged trackId password | fresh token =>
        exact absurd ha.1 (by decide)
      | offered phone url link | granted phone smsToken => exact ha.elim
  | _ => cases hreq

/-- Once the saved token is refused, a number is all that `login` looks for. -/
theorem authRequest_of_refused {phone : String} (h : After (login config) tr q)
    (hr : SavedRefused config tr) (hp : config.phone = some phone) :
    (Opcode.AUTH_REQUEST, smsAuthRequestPayload phone none) ∈ requestsOf (ops tr q) := by
  obtain ⟨token, message, ht, rest, rfl⟩ := hr
  have hop : AttemptOp.invoke Opcode.AUTH_REQUEST (smsAuthRequestPayload phone none) ∈
      ops ([⟨.invoke Opcode.LOGIN (loginPayload token),
        .error (.server Opcode.LOGIN message)⟩] ++ rest) q := by
    unfold login at h
    rw [ht] at h
    rcases After.call_cases h with ⟨hnil, -⟩ | ⟨r, rest', he, hrest⟩
    · cases hnil
    · cases he
      have hsms : After (smsLogin config) rest q := hrest
      unfold smsLogin at hsms
      rw [hp] at hsms
      rcases After.call_cases hsms with ⟨rfl, rfl⟩ | ⟨r, rest', rfl, -⟩
      · exact List.mem_append_right _ (List.mem_singleton.mpr rfl)
      · exact List.mem_append_left _ (by simp)
  exact List.mem_filterMap.mpr ⟨_, hop, rfl⟩

theorem exists_saved_refused {token : String} (ht : config.sessionToken = some token) :
    ∃ q, After (login config) [⟨.invoke Opcode.LOGIN (loginPayload token),
      .error (.server Opcode.LOGIN "")⟩] q := by
  unfold login
  rw [ht]
  exact ⟨_, .first _⟩

theorem smsEnterable_iff (hv : config.validate = .ok ()) (h : After (login config) tr q) :
    SmsEnterable config tr q ↔
      config.canEnterSms = true ∨ config.phone = none ∨ ¬ SavedRefused config tr := by
  constructor
  · intro hs
    by_cases hrefused : SavedRefused config tr
    · cases hp : config.phone with
      | none => exact .inr (.inl rfl)
      | some phone => exact .inl (hs _ (authRequest_of_refused h hrefused hp))
    · exact .inr (.inr hrefused)
  · intro hc payload hm
    obtain ⟨⟨phone, hp⟩, before, hpre, hr⟩ := sms_of_authRequest h hm
    rcases hc with hc | hc | hc
    · exact hc
    · cases hp.symm.trans hc
    · cases hr with
      | unsaved hn => exact canEnterSms_of_validate hv (by simp [LoginConfig.present, hn])
      | rejected ht => exact absurd ⟨_, _, ht, hpre⟩ hc

/-- Which accepted configurations and which answers keep `login` from asking for an SMS that
nobody can enter. -/
theorem sms_request_enterable (hv : config.validate = .ok ()) :
    ((∀ tr q, After (login config) tr q → SmsEnterable config tr q) ↔
      config.canEnterSms = true ∨ config.phone = none) ∧
    ∀ tr q, After (login config) tr q → (SmsEnterable config tr q ↔
      config.canEnterSms = true ∨ config.phone = none ∨ ¬ SavedRefused config tr) := by
  refine ⟨⟨fun hall => ?_, fun hc tr q h => ?_⟩, fun tr q h => smsEnterable_iff hv h⟩
  · by_cases hc : config.canEnterSms = true
    · exact .inl hc
    · refine .inr ?_
      cases ht : config.sessionToken with
      | none =>
        exact absurd (canEnterSms_of_validate hv (by simp [LoginConfig.present, ht])) hc
      | some token =>
        -- the server may always refuse the saved token
        obtain ⟨q, hrun⟩ := exists_saved_refused ht
        have hrefused : SavedRefused config [⟨.invoke Opcode.LOGIN (loginPayload token),
            .error (.server Opcode.LOGIN "")⟩] := ⟨token, "", ht, List.prefix_rfl⟩
        rcases (smsEnterable_iff hv hrun).mp (hall _ _ hrun) with h | h | h
        · exact absurd h hc
        · exact h
        · exact absurd hrefused h
  · refine (smsEnterable_iff hv h).mpr ?_
    exact hc.imp_right .inl

/-- A saved token, a number and no operator channel. -/
def unattended : LoginConfig where
  phone := some "+7"
  password := none
  sessionToken := some "T"
  captcha := { solverUrl := none, callbackBind := "", callbackUrlBase := none }
  operator := .none

/-- The saved token alone: there is no number to ask an SMS for. -/
theorem sms_request_enterable_saved :
    LoginConfig.validate { unattended with phone := none } = .ok () ∧
      ∀ tr q, After (login { unattended with phone := none }) tr q →
        SmsEnterable { unattended with phone := none } tr q :=
  ⟨rfl, (sms_request_enterable rfl).1.mpr (.inr rfl)⟩

/-- `validate` accepts it; the server rejects the token, and the next request is `AUTH_REQUEST`. -/
theorem sms_request_unattended : ¬ ∀ config : LoginConfig, config.validate = .ok () →
    ∀ tr q, After (login config) tr q → SmsEnterable config tr q := by
  intro h
  have hstart : After (login unattended) [] (.call (.invoke Opcode.LOGIN (loginPayload "T")) _) :=
    .start
  have hrun := hstart.answer (.error (.server Opcode.LOGIN "expired"))
  have hsent := h unattended rfl _ _ hrun (smsAuthRequestPayload "+7" none)
    (List.mem_cons_of_mem _ (List.mem_singleton.mpr rfl))
  exact absurd hsent (by decide)

end Maxrs
