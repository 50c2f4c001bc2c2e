import Maxrs.CallbackServer
import Maxrs.Kit.Progress
set_option autoImplicit false

/-! Where the token of a login by captcha comes from, and what its server answers. -/
namespace Maxrs

/-- A callback that is not accepted has an error of the request, never one for a 500. -/
def CallbackAt.Blamed (at_ : CallbackAt) : Prop :=
  ∀ cb r, at_ = .returned cb r → (∃ c, cb = some c ∧ r = .ok ()) ∨
    ∃ e, r = .error e ∧ ∀ display, (errorResponse display e).1 = 400

namespace CaptchaWorld

variable {env : CaptchaEnv} {w v : CaptchaWorld} {n : SolveId} {k : CallbackId}

theorem callback_frame {s : CallbackStep} (hs : (captcha env).step w (.callback k s) = some v) :
    v.solves = w.solves ∧ v.drawn = w.drawn ∧ ∀ j, j ≠ k → v.callbacks j = w.callbacks j := by
  cases callbackStep_turn hs <;> exact ⟨rfl, rfl, fun j h => Function.update_of_ne h ..⟩

theorem solve_frame {s : SolveStep} (hs : (captcha env).step w (.solve n s) = some v) :
    v.callbacks = w.callbacks ∧ ∀ m, m ≠ n → v.solves m = w.solves m := by
  cases solveStep_turn hs <;> exact ⟨rfl, fun m h => Function.update_of_ne h ..⟩

theorem response_of_callback (display : Error → String) {s : CallbackStep}
    (hs : (captcha env).step w (.callback k s) = some v) :
    (w.callbacks k).response display = none := by
  cases callbackStep_turn hs with
  | refused hat | unread hat | start hat | cleanup hat | remove hat _ | unknown hat _ | send hat _
  | unsent hat _ =>
    rw [hat]
    rfl
  | drop hat => rcases hat with hat | hat <;> rw [hat] <;> rfl

theorem cleaning_of_solve {s : SolveStep} {url : String}
    (hs : (captcha env).step w (.solve n s) = some v) (hv : v.solves n = .cleaning url) :
    s = .start url := by
  have self : ∀ p, Function.update w.solves n p n = .cleaning url → p = .cleaning url :=
    fun p hp => (Function.update_self ..).symm.trans hp
  cases solveStep_turn hs with
  | start _ =>
    cases self _ hv
    rfl
  | disabled _ _ | draw _ _ _ _ _ | insert _ | succeeded _ _ | failed _ _ | requestTimeout _ _
  | take _ _ | empty _ _ _ | closed _ _ _ | elapsed _ _ | sleep _ _ | remove _ | drop _ =>
    cases self _ hv

theorem challenge_of_solve {s : SolveStep} {c : Challenge}
    (hs : (captcha env).step w (.solve n s) = some v) (hc : (v.solves n).challenge = some c) :
    (w.solves n).challenge = some c ∨ ∃ url, w.solves n = .cleaning url ∧
      env.config.solverUrl = some c.solverUrl ∧ c.request.captchaUrl = url ∧
      c.request.callbackUrl = env.config.callbackUrl := by
  have self : ∀ p : SolveAt, v.solves n = p → p.challenge = some c :=
    fun p hp => (congrArg SolveAt.challenge hp).symm.trans hc
  have moved : ∀ p q : SolveAt, w.solves n = p → v.solves n = q → q.challenge = p.challenge →
      (w.solves n).challenge = some c := by
    intro p q hp hq he
    rw [hp, ← he]
    exact self q hq
  by_cases hclean : ∃ uuid, s = .cleanup uuid
  · obtain ⟨uuid, rfl⟩ := hclean
    have h' : w.solveStep env n (.cleanup uuid) = some v := hs
    simp only [solveStep] at h'
    split at h'
    · rename_i url hat
      split at h'
      · cases h'
        cases self _ (Function.update_self ..)
      · rename_i solverUrl hurl
        cases h'
        cases self _ (Function.update_self ..)
        exact .inr ⟨url, hat, hurl, rfl, rfl⟩
    · cases h'
  · left
    cases solveStep_turn hs with
    | disabled _ _ | draw _ _ _ _ _ => exact absurd ⟨_, rfl⟩ hclean
    | start _ => cases self _ (Function.update_self ..)
    | insert hat | succeeded hat _ | failed hat _ | requestTimeout hat _ | take hat _
    | empty hat _ _ | closed hat _ _ | elapsed hat _ | sleep hat _ | remove hat =>
      exact moved _ _ hat (Function.update_self ..) rfl
    | drop _ => exact self (.dropped _) (Function.update_self ..)

theorem accepted_of_callback {s : CallbackStep} {cb : CaptchaCallback}
    (hs : (captcha env).step w (.callback k s) = some v) (h : v.callbacks k = .accepted cb) :
    ∃ m, (w.solves m).receiving = true := by
  have self : ∀ p, Function.update w.callbacks k p k = .accepted cb → p = .accepted cb :=
    fun p hp => (Function.update_self ..).symm.trans hp
  cases callbackStep_turn hs with
  | send hat hrx => exact ⟨_, hrx⟩
  | refused _ | unread _ | start _ | cleanup _ | remove _ _ | unknown _ _ | unsent _ _ | drop _ =>
    cases self _ h

theorem blamed_of_callback {s : CallbackStep}
    (hs : (captcha env).step w (.callback k s) = some v) : (v.callbacks k).Blamed := by
  have other : ∀ p : CallbackAt, (∀ cb r, p ≠ .returned cb r) →
      v.callbacks k = p → (v.callbacks k).Blamed := by
    intro p hp hv cb r he
    exact absurd (hv.symm.trans he) (hp cb r)
  have failed : ∀ cb e, v.callbacks k = .returned cb (.error e) →
      (∀ display, (CallbackAt.errorResponse display e).1 = 400) → (v.callbacks k).Blamed := by
    intro cb e hv hb cb' r he
    cases hv.symm.trans he
    exact .inr ⟨e, rfl, hb⟩
  have self : ∀ p, Function.update w.callbacks k p k = p := fun p => Function.update_self ..
  cases s with
  | start body =>
    have h' : w.callbackStep env k (.start body) = some v := hs
    simp only [callbackStep] at h'
    split at h'
    · split at h'
      · cases h'
        exact other _ (fun _ _ he => by cases he) (self _)
      · cases h'
        exact failed _ _ (self _) fun _ => rfl
      · split at h'
        · cases h'
          exact failed _ _ (self _) fun _ => rfl
        · cases h'
          exact other _ (fun _ _ he => by cases he) (self _)
    · cases h'
  | cleanup =>
    cases callbackStep_turn hs
    exact other _ (fun _ _ he => by cases he) (self _)
  | remove =>
    cases callbackStep_turn hs with
    | remove _ _ => exact other _ (fun _ _ he => by cases he) (self _)
    | unknown _ _ => exact failed _ _ (self _) fun _ => rfl
  | send =>
    cases callbackStep_turn hs with
    | @send cb _ _ _ =>
      intro cb' r he
      cases (self (.accepted cb)).symm.trans he
      exact .inl ⟨cb, rfl, rfl⟩
    | unsent _ _ => exact failed _ _ (self _) fun _ => rfl
  | drop =>
    cases callbackStep_turn hs
    exact other _ (fun _ _ he => by cases he) (self _)

end CaptchaWorld

namespace CaptchaLogin

variable {setup : CaptchaLoginSetup} {s t : CaptchaLogin} {a : CaptchaLoginAct}

inductive Moves (setup : CaptchaLoginSetup) (s : CaptchaLogin) : CaptchaWorld → Prop where
  | same : Moves setup s s.world
  | tick (d : Nat) : Moves setup s { s.world with now := s.world.now + d }
  | solve {x : SolveStep} {w : CaptchaWorld} (hx : ∀ url, x = .start url → url = setup.captchaLink)
      (h : (captcha setup.env).step s.world (.solve 0 x) = some w) : Moves setup s w
  | callback {c : HttpConnId} {k : CallbackId} {x : CallbackStep} {w : CaptchaWorld}
      (hc : s.conns c = some (.handling k))
      (h : (captcha setup.env).step s.world (.callback k x) = some w) : Moves setup s w

theorem moves (h : s.step setup a = some t) : Moves setup s t.world := by
  cases turn h with
  | tick d => exact .tick d
  | bound _ hs => exact .solve (fun _ he => by cases he; rfl) hs
  | solve _ hx hs =>
    refine .solve (fun url he => ?_) hs
    rw [he] at hx
    cases hx
  | dropSolving _ hs => exact .solve (fun _ he => by cases he) hs
  | handle hc hs | hangUpHandled hc hs => exact .callback hc hs
  | unbound _ _ | solved _ _ | joined _ _ | dropBinding _ | dropStopping _ | accept _ | ended _ _
  | routed _ _ | handed _ _ | reply _ _ _ | hangUp _ => exact .same

/-- The solver has this one call of `solve`, whose challenge id is the first that is drawn. -/
structure SolverInv (setup : CaptchaLoginSetup) (s : CaptchaLogin) : Prop where
  reachable : (captcha setup.env).ReachableBy FreshIds s.world
  alone : ∀ n, n ≠ 0 → s.world.solves n = .idle
  undrawn : (s.world.solves 0 = .idle ∨ ∃ url, s.world.solves 0 = .cleaning url) →
    ∀ id, s.world.drawn id = false
  url : ∀ url, s.world.solves 0 = .cleaning url → url = setup.captchaLink
  told : ∀ c, (s.world.solves 0).challenge = some c → c.solverUrl = setup.solverUrl ∧
    c.request.captchaUrl = setup.captchaLink ∧
    c.request.callbackUrl = setup.env.config.callbackUrl

theorem undrawn_solve {x : SolveStep} {w v : CaptchaWorld}
    (hs : (captcha setup.env).step w (.solve 0 x) = some v)
    (hu : (w.solves 0 = .idle ∨ ∃ url, w.solves 0 = .cleaning url) → ∀ id, w.drawn id = false)
    (hv : v.solves 0 = .idle ∨ ∃ url, v.solves 0 = .cleaning url) : ∀ id, v.drawn id = false := by
  have self : ∀ p, Function.update w.solves 0 p 0 = p := fun p => Function.update_self ..
  have absurd_of : ∀ p : SolveAt, v.solves 0 = p → p ≠ .idle → (∀ url, p ≠ .cleaning url) →
      ∀ id, v.drawn id = false := by
    intro p hp h₁ h₂
    rcases hv with hv | ⟨url, hv⟩
    · exact absurd (hp.symm.trans hv) h₁
    · exact absurd (hp.symm.trans hv) (h₂ url)
  cases CaptchaWorld.solveStep_turn hs with
  | start hat => exact hu (.inl hat)
  | disabled _ _ | draw _ _ _ _ _ | insert _ | succeeded _ _ | failed _ _ | requestTimeout _ _
  | take _ _ | empty _ _ _ | closed _ _ _ | elapsed _ _ | sleep _ _ | remove _ | drop _ =>
    exact absurd_of _ (self _) (fun he => by cases he) fun _ he => by cases he

theorem SolverInv.step (hi : SolverInv setup s) (h : s.step setup a = some t) :
    SolverInv setup t := by
  have hm := moves h
  generalize hw : t.world = v at hm
  suffices hs : SolverInv setup { s with world := v } by
    subst hw
    exact ⟨hs.reachable, hs.alone, hs.undrawn, hs.url, hs.told⟩
  cases hm with
  | same => exact hi
  | tick d =>
    exact ⟨hi.reachable.tail (a := .tick d) (fun _ _ he => by cases he) rfl, hi.alone, hi.undrawn,
      hi.url, hi.told⟩
  | solve hx hs =>
    refine ⟨hi.reachable.tail ?_ hs, fun n hn => ?_, undrawn_solve hs hi.undrawn,
      fun url hat => hx url (CaptchaWorld.cleaning_of_solve hs hat), fun c hc => ?_⟩
    · rintro n uuid he
      cases he
      cases CaptchaWorld.solveStep_turn hs with
      | disabled hat _ | draw hat _ _ _ _ => exact hi.undrawn (.inr ⟨_, hat⟩) uuid
    · exact ((CaptchaWorld.solve_frame hs).2 n hn).trans (hi.alone n hn)
    · rcases CaptchaWorld.challenge_of_solve hs hc with hc | ⟨url, hat, hsolver, hlink, hback⟩
      · exact hi.told c hc
      · exact ⟨(Option.some.inj hsolver).symm, hlink.trans (hi.url url hat), hback⟩
  | callback _ hs =>
    obtain ⟨hsame, hdrawn, -⟩ := CaptchaWorld.callback_frame hs
    refine ⟨hi.reachable.tail (fun _ _ he => by cases he) hs, ?_, ?_, ?_, ?_⟩
    · rw [hsame]
      exact hi.alone
    · rw [hsame, hdrawn]
      exact hi.undrawn
    · rw [hsame]
      exact hi.url
    · rw [hsame]
      exact hi.told

theorem solverInv_of_reachable (h : (automaton setup).Reachable s) : SolverInv setup s := by
  refine h.invariant (fun s hs => ?_) fun _ _ _ hs hi => hi.step hs
  cases hs
  refine ⟨.init rfl, fun _ _ => rfl, fun _ _ => rfl, fun _ he => ?_, fun _ he => ?_⟩
  · cases he
  · cases he

/-- The login as a run of its solver. -/
theorem captcha_of_reachable (h : (automaton setup).Reachable s) : s.world.Inv :=
  CaptchaWorld.inv_of_reachable (solverInv_of_reachable h).reachable

def FlowInv (setup : CaptchaLoginSetup) (s : CaptchaLogin) : Prop :=
  match s.flow with
  | .binding => s.world.solves 0 = .idle ∧ s.serve = .absent
  | .solving => s.serve ≠ .absent
  | .stopping r => s.serve ≠ .absent ∧ s.shutdown = true ∧
      ∃ c taken, s.world.solves 0 = .returned c taken r
  | .returned r =>
    (s.serve = .absent ∧ ∃ kind, setup.bound = .error kind ∧ r = .error (.io kind) ∧
      s.world.solves 0 = .idle) ∨
    (∃ x, s.serve = .ended x) ∧ ∃ c taken, s.world.solves 0 = .returned c taken r
  | .dropped => (s.serve = .absent ∧ s.world.solves 0 = .idle) ∨
      s.abort = true ∧ s.serve ≠ .absent ∧ (s.world.solves 0).receiving = false

theorem FlowInv.frame (hi : FlowInv setup s) (hf : t.flow = s.flow)
    (hw : t.world.solves = s.world.solves) (hs : t.shutdown = s.shutdown)
    (ha : t.abort = s.abort) (habs : s.serve = .absent → t.serve = .absent)
    (hnot : s.serve ≠ .absent → t.serve ≠ .absent)
    (hend : ∀ x, s.serve = .ended x → t.serve = .ended x) : FlowInv setup t := by
  unfold FlowInv at hi ⊢
  rw [hf, hw, hs, ha]
  cases hp : s.flow with
  | binding =>
    rw [hp] at hi
    exact ⟨hi.1, habs hi.2⟩
  | solving =>
    rw [hp] at hi
    exact hnot hi
  | stopping r =>
    rw [hp] at hi
    exact ⟨hnot hi.1, hi.2⟩
  | returned r =>
    rw [hp] at hi
    exact hi.imp (fun h => ⟨habs h.1, h.2⟩) fun ⟨⟨x, hx⟩, h⟩ => ⟨⟨x, hend x hx⟩, h⟩
  | dropped =>
    rw [hp] at hi
    exact hi.imp (fun h => ⟨habs h.1, h.2⟩) fun h => ⟨h.1, hnot h.2.1, h.2.2⟩

theorem FlowInv.front (hi : FlowInv setup s) (hf : t.flow = s.flow)
    (hw : t.world.solves = s.world.solves) (hs : t.shutdown = s.shutdown)
    (ha : t.abort = s.abort) (hserve : t.serve = s.serve) : FlowInv setup t :=
  hi.frame hf hw hs ha (fun h => hserve.trans h) (fun h => hserve ▸ h) fun _ h => hserve.trans h

theorem FlowInv.step (hi : FlowInv setup s) (h : s.step setup a = some t) : FlowInv setup t := by
  cases turn h with
  | tick d => exact hi.front rfl rfl rfl rfl rfl
  | unbound hf hb =>
    simp only [FlowInv, hf] at hi
    exact .inl ⟨hi.2, _, hb, rfl, hi.1⟩
  | bound _ _ => exact ServeAt.noConfusion
  | solve hf _ _ =>
    simp only [FlowInv, hf] at hi ⊢
    exact hi
  | solved hf hat =>
    simp only [FlowInv, hf] at hi
    exact ⟨hi, rfl, _, _, hat⟩
  | joined hf hserve =>
    simp only [FlowInv, hf] at hi
    exact .inr ⟨⟨_, hserve⟩, hi.2.2⟩
  | dropBinding hf =>
    simp only [FlowInv, hf] at hi
    exact .inl ⟨hi.2, hi.1⟩
  | dropSolving hf hs =>
    simp only [FlowInv, hf] at hi
    refine .inr ⟨rfl, hi, ?_⟩
    cases CaptchaWorld.solveStep_turn hs
    exact congrArg SolveAt.receiving (CaptchaWorld.setSolve_self _)
  | dropStopping hf =>
    simp only [FlowInv, hf] at hi
    obtain ⟨c, taken, hat⟩ := hi.2.2
    exact .inr ⟨rfl, hi.1, by rw [hat]; rfl⟩
  | ended x hserve =>
    refine hi.frame rfl rfl rfl rfl (fun h => ?_) (fun _ => ServeAt.noConfusion) fun x h => ?_
    · cases hserve.symm.trans h
    · cases hserve.symm.trans h
  | handle _ hs | hangUpHandled _ hs =>
    exact hi.front rfl (CaptchaWorld.callback_frame hs).1 rfl rfl rfl
  | accept _ | routed _ _ | handed _ _ | reply _ _ _ | hangUp _ =>
    exact hi.front rfl rfl rfl rfl rfl

theorem flowInv_of_reachable (h : (automaton setup).Reachable s) : FlowInv setup s := by
  refine h.invariant (fun s hs => ?_) fun _ _ _ hs hi => hi.step hs
  cases hs
  exact ⟨rfl, rfl⟩

inductive Front (setup : CaptchaLoginSetup) (s t : CaptchaLogin) : Prop where
  | same (hc : t.conns = s.conns) (hh : t.handled = s.handled) (he : t.exchanges = s.exchanges)
  | conn {c : HttpConnId} {at_ : HttpConnAt} (hat : ∀ k, at_ ≠ .handling k)
      (hc : t.conns = Function.update s.conns c (some at_)) (hh : t.handled = s.handled)
      (he : t.exchanges = s.exchanges)
  | routed {q : HttpRequest} {r : HttpResponse} (hr : routeRequest q = some r)
      (hc : t.conns = s.conns) (hh : t.handled = s.handled)
      (he : t.exchanges = s.exchanges ++ [⟨q, none, r⟩]) (hw : t.world = s.world)
  | handed {c : HttpConnId} {q : HttpRequest} (hr : routeRequest q = none)
      (hc : t.conns = Function.update s.conns c (some (.handling s.handled.length)))
      (hh : t.handled = s.handled ++ [q]) (he : t.exchanges = s.exchanges)
      (hw : t.world = s.world)
  | replied {c : HttpConnId} {k : CallbackId} {q : HttpRequest} {status : Nat} {body : Value}
      (hat : s.conns c = some (.handling k)) (hq : s.handled[k]? = some q)
      (hr : (s.world.callbacks k).response setup.display = some (status, body))
      (hc : t.conns = Function.update s.conns c (some .idle)) (hh : t.handled = s.handled)
      (he : t.exchanges = s.exchanges ++ [⟨q, some k, jsonResponse status body⟩])
      (hw : t.world = s.world)

theorem front (h : s.step setup a = some t) : Front setup s t := by
  cases turn h with
  | accept _ | hangUp _ | hangUpHandled _ _ =>
    exact .conn (fun _ => HttpConnAt.noConfusion) rfl rfl rfl
  | routed _ hr => exact .routed hr rfl rfl rfl rfl
  | handed _ hr => exact .handed hr rfl rfl rfl rfl
  | reply hc hq hr => exact .replied hc hq hr rfl rfl rfl rfl
  | tick _ | unbound _ _ | bound _ _ | solve _ _ _ | solved _ _ | joined _ _ | dropBinding _
  | dropSolving _ _ | dropStopping _ | ended _ _ | handle _ _ => exact .same rfl rfl rfl

def Answers (setup : CaptchaLoginSetup) (s : CaptchaLogin) (e : Exchange) : Prop :=
  match e.handler with
  | none => routeRequest e.request = some e.response
  | some k => s.handled[k]? = some e.request ∧ ∃ status body,
      (s.world.callbacks k).response setup.display = some (status, body) ∧
        e.response = jsonResponse status body

structure HttpInv (setup : CaptchaLoginSetup) (s : CaptchaLogin) : Prop where
  unstarted : ∀ k, s.handled.length ≤ k → s.world.callbacks k = .idle
  handling : ∀ c k, s.conns c = some (.handling k) →
    k < s.handled.length ∧ ∀ e ∈ s.exchanges, e.handler ≠ some k
  distinct : ∀ c d k, s.conns c = some (.handling k) → s.conns d = some (.handling k) → c = d
  routed : ∀ q ∈ s.handled, routeRequest q = none
  answered : ∀ e ∈ s.exchanges, Answers setup s e
  once : (s.exchanges.filterMap Exchange.handler).Nodup
  blamed : ∀ k, (s.world.callbacks k).Blamed

theorem callbacks_step (h : s.step setup a = some t) (k : CallbackId) :
    t.world.callbacks k = s.world.callbacks k ∨
      (∃ c, s.conns c = some (.handling k)) ∧
        (s.world.callbacks k).response setup.display = none ∧ (t.world.callbacks k).Blamed := by
  have hm := moves h
  generalize t.world = v at hm
  cases hm with
  | same | tick d => exact .inl rfl
  | solve _ hs => exact .inl (by rw [(CaptchaWorld.solve_frame hs).1])
  | @callback c j x _ hc hs =>
    by_cases hk : k = j
    · subst hk
      exact .inr ⟨⟨c, hc⟩, CaptchaWorld.response_of_callback _ hs,
        CaptchaWorld.blamed_of_callback hs⟩
    · exact .inl ((CaptchaWorld.callback_frame hs).2.2 k hk)

theorem Answers.step {e : Exchange} (he : Answers setup s e) (h : s.step setup a = some t)
    (hh : ∃ more, t.handled = s.handled ++ more) : Answers setup t e := by
  unfold Answers at he ⊢
  split
  · rename_i hn
    simpa only [hn] using he
  · rename_i k hk
    simp only [hk] at he
    obtain ⟨hq, status, body, hr, hresp⟩ := he
    obtain ⟨more, hmore⟩ := hh
    refine ⟨?_, status, body, ?_, hresp⟩
    · rw [hmore]
      exact List.getElem?_append_left (List.getElem?_eq_some_iff.mp hq).1 ▸ hq
    · rcases callbacks_step h k with hsame | ⟨-, hnone, -⟩
      · rw [hsame]
        exact hr
      · cases hnone.symm.trans hr

theorem Front.handled (h : Front setup s t) : ∃ more, t.handled = s.handled ++ more := by
  cases h with
  | same _ hh _ | conn _ _ hh _ | routed _ _ hh _ _ | replied _ _ _ _ hh _ _ =>
    exact ⟨[], by rw [hh, List.append_nil]⟩
  | handed _ _ hh _ _ => exact ⟨_, hh⟩

theorem Front.handling (h : Front setup s t) {c : HttpConnId} {k : CallbackId}
    (hc : t.conns c = some (.handling k)) :
    s.conns c = some (.handling k) ∨
      (k = s.handled.length ∧ k < t.handled.length ∧ t.exchanges = s.exchanges ∧
        ∀ d, d ≠ c → t.conns d = s.conns d) := by
  have moved : ∀ {d : HttpConnId} {at_ : HttpConnAt}, (∀ k, at_ ≠ .handling k) →
      Function.update s.conns d (some at_) c = some (.handling k) →
      s.conns c = some (.handling k) := by
    intro d at_ hat hu
    by_cases hcd : c = d
    · subst hcd
      cases (Function.update_self ..).symm.trans hu
      exact absurd rfl (hat k)
    · exact (Function.update_of_ne hcd ..).symm.trans hu
  cases h with
  | same hconns _ _ | routed _ hconns _ _ _ => exact .inl (hconns ▸ hc)
  | conn hat hconns _ _ => exact .inl (moved hat (hconns ▸ hc))
  | replied _ _ _ hconns _ _ _ => exact .inl (moved (fun _ => HttpConnAt.noConfusion) (hconns ▸ hc))
  | @handed d q _ hconns hh he _ =>
    have hlt : s.handled.length < t.handled.length := by
      rw [hh, List.length_append]
      exact Nat.lt_succ_self _
    rw [hconns] at hc
    by_cases hcd : c = d
    · subst hcd
      cases (Function.update_self ..).symm.trans hc
      exact .inr ⟨rfl, hlt, he, fun e hne => by rw [hconns, Function.update_of_ne hne]⟩
    · exact .inl ((Function.update_of_ne hcd ..).symm.trans hc)

theorem Front.exchanges (h : Front setup s t) :
    t.exchanges = s.exchanges ∨ ∃ e, t.exchanges = s.exchanges ++ [e] ∧ Answers setup t e ∧
      ∀ k, e.handler = some k → ∃ c, s.conns c = some (.handling k) ∧
        t.conns c ≠ some (.handling k) := by
  cases h with
  | same _ _ he | conn _ _ _ he | handed _ _ _ he _ => exact .inl he
  | routed hr _ _ he _ =>
    exact .inr ⟨_, he, hr, fun k hk => by cases hk⟩
  | @replied c k q status body hat hq hr hc hh he hw =>
    refine .inr ⟨_, he, ⟨hh ▸ hq, status, body, hw ▸ hr, rfl⟩, fun j hj => ?_⟩
    cases hj
    exact ⟨c, hat, by rw [hc, Function.update_self]; exact fun h => by cases h⟩

theorem HttpInv.step (hi : HttpInv setup s) (h : s.step setup a = some t) : HttpInv setup t := by
  have hf := front h
  have hmore := hf.handled
  have hlen : s.handled.length ≤ t.handled.length := by
    obtain ⟨more, hh⟩ := hmore
    rw [hh, List.length_append]
    exact Nat.le_add_right _ _
  have hdistinct : ∀ c d k, t.conns c = some (.handling k) → t.conns d = some (.handling k) →
      c = d := by
    intro c d k hc hd
    rcases hf.handling hc with hc' | ⟨rfl, -, -, hother⟩
    · rcases hf.handling hd with hd' | ⟨rfl, -, -, hother⟩
      · exact hi.distinct c d k hc' hd'
      · exact absurd (hi.handling c _ hc').1 (Nat.lt_irrefl _)
    · by_contra hne
      have hd' : s.conns d = some (.handling s.handled.length) :=
        (hother d (Ne.symm hne)).symm.trans hd
      exact absurd (hi.handling d _ hd').1 (Nat.lt_irrefl _)
  have hfresh : ∀ e ∈ s.exchanges, e.handler ≠ some s.handled.length := by
    intro e he hk
    have hans := hi.answered e he
    simp only [Answers, hk] at hans
    exact absurd (List.getElem?_eq_some_iff.mp hans.1).1 (Nat.lt_irrefl _)
  refine ⟨fun k hk => ?_, fun c k hc => ?_, hdistinct, fun q hq => ?_, fun e he => ?_, ?_,
    fun k => ?_⟩
  · rcases callbacks_step h k with hsame | ⟨⟨c, hc⟩, -, -⟩
    · rw [hsame]
      exact hi.unstarted k (Nat.le_trans hlen hk)
    · exact absurd (hi.handling c k hc).1 (Nat.not_lt.mpr (Nat.le_trans hlen hk))
  · rcases hf.handling hc with hc' | ⟨rfl, hlt, he, -⟩
    · obtain ⟨hlt, hno⟩ := hi.handling c k hc'
      refine ⟨Nat.lt_of_lt_of_le hlt hlen, fun e he => ?_⟩
      rcases hf.exchanges with hsame | ⟨e', hnew, -, hfrom⟩
      · exact hno e (hsame ▸ he)
      · rw [hnew, List.mem_append, List.mem_singleton] at he
        rcases he with he | rfl
        · exact hno e he
        · intro hk
          obtain ⟨d, hd, hnot⟩ := hfrom k hk
          exact hnot (hi.distinct c d k hc' hd ▸ hc)
    · exact ⟨hlt, he ▸ hfresh⟩
  · rcases hf with ⟨_, hh, _⟩ | ⟨_, _, hh, _⟩ | ⟨_, _, hh, _, _⟩ | ⟨hr, _, hh, _, _⟩ |
      ⟨_, _, _, _, hh, _, _⟩
    · exact hi.routed q (hh ▸ hq)
    · exact hi.routed q (hh ▸ hq)
    · exact hi.routed q (hh ▸ hq)
    · rw [hh, List.mem_append, List.mem_singleton] at hq
      rcases hq with hq | rfl
      · exact hi.routed q hq
      · exact hr
    · exact hi.routed q (hh ▸ hq)
  · rcases hf.exchanges with hsame | ⟨e', hnew, hans, -⟩
    · exact (hi.answered e (hsame ▸ he)).step h hmore
    · rw [hnew, List.mem_append, List.mem_singleton] at he
      rcases he with he | rfl
      · exact (hi.answered e he).step h hmore
      · exact hans
  · rcases hf.exchanges with hsame | ⟨e', hnew, -, hfrom⟩
    · rw [hsame]
      exact hi.once
    · rw [hnew, List.filterMap_append]
      cases hk : e'.handler with
      | none => simpa [hk] using hi.once
      | some k =>
        obtain ⟨c, hc, -⟩ := hfrom k hk
        have hno : ∀ e ∈ s.exchanges, e.handler ≠ some k := (hi.handling c k hc).2
        have hone : [e'].filterMap Exchange.handler = [k] := by simp [hk]
        rw [hone, List.nodup_append]
        refine ⟨hi.once, List.pairwise_singleton _ k, fun j hj j' hj' => ?_⟩
        rintro rfl
        obtain ⟨e, he, hek⟩ := List.mem_filterMap.mp hj
        exact hno e he (List.mem_singleton.mp hj' ▸ hek)
  · rcases callbacks_step h k with hsame | ⟨-, -, hb⟩
    · rw [hsame]
      exact hi.blamed k
    · exact hb

theorem httpInv_of_reachable (h : (automaton setup).Reachable s) : HttpInv setup s := by
  refine h.invariant (fun s hs => ?_) fun _ _ _ hs hi => hi.step hs
  cases hs
  refine ⟨fun _ _ => rfl, fun _ _ hc => ?_, fun _ _ _ hc => ?_, fun _ hq => ?_, fun _ he => ?_,
    List.nodup_nil, fun _ _ _ he => ?_⟩
  · cases hc
  · cases hc
  · cases hq
  · cases he
  · cases he

/-- Only one callback of the login is ever accepted: that of its one challenge. -/
theorem accepted_once (h : (automaton setup).Reachable s) {k k' : CallbackId}
    {cb cb' : CaptchaCallback} (hk : s.world.callbacks k = .accepted cb)
    (hk' : s.world.callbacks k' = .accepted cb') : k = k' := by
  have hi := captcha_of_reachable h
  have hs := solverInv_of_reachable h
  have sent : ∀ {j cb}, s.world.callbacks j = .accepted cb → s.world.sent 0 = some cb := by
    intro j cb hj
    obtain ⟨n, hn⟩ := hi.accepted hj
    obtain ⟨⟨c, hc, -⟩, -⟩ := hi.sent hn
    by_cases hzero : n = 0
    · rwa [hzero] at hn
    · rw [hs.alone n hzero] at hc
      cases hc
  cases (sent hk).symm.trans (sent hk')
  exact hi.once hk hk' rfl

theorem accepted_of_ok (h : (automaton setup).Reachable s) {e : Exchange} (he : e ∈ s.exchanges)
    (h200 : e.response.status = 200) :
    ∃ k cb, e.handler = some k ∧ s.world.callbacks k = .accepted cb := by
  have hi := httpInv_of_reachable h
  have hans := hi.answered e he
  unfold Answers at hans
  split at hans
  · rw [routeRequest] at hans
    split at hans
    · split at hans
      · cases hans
      · rw [← Option.some.inj hans] at h200
        cases h200
    · rw [← Option.some.inj hans] at h200
      cases h200
  · rename_i k hk
    obtain ⟨-, status, body, hr, hresp⟩ := hans
    rw [hresp] at h200
    cases (h200 : status = 200)
    obtain ⟨-, cb, hcb⟩ := CallbackAt.response_ok_iff.mp hr
    rcases hi.blamed k cb _ hcb with ⟨c, rfl, -⟩ | ⟨_, hne, -⟩
    · exact ⟨k, c, hk, hcb⟩
    · cases hne

theorem returned_of_flow (h : (automaton setup).Reachable s) {token : String}
    (hf : s.flow = .stopping (.ok token) ∨ s.flow = .returned (.ok token)) :
    ∃ c taken, s.world.solves 0 = .returned c taken (.ok token) := by
  have hi := flowInv_of_reachable h
  rcases hf with hf | hf <;> simp only [FlowInv, hf] at hi
  · exact hi.2.2
  · rcases hi with ⟨-, kind, -, he, -⟩ | ⟨-, hat⟩
    · cases he
    · exact hat

theorem posted {q : HttpRequest} (h : routeRequest q = none) :
    q = ⟨"POST", DEFAULT_CAPTCHA_CALLBACK_PATH⟩ := by
  unfold routeRequest at h
  split at h
  · rename_i hpath
    split at h
    · rename_i hmethod
      cases q
      cases hpath
      cases hmethod
      rfl
    · cases h
  · cases h

theorem outcome_ok {cb : CaptchaCallback} {token : String} (h : cb.outcome = .ok token) :
    cb.status = "ok" ∧ cb.token = some token := by
  unfold CaptchaCallback.outcome at h
  split at h
  · rename_i hstatus
    refine ⟨hstatus, ?_⟩
    cases ht : cb.token with
    | none =>
      rw [ht] at h
      cases h
    | some u =>
      rw [ht] at h
      cases h
      rfl
  · split at h <;> cases h

theorem length_le_one {α β : Type} {f : α → Option β} {b : β} {l : List α}
    (hl : (l.filterMap f).Nodup) (hb : ∀ a ∈ l, f a = some b) : l.length ≤ 1 := by
  match l with
  | [] => exact Nat.zero_le 1
  | [a] => exact Nat.le_refl 1
  | a :: a' :: rest =>
    have ha := hb a (List.mem_cons_self ..)
    have ha' := hb a' (List.mem_cons_of_mem _ (List.mem_cons_self ..))
    simp [ha, ha'] at hl

/-- The request of the challenge to the solver was answered, with a status that is no error. -/
def Enlisted (setup : CaptchaLoginSetup) (s : CaptchaLogin) (c : Challenge) : Prop :=
  ∃ u a v status, (automaton setup).Reachable u ∧
    (u.world.solves 0).posting = some (c.url, c.request.toValue) ∧ u.step setup a = some v ∧
    (captcha setup.env).step u.world (.solve 0 (.respond (.ok status))) = some v.world ∧
    errorForStatus status = .ok status ∧ (automaton setup).Leads v s

theorem Enlisted.tail {c : Challenge} (h : Enlisted setup s c) (hs : s.step setup a = some t) :
    Enlisted setup t c := by
  obtain ⟨u, b, v, status, hu, hpost, hb, hresp, hok, hv⟩ := h
  exact ⟨u, b, v, status, hu, hpost, hb, hresp, hok, .tail hv trivial hs⟩

theorem errorForStatus_ok {result : Except HttpError Nat} {status : Nat}
    (h : result.bind errorForStatus = .ok status) :
    result = .ok status ∧ errorForStatus status = .ok status := by
  cases result with
  | error e => cases h
  | ok n =>
    have hn : errorForStatus n = .ok status := h
    have heq : n = status := by
      unfold errorForStatus at hn
      split at hn <;> cases hn
      rfl
    exact ⟨by rw [heq], heq ▸ hn⟩

/-- Past the response, and with a callback if it has returned. -/
def enlistedAt : SolveAt → Option Challenge
  | .waiting c _ | .polled c _ | .returned (some c) (some _) _ => some c
  | _ => none

theorem enlisted_step (hr : (automaton setup).Reachable s) (h : s.step setup a = some t)
    (hi : ∀ c, enlistedAt (s.world.solves 0) = some c → Enlisted setup s c) :
    ∀ c, enlistedAt (t.world.solves 0) = some c → Enlisted setup t c := by
  have old : ∀ {c : Challenge}, enlistedAt (s.world.solves 0) = some c → Enlisted setup t c :=
    fun hc => (hi _ hc).tail h
  have hm := moves h
  generalize hw : t.world = v at hm
  intro c hc
  cases hm with
  | same | tick d => exact old hc
  | callback _ hs =>
    rw [(CaptchaWorld.callback_frame hs).1] at hc
    exact old hc
  | solve hx hs =>
    have self : ∀ p, Function.update s.world.solves 0 p 0 = v.solves 0 → enlistedAt p = some c := by
      intro p hp
      rwa [← hp, Function.update_self] at hc
    cases CaptchaWorld.solveStep_turn hs with
    | @succeeded result d deadline status hat hok =>
      have hd : some d = some c := self _ rfl
      cases hd
      obtain ⟨rfl, hstatus⟩ := errorForStatus_ok hok
      exact ⟨s, a, t, status, hr, by rw [hat]; rfl, h, by rw [hw]; exact hs, hstatus, .refl⟩
    | take hat _ | empty hat _ _ | sleep hat _ =>
      have hd := self _ rfl
      exact old (by rw [hat]; exact hd)
    | start _ | disabled _ _ | draw _ _ _ _ _ | insert _ | failed _ _ | requestTimeout _ _
    | closed _ _ _ | elapsed _ _ | remove _ | drop _ => cases self _ rfl

theorem enlisted_of_reachable (h : (automaton setup).Reachable s) :
    ∀ c, enlistedAt (s.world.solves 0) = some c → Enlisted setup s c := by
  refine h.invariant_of
    (I := fun s => ∀ c, enlistedAt (s.world.solves 0) = some c → Enlisted setup s c)
    (fun s hs => ?_) fun s a t hr hs hi => enlisted_step hr hs hi
  cases hs
  exact fun c hc => by cases hc

/-- A captcha token was posted to the callback route, for the challenge of this login, by the one
request that was ever answered with 200, and the solver had taken the challenge before. -/
theorem captcha_token (h : (automaton setup).Reachable s) :
    (s.exchanges.filter fun e => e.response.status == 200).length ≤ 1 ∧
    ∀ token, s.flow = .stopping (.ok token) ∨ s.flow = .returned (.ok token) →
      ∃ k cb c, s.handled[k]? = some ⟨"POST", DEFAULT_CAPTCHA_CALLBACK_PATH⟩ ∧
        s.world.callbacks k = .accepted cb ∧ cb.status = "ok" ∧ cb.token = some token ∧
        (s.world.solves 0).challenge = some c ∧ cb.challengeId = c.id ∧
        c.request.callbackUrl = setup.env.config.callbackUrl ∧ Enlisted setup s c ∧
        ∀ e ∈ s.exchanges, e.response.status = 200 → e.handler = some k := by
  have hi := captcha_of_reachable h
  have hh := httpInv_of_reachable h
  refine ⟨?_, fun token hf => ?_⟩
  · by_cases hany : ∃ e ∈ s.exchanges, e.response.status = 200
    · obtain ⟨e, he, h200⟩ := hany
      obtain ⟨k, cb, -, hk⟩ := accepted_of_ok h he h200
      refine length_le_one (f := Exchange.handler) (b := k)
        (hh.once.sublist (List.filter_sublist.filterMap _)) fun e' he' => ?_
      obtain ⟨hmem, h200'⟩ := List.mem_filter.mp he'
      obtain ⟨k', cb', hk', hacc⟩ := accepted_of_ok h hmem (beq_iff_eq.mp h200')
      rw [hk', accepted_once h hacc hk]
    · have hnone : s.exchanges.filter (fun e => e.response.status == 200) = [] :=
        List.filter_eq_nil_iff.mpr fun e he h200 => hany ⟨e, he, beq_iff_eq.mp h200⟩
      rw [hnone]
      exact Nat.zero_le 1
  · obtain ⟨c, taken, hat⟩ := returned_of_flow h hf
    cases taken with
    | none =>
      obtain ⟨e, he⟩ := hi.failed hat
      cases he
    | some cb =>
      obtain ⟨⟨d, rfl, hid⟩, hsent, hout⟩ := hi.taken hat
      obtain ⟨-, -, -, k, hk⟩ := hi.sent hsent
      obtain ⟨hstatus, htoken⟩ := outcome_ok hout.symm
      have hlt : k < s.handled.length := by
        by_contra hge
        cases (hh.unstarted k (Nat.not_lt.mp hge)).symm.trans hk
      refine ⟨k, cb, d, ?_, hk, hstatus, htoken, by rw [hat]; rfl, hid.symm, ?_,
        enlisted_of_reachable h d (by rw [hat]; rfl), fun e he h200 => ?_⟩
      · rw [List.getElem?_eq_getElem hlt]
        exact congrArg some (posted (hh.routed _ (List.getElem_mem hlt)))
      · exact ((solverInv_of_reachable h).told d (by rw [hat]; rfl)).2.2
      · obtain ⟨k', cb', hk', hacc⟩ := accepted_of_ok h he h200
        rw [hk', accepted_once h hacc hk]

/-- A solver that posts what it was told to calls back before the response to `/solve`. -/
def promptLogin : CaptchaLoginSetup where
  captcha :=
    { solverUrl := some "http://127.0.0.1:3000", callbackBind := "0.0.0.0:0",
      callbackUrlBase := none }
  solverUrl := "http://127.0.0.1:3000"
  captchaLink := "https://id.vk.ru/captcha"
  bound := .ok (.v4 #v[0, 0, 0, 0] 3002)
  decode := fun bytes => if bytes = [1] then
    .ok { challengeId := "c1", status := "ok", token := some "T", error := none }
    else .error "expected value"
  display := fun _ => "error"

def promptLoginRun : List CaptchaLoginAct :=
  [.bind, .solve (.cleanup "c1"), .solve .insert, .accept (.ok ()), .accept (.ok ()),
    .request 1 ⟨"GET", "/captcha-callback"⟩, .request 0 ⟨"POST", "/captcha-callback"⟩,
    .handle 0 (.start (.ok [1])), .handle 0 .cleanup, .handle 0 .remove, .handle 0 .send,
    .reply 0, .solve (.respond (.ok 200)), .solve .pollReceiver, .solved, .stop, .joined]

theorem captcha_token_prompt : ∃ s, (automaton promptLogin).Reachable s ∧
    s.flow = .returned (.ok "T") ∧ s.exchanges.map (·.response.status) = [405, 200] ∧
    ∀ e ∈ s.exchanges, e.response.status = 200 → e.handler = some 0 := by
  have hr : (automaton promptLogin).Reachable
      (((automaton promptLogin).exec new promptLoginRun).get rfl) := Automaton.reachable_get rfl
  obtain ⟨k, cb, c, hk, -, -, -, -, -, -, -, hall⟩ := (captcha_token hr).2 "T" (.inr rfl)
  have hlt : k < 1 := (List.getElem?_eq_some_iff.mp hk).1
  refine ⟨_, hr, rfl, rfl, fun e he h200 => ?_⟩
  rw [hall e he h200, Nat.lt_one_iff.mp hlt]

theorem status_of_callback {display : Error → String} {at_ : CallbackAt} {status : Nat}
    {body : Value} (hb : at_.Blamed) (h : at_.response display = some (status, body)) :
    status = 200 ∨ status = 400 ∨ status = 413 := by
  cases at_ with
  | refused =>
    cases h
    exact .inr (.inr rfl)
  | returned cb r =>
    rcases hb cb r rfl with ⟨c, rfl, rfl⟩ | ⟨e, rfl, h400⟩
    · cases h
      exact .inl rfl
    · have he : CallbackAt.errorResponse display e = (status, body) := Option.some.inj h
      exact .inr (.inl (by rw [← h400 display, he]))
  | _ => cases h

/-- Every request is answered in JSON with the one status of its kind, a callback never with 500;
nothing but a post to the callback route gets to the solver, and the URL that the solver was told
is that route. -/
theorem callback_answers (h : (automaton setup).Reachable s) :
    (∀ e ∈ s.exchanges,
      e.response.headers.head? = some ("content-type", "application/json") ∧
      (e.request.path ≠ DEFAULT_CAPTCHA_CALLBACK_PATH → e.response.status = 404) ∧
      (e.request.path = DEFAULT_CAPTCHA_CALLBACK_PATH → e.request.method ≠ "POST" →
        e.response.status = 405 ∧ ("allow", "POST") ∈ e.response.headers) ∧
      (e.request = ⟨"POST", DEFAULT_CAPTCHA_CALLBACK_PATH⟩ →
        e.response.status = 200 ∨ e.response.status = 400 ∨ e.response.status = 413)) ∧
    (s.exchanges.filterMap Exchange.handler).Nodup ∧
    (∀ a t k, s.step setup a = some t → t.world.callbacks k ≠ s.world.callbacks k →
      s.handled[k]? = some ⟨"POST", DEFAULT_CAPTCHA_CALLBACK_PATH⟩ ∧
        ∀ e ∈ s.exchanges, e.handler ≠ some k) ∧
    (∀ addr url, setup.bound = .ok addr → setup.captcha.callbackUrlBase = none →
      setup.env.config.callbackUrl = some url → routeRequest ⟨"POST", urlPath url⟩ = none) := by
  have hi := httpInv_of_reachable h
  refine ⟨fun e he => ?_, hi.once, fun a t k hs hne => ?_, fun addr url hb hbase hurl => ?_⟩
  · have hans := hi.answered e he
    unfold Answers at hans
    split at hans
    · rw [routeRequest] at hans
      split at hans
      · rename_i hpath
        split at hans
        · cases hans
        · rename_i hmethod
          rw [← Option.some.inj hans]
          exact ⟨rfl, fun hp => absurd hpath hp, fun _ _ => ⟨rfl, by decide⟩,
            fun hq => absurd (by rw [hq]) hmethod⟩
      · rename_i hpath
        rw [← Option.some.inj hans]
        exact ⟨rfl, fun _ => rfl, fun hp => absurd hp hpath, fun hq => absurd (by rw [hq]) hpath⟩
    · obtain ⟨hq, status, body, hr, hresp⟩ := hans
      have hpost := posted (hi.routed _ (List.mem_of_getElem? hq))
      rw [hresp]
      refine ⟨rfl, fun hp => absurd (by rw [hpost]) hp, fun _ hm => absurd (by rw [hpost]) hm,
        fun _ => status_of_callback (hi.blamed _) hr⟩
  · rcases callbacks_step hs k with hsame | ⟨⟨c, hc⟩, -, -⟩
    · exact absurd hsame hne
    · obtain ⟨hlt, hno⟩ := hi.handling c k hc
      refine ⟨?_, hno⟩
      rw [List.getElem?_eq_getElem hlt]
      exact congrArg some (posted (hi.routed _ (List.getElem_mem hlt)))
  · have htold : setup.captcha.callbackUrl addr = url := by
      simpa [CaptchaLoginSetup.env, hb, Except.toOption] using hurl
    rw [← htold, AuthCaptchaConfig.callbackUrl_path addr hbase]
    rfl

/-- The solver posts to the URL it was told, after somebody has looked at it with a browser. -/
theorem callback_answers_prompt : ∃ s, (automaton promptLogin).Reachable s ∧
    s.exchanges.map (·.response.status) = [405, 200] ∧
    (∀ e ∈ s.exchanges, e.request.method ≠ "POST" →
      e.request.path = DEFAULT_CAPTCHA_CALLBACK_PATH →
        ("allow", "POST") ∈ e.response.headers) ∧
    routeRequest ⟨"POST", urlPath "http://127.0.0.1:3002/captcha-callback"⟩ = none := by
  have hr : (automaton promptLogin).Reachable
      (((automaton promptLogin).exec new promptLoginRun).get rfl) := Automaton.reachable_get rfl
  obtain ⟨hall, -, -, hurl⟩ := callback_answers hr
  exact ⟨_, hr, rfl, fun e he hm hp => ((hall e he).2.2.1 hp hm).2, hurl _ _ rfl rfl rfl⟩

end CaptchaLogin

end Maxrs
