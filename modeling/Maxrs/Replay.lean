import Maxrs.ClientInv
import Maxrs.Correlation
import Maxrs.SendSpec
import Maxrs.Wire
set_option autoImplicit false

/-! The retry loops of `send_text` and `send_file_bytes` over all their connections. -/
namespace Maxrs

namespace Shared

def call (sh : Shared) (c : ConnId) (k : CallId) : Option Call :=
  (sh.sessions c).generation.transport.calls k

def invokePc (sh : Shared) (c : ConnId) (k : CallId) : Option InvokePc :=
  (sh.sessions c).generation.invokes k

def log (sh : Shared) (c : ConnId) : List TransportEvent :=
  (sh.sessions c).generation.transport.log

end Shared

structure BodyInv (sh : Shared) (snd : Send) (b : SendBody) : Prop where
  after : Script.After (snd.job.body snd.cid) b.trace b.rest
  used : b.connection ∈ snd.used
  waiting : ∀ k, b.waiting = some k → (b.connection, k) ∈ snd.requests ∧
    ∃ opcode payload next c, b.rest = .call (.invoke opcode payload) next ∧
      sh.call b.connection k = some c ∧ c.opcode = opcode ∧ c.payload = payload
  asked : ∀ opcode payload r, Asked b.trace (.invoke opcode payload) r →
    ∃ k c, (b.connection, k) ∈ snd.requests ∧ sh.call b.connection k = some c ∧
      c.opcode = opcode ∧ c.payload = payload ∧ sh.invokePc b.connection k = some (.returned r)
  mine : ∀ k c, (b.connection, k) ∈ snd.requests → sh.call b.connection k = some c →
    b.waiting = some k ∨ ∃ payload r, Asked b.trace (.invoke c.opcode payload) r
  upload : ∀ url headers body e, Asked b.trace (.upload url headers body) (.error e) →
    e = .connectionClosed ∧ sh.isCancelled b.connection = true
  processed : ∀ w e, Asked b.trace (.processed w) (.error e) →
    e = .connectionClosed ∧ sh.isCancelled b.connection = true

def SendOutcome (sh : Shared) (snd : Send) : Except Error Unit → Prop
  | .ok () => ∃ c k d p, (c, k) ∈ snd.requests ∧ sh.call c k = some d ∧
      d.opcode = Opcode.MSG_SEND ∧ sh.invokePc c k = some (.returned (.ok p))
  | .error e =>
    (isTransportFailure e = true → e = .connectionClosed ∧ sh.recovery.state = .stopped) ∧
    (isServerError e = true → ∃ c k d, (c, k) ∈ snd.requests ∧ sh.call c k = some d ∧
      sh.invokePc c k = some (.returned (.error e)))

def SendPc.isOver : SendPc → Bool
  | .returned _ | .dropped => true
  | _ => false

structure SendInv (sh : Shared) (snd : Send) : Prop where
  nodup : snd.used.Nodup
  known : ∀ c, c ∈ snd.used → c < sh.created
  early : (snd.pc = .clock ∨ ∃ now, snd.pc = .cid now) → snd.used = [] ∧ snd.requests = []
  requests : ∀ c k, (c, k) ∈ snd.requests → c ∈ snd.used ∧
    ∃ d, sh.call c k = some d ∧ Genuine snd.cid snd.job d.opcode d.payload
  distinct : ∀ c k k' d d', (c, k) ∈ snd.requests → (c, k') ∈ snd.requests →
    sh.call c k = some d → sh.call c k' = some d' → d.opcode = d'.opcode → k = k'
  stale : ∀ c, c ∈ snd.used → sh.isCancelled c = true ∨
    (∃ b, snd.pc = .body b ∧ b.connection = c) ∨ snd.pc.isOver = true
  body : ∀ b, snd.pc = .body b → BodyInv sh snd b
  checking : ∀ seen, snd.pc = .current (.checking .stopped seen) → sh.recovery.state = .stopped
  returned : ∀ r, snd.pc = .returned r → SendOutcome sh snd r

variable {setup : Setup} {sh sh' : Shared} {snd snd' : Send} {b : SendBody} {w w' : Client}

theorem call_mono {c : ConnId} {k : CallId} {d : Call} (hg : sh.Grows sh') (hc : c < sh.created)
    (h : sh.call c k = some d) :
    ∃ d', sh'.call c k = some d' ∧ d'.opcode = d.opcode ∧ d'.payload = d.payload := by
  obtain ⟨d', hd', ho, hp, -⟩ := (hg.generation c hc).transport.calls k d h
  exact ⟨d', hd', ho, hp⟩

theorem isCancelled_mono {c : ConnId} (hg : sh.Grows sh') (hc : c < sh.created)
    (h : sh.isCancelled c = true) : sh'.isCancelled c = true :=
  (hg.generation c hc).cancelled h

theorem call_back {c : ConnId} {k : CallId} {d d' : Call} (hg : sh.Grows sh') (hc : c < sh.created)
    (h : sh.call c k = some d) (h' : sh'.call c k = some d') :
    d'.opcode = d.opcode ∧ d'.payload = d.payload := by
  obtain ⟨e, he, ho, hp⟩ := call_mono hg hc h
  cases h'.symm.trans he
  exact ⟨ho, hp⟩

theorem BodyInv.mono (hi : BodyInv sh snd b) (hg : sh.Grows sh') (hb : b.connection < sh.created)
    (hreq : ∀ c k, (c, k) ∈ snd.requests → ∃ d, sh.call c k = some d) : BodyInv sh' snd b where
  after := hi.after
  used := hi.used
  waiting := fun k hk => by
    obtain ⟨hm, o, p, next, c, hr, hc, ho, hp⟩ := hi.waiting k hk
    obtain ⟨c', hc', ho', hp'⟩ := call_mono hg hb hc
    exact ⟨hm, o, p, next, c', hr, hc', ho'.trans ho, hp'.trans hp⟩
  asked := fun o p r h => by
    obtain ⟨k, c, hm, hc, ho, hp, hret⟩ := hi.asked o p r h
    obtain ⟨c', hc', ho', hp'⟩ := call_mono hg hb hc
    exact ⟨k, c', hm, hc', ho'.trans ho, hp'.trans hp, (hg.generation _ hb).returned k r hret⟩
  mine := fun k c' hm hc' => by
    obtain ⟨c, hc⟩ := hreq _ k hm
    rw [(call_back hg hb hc hc').1]
    exact hi.mine k c hm hc
  upload := fun u h y e ha => ⟨(hi.upload u h y e ha).1,
    isCancelled_mono hg hb (hi.upload u h y e ha).2⟩
  processed := fun w e ha => ⟨(hi.processed w e ha).1,
    isCancelled_mono hg hb (hi.processed w e ha).2⟩

theorem SendOutcome.mono {r : Except Error Unit} (h : SendOutcome sh snd r) (hg : sh.Grows sh')
    (hreq : ∀ c k, (c, k) ∈ snd.requests → c < sh.created) : SendOutcome sh' snd r := by
  cases r with
  | ok r =>
    obtain ⟨c, k, d, p, hm, hd, ho, hret⟩ := h
    obtain ⟨d', hd', ho', -⟩ := call_mono hg (hreq c k hm) hd
    exact ⟨c, k, d', p, hm, hd', ho'.trans ho, (hg.generation c (hreq c k hm)).returned k _ hret⟩
  | error e =>
    refine ⟨fun ht => ⟨(h.1 ht).1, hg.stopped (h.1 ht).2⟩, fun hs => ?_⟩
    obtain ⟨c, k, d, hm, hd, hret⟩ := h.2 hs
    obtain ⟨d', hd', -⟩ := call_mono hg (hreq c k hm) hd
    exact ⟨c, k, d', hm, hd', (hg.generation c (hreq c k hm)).returned k _ hret⟩

theorem SendInv.mono (hi : SendInv sh snd) (hg : sh.Grows sh') : SendInv sh' snd where
  nodup := hi.nodup
  known := fun c hc => Nat.lt_of_lt_of_le (hi.known c hc) hg.created
  early := hi.early
  requests := fun c k hm => by
    obtain ⟨hu, d, hd, hgen⟩ := hi.requests c k hm
    obtain ⟨d', hd', ho, hp⟩ := call_mono hg (hi.known c hu) hd
    exact ⟨hu, d', hd', by rw [ho, hp]; exact hgen⟩
  distinct := fun c k k' e e' hm hm' he he' heq => by
    obtain ⟨hu, d, hd, -⟩ := hi.requests c k hm
    obtain ⟨-, d', hd', -⟩ := hi.requests c k' hm'
    rw [(call_back hg (hi.known c hu) hd he).1, (call_back hg (hi.known c hu) hd' he').1] at heq
    exact hi.distinct c k k' d d' hm hm' hd hd' heq
  stale := fun c hc => (hi.stale c hc).imp (isCancelled_mono hg (hi.known c hc)) id
  body := fun b hb => (hi.body b hb).mono hg (hi.known _ (hi.body b hb).used) fun c k hm => by
    obtain ⟨-, d, hd, -⟩ := hi.requests c k hm
    exact ⟨d, hd⟩
  checking := fun seen h => hg.stopped (hi.checking seen h)
  returned := fun r h => (hi.returned r h).mono hg fun c k hm =>
    hi.known c (hi.requests c k hm).1

theorem cancelled_of_failed {c : ConnId} {k : CallId} {d : Call} {e : Error}
    (hs : SharedInv setup sh) (hc : c < sh.created) (hd : sh.call c k = some d)
    (hr : sh.invokePc c k = some (.returned (.error e))) (he : isTransportFailure e = true) :
    sh.isCancelled c = true := by
  have hgen := (Session.inv_of_reachable (hs.sessions c hc)).generation
  exact (hgen.invokes k _ d hr hd).failure _ rfl he

theorem SendInv.goto (hi : SendInv sh snd) {pc : SendPc}
    (hearly : (pc = .clock ∨ ∃ now, pc = .cid now) → snd.used = [] ∧ snd.requests = [])
    (hstale : ∀ c, c ∈ snd.used → sh.isCancelled c = true ∨ pc.isOver = true)
    (hbody : ∀ b, pc ≠ .body b)
    (hchk : ∀ seen, pc = .current (.checking .stopped seen) → sh.recovery.state = .stopped)
    (hret : ∀ r, pc = .returned r → SendOutcome sh snd r) : SendInv sh (snd.goto pc) :=
  ⟨hi.nodup, hi.known, hearly, hi.requests, hi.distinct,
    fun c hc => (hstale c hc).imp id .inr, fun b hb => absurd hb (hbody b), hchk, hret⟩

/-- Between two iterations every connection used so far is cancelled. -/
theorem SendInv.between (hi : SendInv sh snd) (hb : ∀ b, snd.pc ≠ .body b)
    (ho : snd.pc.isOver = false) {c : ConnId} (hc : c ∈ snd.used) : sh.isCancelled c = true := by
  rcases hi.stale c hc with h | ⟨b, h, -⟩ | h
  · exact h
  · exact absurd h (hb b)
  · rw [ho] at h
    cases h

theorem sendInv_handed {c : ConnId} {seen : Nat} (hi : SendInv sh snd) (hc : c < sh.created)
    (hp : snd.pc = .current (.checking (.ready c) seen)) (hn : sh.isCancelled c = false) :
    SendInv sh { snd with
      pc := .body
        { connection := c, rest := snd.job.body snd.cid, waiting := none, waiter := none,
          polling := false, trace := [] }
      used := snd.used ++ [c] } := by
  have hold : ∀ {d}, d ∈ snd.used → sh.isCancelled d = true := fun hd =>
    hi.between (by simp [hp]) (by simp [hp, SendPc.isOver]) hd
  have hnew : c ∉ snd.used := fun hm => by
    have := hold hm
    rw [hn] at this
    cases this
  have hmem : ∀ {d}, d ∈ snd.used → d ∈ snd.used ++ [c] := fun hd => List.mem_append_left _ hd
  refine ⟨?_, fun d hd => ?_, nofun, fun d k hm => ?_, hi.distinct, fun d hd => ?_,
    fun b hb => ?_, nofun, nofun⟩
  · exact List.nodup_append.mpr ⟨hi.nodup, by simp, fun d hd e he => by
      rw [List.mem_singleton] at he
      exact fun heq => hnew (he ▸ heq ▸ hd)⟩
  · rcases List.mem_append.mp hd with hd | hd
    · exact hi.known d hd
    · exact List.mem_singleton.mp hd ▸ hc
  · obtain ⟨hu, h⟩ := hi.requests d k hm
    exact ⟨hmem hu, h⟩
  · rcases List.mem_append.mp hd with hd | hd
    · exact .inl (hold hd)
    · exact .inr (.inl ⟨_, rfl, (List.mem_singleton.mp hd).symm⟩)
  · cases hb
    exact ⟨.start, by simp, nofun, fun _ _ _ h => absurd h asked_nil,
      fun k _ hm => absurd (hi.requests c k hm).1 hnew, fun _ _ _ _ h => absurd h asked_nil,
      fun _ _ h => absurd h asked_nil⟩

theorem sendInv_issue {opcode : Nat} {payload : Value}
    {next : Except Error Packet → SendScript (Except Error Unit)} {s : Session}
    (hi : SendInv sh snd) (hs : SharedInv setup sh) (hb : snd.pc = .body b)
    (hr : b.rest = .call (.invoke opcode payload) next) (hw : b.waiting = none)
    (hact : (sh.sessions b.connection).act setup.fromStr (.invoke opcode payload) = some s)
    (hg : sh.Grows (sh.setSession b.connection s)) :
    SendInv (sh.setSession b.connection s) { snd with
      pc := .body { b with
        waiting := some (sh.sessions b.connection).generation.transport.started }
      requests := snd.requests ++
        [(b.connection, (sh.sessions b.connection).generation.transport.started)] } := by
  have hi' := hi.mono hg
  have hbi := hi.body b hb
  have hbi' := hi'.body b hb
  have hcr := hi.known _ hbi.used
  have hpre : SendPre snd.job snd.cid b.trace (.invoke opcode payload) :=
    (always_body snd.job snd.cid).head (hr ▸ hbi.after)
  generalize hk : (sh.sessions b.connection).generation.transport.started = k at *
  obtain ⟨e, he, heo, hep⟩ : ∃ e, (sh.setSession b.connection s).call b.connection k = some e ∧
      e.opcode = opcode ∧ e.payload = payload := by
    obtain ⟨g, hg', rfl⟩ := Session.act_eq hact
    obtain ⟨hcalls, -⟩ := Generation.invoke_calls hg'
    refine ⟨{ opcode := opcode, payload := payload, pc := .order, turn := none, inbox := none },
      ?_, rfl, rfl⟩
    rw [Shared.call, setSession_self]
    show g.transport.calls k = _
    rw [hcalls, hk, Function.update_self]
  have hold : ∀ j, (b.connection, j) ∈ snd.requests → j ≠ k := by
    rintro j hm rfl
    obtain ⟨-, d, hd, -⟩ := hi.requests _ _ hm
    have hgen := (Session.inv_of_reachable (hs.sessions _ hcr)).generation
    have hlt := (Transport.transportInv_of_reachable hgen.transport).started j d hd
    exact absurd hlt (by rw [hk]; exact Nat.lt_irrefl _)
  -- an earlier request of this iteration had another opcode
  have apart : ∀ j d, (b.connection, j) ∈ snd.requests →
      (sh.setSession b.connection s).call b.connection j = some d → d.opcode ≠ opcode := by
    rintro j d hm hd rfl
    rcases hbi'.mine j d hm hd with h | ⟨p, r, h⟩
    · rw [hw] at h
      cases h
    · exact hpre.2 p r h
  refine ⟨hi'.nodup, hi'.known, nofun, fun c j hm => ?_, fun c j j' d d' hm hm' hd hd' heq => ?_,
    fun c hc => ?_, fun b₁ hb₁ => ?_, nofun, nofun⟩
  · rcases List.mem_append.mp hm with hm | hm
    · exact hi'.requests c j hm
    · rw [List.mem_singleton] at hm
      cases hm
      exact ⟨hbi.used, e, he, by rw [heo, hep]; exact hpre.1⟩
  · rcases List.mem_append.mp hm with hm | hm <;> rcases List.mem_append.mp hm' with hm' | hm'
    · exact hi'.distinct c j j' d d' hm hm' hd hd' heq
    · rw [List.mem_singleton] at hm'
      cases hm'
      cases hd'.symm.trans he
      exact absurd (heq.trans heo) (apart j d hm hd)
    · rw [List.mem_singleton] at hm
      cases hm
      cases hd.symm.trans he
      exact absurd (heq.symm.trans heo) (apart j' d' hm' hd')
    · rw [List.mem_singleton] at hm hm'
      cases hm
      cases hm'
      rfl
  · rcases hi'.stale c hc with h | ⟨b₂, h, hcon⟩ | h
    · exact .inl h
    · cases hb.symm.trans h
      exact .inr (.inl ⟨_, rfl, hcon⟩)
    · rw [hb] at h
      cases h
  · cases hb₁
    refine ⟨hbi'.after, hbi'.used, fun j hj => ?_, fun o p r ha => ?_, fun j d hm hd => ?_,
      hbi'.upload, hbi'.processed⟩
    · cases hj
      exact ⟨by simp, opcode, payload, next, e, hr, he, heo, hep⟩
    · obtain ⟨j, d, hm, h⟩ := hbi'.asked o p r ha
      exact ⟨j, d, List.mem_append_left _ hm, h⟩
    · rcases List.mem_append.mp hm with hm | hm
      · rcases hbi'.mine j d hm hd with h | h
        · rw [hw] at h
          cases h
        · exact .inr h
      · rw [List.mem_singleton] at hm
        cases hm
        exact .inl rfl

theorem sendInv_answer {b' : SendBody} {op : SendOp} {r : op.Ret}
    {next : op.Ret → SendScript (Except Error Unit)} (hi : SendInv sh snd)
    (hb : snd.pc = .body b) (hr : b.rest = .call op next) (ha : SendAnswer sh b op r)
    (hc : b'.connection = b.connection) (ht : b'.trace = b.trace) (hg : sh.Grows sh') :
    SendInv sh' (snd.answer b' op r next) := by
  have hi' := hi.mono hg
  have hbi := hi.body b hb
  have hbi' := hi'.body b hb
  have hcr := hi.known _ hbi.used
  refine ⟨hi'.nodup, hi'.known, nofun, hi'.requests, hi'.distinct, fun c hcu => ?_,
    fun b₁ hb₁ => ?_, nofun, nofun⟩
  · rcases hi'.stale c hcu with h | ⟨b₂, h, hcon⟩ | h
    · exact .inl h
    · cases hb.symm.trans h
      exact .inr (.inl ⟨_, rfl, hc.trans hcon⟩)
    · rw [hb] at h
      cases h
  · cases hb₁
    have hsnoc : ∀ {op' : SendOp} {r' : op'.Ret}, Asked (b'.trace ++ [⟨op, r⟩]) op' r' →
        Asked b.trace op' r' ∨ (⟨op', r'⟩ : (op : SendOp) × op.Ret) = ⟨op, r⟩ := by
      intro op' r' h
      rw [ht] at h
      exact asked_snoc.mp h
    refine ⟨?_, hc ▸ hbi'.used, nofun, fun o p q h => ?_, fun k d hm hd => ?_,
      fun u y z e h => ?_, fun v e h => ?_⟩
    · have hafter := hbi.after
      rw [hr] at hafter
      show Script.After _ (b'.trace ++ [⟨op, r⟩]) (next r)
      rw [ht]
      exact .answer r hafter
    · show ∃ k c, (b'.connection, k) ∈ snd.requests ∧ _
      rw [hc]
      rcases hsnoc h with h | h
      · exact hbi'.asked o p q h
      · cases h
        obtain ⟨k, hk, hret⟩ := ha
        obtain ⟨hm, o', p', next', c, hrest, hcall, ho, hp⟩ := hbi'.waiting k hk
        cases hr.symm.trans hrest
        exact ⟨k, c, hm, hcall, ho, hp, (hg.generation _ hcr).returned k _ hret⟩
    · replace hm : (b'.connection, k) ∈ snd.requests := hm
      replace hd : sh'.call b'.connection k = some d := hd
      show _ ∨ ∃ p q, Asked (b'.trace ++ [⟨op, r⟩]) (.invoke d.opcode p) q
      rw [hc] at hm hd
      rw [ht]
      rcases hbi'.mine k d hm hd with h | ⟨p, q, h⟩
      · obtain ⟨-, o', p', next', c, hrest, hcall, ho, hp⟩ := hbi'.waiting k h
        cases hd.symm.trans hcall
        cases hr.symm.trans hrest
        exact .inr ⟨p', r, asked_snoc.mpr (.inr (by rw [ho]))⟩
      · exact .inr ⟨p, q, h.mono⟩
    · show e = _ ∧ sh'.isCancelled b'.connection = true
      rw [hc]
      rcases hsnoc h with h | h
      · exact hbi'.upload u y z e h
      · cases h
        exact ⟨ha.1, isCancelled_mono hg hcr ha.2⟩
    · show e = _ ∧ sh'.isCancelled b'.connection = true
      rw [hc]
      rcases hsnoc h with h | h
      · exact hbi'.processed v e h
      · cases h
        exact ⟨ha.1, isCancelled_mono hg hcr ha.2⟩

theorem body_result {r : Except Error Unit} (hi : SendInv sh snd) (hs : SharedInv setup sh)
    (hb : snd.pc = .body b) (hr : b.rest = .done r) :
    match r with
    | .ok () => SendOutcome sh snd (.ok ())
    | .error e => (isTransportFailure e = true → sh.isCancelled b.connection = true) ∧
        (isTransportFailure e = false → SendOutcome sh snd (.error e)) := by
  have hbi := hi.body b hb
  have hcr := hi.known _ hbi.used
  have hpost : SendPost b.trace r := (always_body snd.job snd.cid).result (hr ▸ hbi.after)
  cases r with
  | ok r =>
    obtain ⟨payload, p, h⟩ := hpost
    obtain ⟨k, c, hm, hc, ho, -, hret⟩ := hbi.asked _ _ _ h
    exact ⟨b.connection, k, c, p, hm, hc, ho, hret⟩
  | error e =>
    rcases hpost with ⟨o, p, h⟩ | ⟨u, y, z, h⟩ | ⟨v, h⟩ | ⟨ht, hse⟩
    · obtain ⟨k, c, hm, hc, -, -, hret⟩ := hbi.asked _ _ _ h
      refine ⟨cancelled_of_failed hs hcr hc hret, fun hn => ⟨fun ht => ?_, fun _ => ?_⟩⟩
      · rw [hn] at ht
        cases ht
      · exact ⟨b.connection, k, c, hm, hc, hret⟩
    · obtain ⟨rfl, hcan⟩ := hbi.upload _ _ _ _ h
      exact ⟨fun _ => hcan, nofun⟩
    · obtain ⟨rfl, hcan⟩ := hbi.processed _ _ h
      exact ⟨fun _ => hcan, nofun⟩
    · refine ⟨fun h => ?_, fun _ => ⟨fun h => ?_, fun h => ?_⟩⟩
      · rw [ht] at h
        cases h
      · rw [ht] at h
        cases h
      · rw [hse] at h
        cases h

theorem sendInv_step (h : SendStep setup sh snd sh' snd') (hs : SharedInv setup sh)
    (hg : sh.Grows sh') (hhands : ∀ c seen, snd.pc = .current (.checking (.ready c) seen) →
      c < sh.created) (hi : SendInv sh snd) : SendInv sh' snd' := by
  cases h with
  | clock now hp he =>
    subst he
    have hnil := hi.early (.inl hp)
    exact hi.goto (fun _ => hnil) (fun c hc => by simp [hnil.1] at hc) nofun nofun nofun
  | takeCid now cid hp he =>
    subst he
    obtain ⟨hu, hq⟩ := hi.early (.inr ⟨now, hp⟩)
    have hn : ∀ {c}, c ∉ snd.used := by simp [hu]
    have hr : ∀ {c k}, (c, k) ∉ snd.requests := by simp [hq]
    exact ⟨hi.nodup, hi.known, nofun, fun c k hm => absurd hm hr,
      fun c k k' d d' hm => absurd hm hr, fun c hc => absurd hc hn, nofun, nofun, nofun⟩
  | borrow hp he =>
    subst he
    refine hi.goto nofun
      (fun c hc => .inl (hi.between (by simp [hp]) (by simp [hp, SendPc.isOver]) hc))
      nofun (fun seen h => ?_) nofun
    simp only [SendPc.current.injEq, Current.checking.injEq] at h
    exact h.1
  | handed c seen hp hcan he =>
    subst he
    exact sendInv_handed hi (hhands c seen hp) hp hcan
  | stopped seen hp he =>
    subst he
    refine hi.goto nofun (fun c hc => .inr rfl) nofun nofun fun r hr => ?_
    cases hr
    exact ⟨fun _ => ⟨rfl, hi.checking seen hp⟩, nofun⟩
  | wait state seen hp hne he =>
    subst he
    exact hi.goto nofun
      (fun c hc => .inl (hi.between (by simp [hp]) (by simp [hp, SendPc.isOver]) hc))
      nofun nofun nofun
  | woken seen hp he =>
    subst he
    exact hi.goto nofun
      (fun c hc => .inl (hi.between (by simp [hp]) (by simp [hp, SendPc.isOver]) hc))
      nofun nofun nofun
  | issue b opcode payload next s hp hr hw hact he =>
    subst he
    exact sendInv_issue hi hs hp hr hw hact hg
  | act b hp ht => exact hi.mono hg
  | answer b b' op r next hp hr ha hc ht htouch => exact sendInv_answer hi hp hr ha hc ht hg
  | turn b polling hp he =>
    subst he
    have hbi := hi.body b hp
    refine ⟨hi.nodup, hi.known, nofun, hi.requests, hi.distinct, fun c hc => ?_,
      fun b₁ hb₁ => ?_, nofun, nofun⟩
    · rcases hi.stale c hc with h | ⟨b₂, h, hcon⟩ | h
      · exact .inl h
      · cases hp.symm.trans h
        exact .inr (.inl ⟨_, rfl, hcon⟩)
      · rw [hp] at h
        cases h
    · cases hb₁
      exact ⟨hbi.after, hbi.used, hbi.waiting, hbi.asked, hbi.mine, hbi.upload, hbi.processed⟩
  | done b hp hr he =>
    subst he
    refine hi.goto nofun (fun c hc => .inr rfl) nofun nofun fun r h => ?_
    cases h
    exact body_result hi hs hp hr
  | retry b e hp hr ht he =>
    subst he
    refine hi.goto nofun (fun c hc => .inl ?_) nofun nofun nofun
    rcases hi.stale c hc with h | ⟨b₂, h, hcon⟩ | h
    · exact h
    · cases hp.symm.trans h
      exact hcon ▸ (body_result hi hs hp hr).1 ht
    · rw [hp] at h
      cases h
  | fail b e hp hr ht he =>
    subst he
    refine hi.goto nofun (fun c hc => .inr rfl) nofun nofun fun r h => ?_
    cases h
    exact (body_result hi hs hp hr).2 ht
  | drop ht => exact (hi.mono hg).goto nofun (fun c hc => .inr rfl) nofun nofun nofun

theorem sendInv_of_reachable (h : (Client.automaton setup).Reachable w) :
    ∀ i snd, w.sends i = some snd → SendInv w.shared snd := by
  refine h.invariant_of (I := fun w => ∀ i snd, w.sends i = some snd → SendInv w.shared snd)
    (fun w hw => ?_) fun w a w' hr hs hi => ?_
  · obtain ⟨millis, rfl⟩ := hw
    intro i snd hs
    simp [Client.new] at hs
  · have hinv := clientInv_of_reachable hr
    have hstep := client_step hs
    have hg := client_grows hstep hinv
    intro i snd hsnd
    cases hstep with
    | startSend j job hj =>
      rcases update_some hsnd with ⟨rfl, rfl⟩ | ⟨_, hsnd⟩
      · exact ⟨by simp [Send.new], by simp [Send.new], fun _ => ⟨rfl, rfl⟩, by simp [Send.new],
          by simp [Send.new], by simp [Send.new], (by intros; contradiction),
          (by intros; contradiction), (by intros; contradiction)⟩
      · exact hi i snd hsnd
    | send j old new sh hj hst =>
      rcases update_some hsnd with ⟨rfl, rfl⟩ | ⟨_, hsnd⟩
      · exact sendInv_step hst hinv.shared hg
          (fun c seen hp => (hinv.handles.checking i old c seen hj hp).1) (hi i old hj)
      · exact (hi i snd hsnd).mono hg
    | startRun _ _ | run _ _ _ _ _ _ | startDisconnect _ _ | disconnect _ _ _ _ _ _
    | worker _ _ _ _ _ => exact (hi i snd hsnd).mono hg

theorem answered_of_invoke {c : ConnId} {k : CallId} {d : Call} {r : Except Error Packet}
    (hs : SharedInv setup sh) (hc : c < sh.created) (hd : sh.call c k = some d)
    (hr : sh.invokePc c k = some (.returned r)) (hf : Transport.byFrame r = true) :
    ∃ n p s, .wrote k (d.request s) ∈ sh.log c ∧ .answered k n p ∈ sh.log c ∧ p.seq = s ∧
      p.isRequest = false ∧ r = respond d.opcode p := by
  have hgen := (Session.inv_of_reachable (hs.sessions c hc)).generation
  have hpc : d.pc = .returned r := by
    rcases (hgen.invokes k _ d hr hd).returned _ rfl with h | ⟨-, rfl⟩
    · exact h
    · cases hf
  obtain ⟨n, p, s, -, -, hw, ha, hps, hq, hres⟩ :=
    Transport.returned_byFrame (Transport.transportInv_of_reachable hgen.transport) hd hpc hf
  exact ⟨n, p, s, hw, ha, hps, hq, hres⟩

theorem genuine_of_wrote {c : ConnId} {k : CallId} {q : Packet} (hs : SharedInv setup sh)
    (hi : SendInv sh snd) (hm : (c, k) ∈ snd.requests) (hq : .wrote k q ∈ sh.log c) :
    Genuine snd.cid snd.job q.opcode q.payload ∧
      ∃ d, sh.call c k = some d ∧ d.opcode = q.opcode := by
  obtain ⟨hu, d, hd, hgen⟩ := hi.requests c k hm
  have hinv := (Session.inv_of_reachable (hs.sessions c (hi.known c hu))).generation
  obtain ⟨d', s, hd', -, rfl, -⟩ := Transport.wroteInv_of_reachable hinv.transport k q hq
  cases hd.symm.trans hd'
  exact ⟨hgen, d, hd, rfl⟩

def SendPc.isOk : SendPc → Bool
  | .returned (.ok ()) => true
  | _ => false

theorem SendPc.eq_of_isOk {pc : SendPc} (h : pc.isOk = true) : pc = .returned (.ok ()) := by
  unfold isOk at h
  split at h
  · rfl
  · cases h

namespace Client

/-- Replay: a connection sees each frame of a call once, the frames of a call say the same, and
its result comes from a frame or from the shutdown. -/
theorem replay_semantics (h : (automaton setup).Reachable w) {i : SendId}
    (hsnd : w.sends i = some snd) :
    snd.used.Nodup ∧
    (∀ c k, (c, k) ∈ snd.requests → c ∈ snd.used) ∧
    (∀ c before k q middle k' q' after,
      w.shared.log c = before ++ .wrote k q :: (middle ++ .wrote k' q' :: after) →
      (c, k) ∈ snd.requests → (c, k') ∈ snd.requests → q.opcode ≠ q'.opcode) ∧
    (∀ c k q, (c, k) ∈ snd.requests → .wrote k q ∈ w.shared.log c →
      Genuine snd.cid snd.job q.opcode q.payload) ∧
    (snd.pc = .returned (.ok ()) → ∃ c k n s payload p, (c, k) ∈ snd.requests ∧
      .wrote k (Packet.request s Opcode.MSG_SEND payload) ∈ w.shared.log c ∧
      .answered k n p ∈ w.shared.log c ∧ p.seq = s ∧ p.cmd ≠ CMD_REQUEST ∧ p.cmd ≠ CMD_ERROR) ∧
    (∀ opcode message, snd.pc = .returned (.error (.server opcode message)) →
      ∃ c k n s payload p, (c, k) ∈ snd.requests ∧
        .wrote k (Packet.request s opcode payload) ∈ w.shared.log c ∧
        .answered k n p ∈ w.shared.log c ∧ p.seq = s ∧ p.cmd = CMD_ERROR ∧
        message = errorMessage p.payload) ∧
    (∀ e, snd.pc = .returned (.error e) → isTransportFailure e = true →
      e = .connectionClosed ∧ w.shared.recovery.state = .stopped) := by
  have hs := (clientInv_of_reachable h).shared
  have hi := sendInv_of_reachable h i snd hsnd
  refine ⟨hi.nodup, fun c k hm => (hi.requests c k hm).1,
    fun c before k q middle k' q' after hlog hm hm' heq => ?_,
    fun c k q hm hq => (genuine_of_wrote hs hi hm hq).1, fun hp => ?_, fun opcode message hp => ?_,
    fun e hp ht => (hi.returned _ hp).1 ht⟩
  · have hinv := (Session.inv_of_reachable (hs.sessions c (hi.known c (hi.requests c k hm).1)))
    have hw : .wrote k q ∈ w.shared.log c := by rw [hlog]; simp
    have hw' : .wrote k' q' ∈ w.shared.log c := by rw [hlog]; simp
    obtain ⟨-, d, hd, ho⟩ := genuine_of_wrote hs hi hm hw
    obtain ⟨-, d', hd', ho'⟩ := genuine_of_wrote hs hi hm' hw'
    exact Transport.wrote_ne hinv.generation.transport hlog
      (hi.distinct c k k' d d' hm hm' hd hd' (ho.trans (heq.trans ho'.symm)))
  · obtain ⟨c, k, d, p, hm, hd, ho, hret⟩ := hi.returned _ hp
    obtain ⟨n, p', s, hw, ha, hps, hq, hres⟩ :=
      answered_of_invoke hs (hi.known c (hi.requests c k hm).1) hd hret rfl
    have hcmd : p'.cmd ≠ CMD_ERROR := fun he => by
      rw [Transport.respond_error d.opcode he] at hres
      cases hres
    refine ⟨c, k, n, s, d.payload, p', hm, ?_, ha, hps, by simpa [Packet.isRequest] using hq, hcmd⟩
    rw [← ho]
    exact hw
  · obtain ⟨c, k, d, hm, hd, hret⟩ := (hi.returned _ hp).2 rfl
    obtain ⟨n, p, s, hw, ha, hps, -, hres⟩ :=
      answered_of_invoke hs (hi.known c (hi.requests c k hm).1) hd hret rfl
    by_cases hcmd : p.cmd = CMD_ERROR
    · rw [Transport.respond_error d.opcode hcmd] at hres
      cases hres
      exact ⟨c, k, n, s, d.payload, p, hm, hw, ha, hps, hcmd, rfl⟩
    · rw [Transport.respond_ok d.opcode hcmd] at hres
      cases hres

/-- A message whose connection is lost before the acknowledgement, and its replay on the next. -/
def sampleReplay : List ClientAction :=
  sampleSend ++ [.run 0 (.loop .dispatchCheck)] ++ sampleReconnect ++ sampleEntry 1 ++
  [.send 0 (.onInvoke .poll), .send 0 .take, .send 0 .finish, .send 0 .borrow, .send 0 .check,
    .send 0 .issue] ++ sampleRequest (fun a => .send 0 (.onInvoke a)) ++
  sampleFrame 1 "sent" ++ sampleAnswer (fun a => .send 0 (.onInvoke a)) ++
  [.send 0 .take, .send 0 .finish]

theorem replay_semantics_text : ∃ (w : Client) (snd : Send), snd.pc = .returned (.ok ()) ∧
    snd.requests = [(0, 2), (1, 2)] ∧ snd.used.Nodup ∧
    (∀ c k q, (c, k) ∈ snd.requests → .wrote k q ∈ w.shared.log c →
      Genuine snd.cid snd.job q.opcode q.payload) ∧
    ∃ c k n s payload p, (c, k) ∈ snd.requests ∧
      .wrote k (Packet.request s Opcode.MSG_SEND payload) ∈ w.shared.log c ∧
      .answered k n p ∈ w.shared.log c ∧ p.seq = s ∧ p.cmd ≠ CMD_REQUEST ∧ p.cmd ≠ CMD_ERROR := by
  have hrun : ((automaton sampleSetup).exec (new sampleSetup 0) sampleReplay).any (fun w =>
      (w.sends 0).any fun snd => snd.pc.isOk && snd.requests == [(0, 2), (1, 2)]) = true := by
    decide +kernel
  obtain ⟨w, hw, hsends⟩ := (Option.any_eq_true _ _).mp hrun
  obtain ⟨snd, hsnd, hok⟩ := (Option.any_eq_true _ _).mp hsends
  rw [Bool.and_eq_true, beq_iff_eq] at hok
  have hr : (automaton sampleSetup).Reachable w := ⟨_, ⟨0, rfl⟩, Automaton.exec_leads hw⟩
  have hpc : snd.pc = .returned (.ok ()) := SendPc.eq_of_isOk hok.1
  obtain ⟨hnodup, -, -, hgenuine, hacked, -⟩ := replay_semantics hr hsnd
  exact ⟨w, snd, hpc, hok.2, hnodup, hgenuine, hacked hpc⟩

end Client

end Maxrs
