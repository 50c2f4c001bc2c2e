import Maxrs.Answer
import Maxrs.Replay
set_option autoImplicit false

/-! A response that has been matched to its invoke, up to the caller of `send_text`. -/
namespace Maxrs

variable {setup : Setup} {sh sh' : Shared} {snd snd' : Send} {w w' : Client} {c : ConnId}
  {k : CallId} {d : Call} {n : Nat} {p : Packet}

/-- One step of this run is a poll of invoke `k` that finds its connection cancelled. -/
def PolledCancelled (setup : Setup) (w w' : Client) (c : ConnId) (k : CallId) : Prop :=
  ∃ v a v', (Client.automaton setup).Leads w v ∧ v.step setup a = some v' ∧
    (Client.automaton setup).Leads v' w' ∧ v.shared.isCancelled c = true ∧
    v.shared.invokePc c k = some .parked ∧
    v'.shared.invokePc c k = some (.returned (.error .connectionClosed))

theorem PolledCancelled.tail {a : ClientAction} {w'' : Client}
    (h : PolledCancelled setup w w' c k) (hs : w'.step setup a = some w'') :
    PolledCancelled setup w w'' c k := by
  obtain ⟨v, b, v', hv, hb, hv', hrest⟩ := h
  exact ⟨v, b, v', hv, hb, .tail hv' trivial hs, hrest⟩

theorem cutOff_change (h : sh.Change setup sh') (hi : SharedInv setup sh) (hc : c < sh.created)
    (hcut : Generation.CutOff (sh'.sessions c).generation k) :
    Generation.CutOff (sh.sessions c).generation k ∨
      (sh.invokePc c k = some .parked ∧ sh.isCancelled c = true) := by
  rcases session_change h hc with he | ⟨b, hb, -⟩
  · exact .inl (he ▸ hcut)
  · rcases (Session.change_step hb).generation with he | ⟨a, ha, -⟩
    · exact .inl (he ▸ hcut)
    · exact Generation.cutOff_step ha
        (Session.inv_of_reachable (hi.sessions c hc)).generation hcut

theorem polledCancelled_of_cutOff (hr : (Client.automaton setup).Reachable w)
    (hp : (Client.automaton setup).Leads w w') (hc : c < w.shared.created)
    (hn : ¬ Generation.CutOff (w.shared.sessions c).generation k)
    (hcut : Generation.CutOff (w'.shared.sessions c).generation k) :
    PolledCancelled setup w w' c k := by
  induction hp with
  | refl => exact absurd hcut hn
  | @tail v v' a hp _ hs ih =>
    have hi := clientInv_of_reachable (hr.path hp)
    have hch := (client_step hs).change hi.handles
    rcases cutOff_change hch hi.shared (session_leads hr hp hc).1 hcut with h | ⟨hpk, hcan⟩
    · exact (ih h).tail hs
    · exact ⟨v, a, v', hp, hs, .refl, hcan, hpk, hcut.1⟩

theorem textBody_cases {m : TextMessage} {cid : Int} {tr : SendTrace}
    {q : SendScript (Except Error Unit)} (h : Script.After (textBody m cid) tr q) :
    (tr = [] ∧ ∃ next, q = .call (.invoke Opcode.MSG_SEND (textMessagePayload m cid)) next ∧
      ∀ r, next r = .done (r.map fun _ => ())) ∨
    ∃ r, tr = [⟨.invoke Opcode.MSG_SEND (textMessagePayload m cid), r⟩] ∧
      q = .done (r.map fun _ => ()) := by
  induction h with
  | start =>
    refine .inl ⟨rfl, _, rfl, fun r => ?_⟩
    cases r <;> rfl
  | answer r ha ih =>
    rcases ih with ⟨rfl, next, hq, hnext⟩ | ⟨r', rfl, hq⟩
    · cases hq
      exact .inr ⟨r, rfl, hnext r⟩
    · cases hq

def Failed (sh : Shared) (c : ConnId) (k : CallId) : Prop :=
  ∃ e, sh.invokePc c k = some (.returned (.error e)) ∧ isTransportFailure e = true

def TextInv (sh : Shared) (snd : Send) : Prop :=
  ∀ c k, (c, k) ∈ snd.requests →
    (∃ b, snd.pc = .body b ∧ b.connection = c) ∨ snd.pc.isOver = true ∨ Failed sh c k

theorem Failed.mono (h : Failed sh c k) (hg : sh.Grows sh') (hc : c < sh.created) :
    Failed sh' c k := by
  obtain ⟨e, he, ht⟩ := h
  exact ⟨e, (hg.generation c hc).returned k _ he, ht⟩

theorem text_asked {b : SendBody} {m : TextMessage} {op : SendOp}
    {next : op.Ret → SendScript (Except Error Unit)} (hi : SendInv sh snd)
    (hj : snd.job = .text m) (hp : snd.pc = .body b) (hr : b.rest = .call op next)
    (hm : (b.connection, k) ∈ snd.requests) : b.waiting = some k := by
  have hbi := hi.body b hp
  obtain ⟨-, d, hd, -⟩ := hi.requests _ k hm
  refine (hbi.mine k d hm hd).resolve_right ?_
  rintro ⟨payload, r, ha⟩
  have hafter := hbi.after
  rw [hj, hr] at hafter
  rcases textBody_cases hafter with ⟨htr, -⟩ | ⟨r', -, hq⟩
  · rw [htr] at ha
    exact asked_nil ha
  · cases hq

theorem text_failed {b : SendBody} {m : TextMessage} {e : Error} (hi : SendInv sh snd)
    (hj : snd.job = .text m) (hp : snd.pc = .body b) (hr : b.rest = .done (.error e))
    (ht : isTransportFailure e = true) (hm : (b.connection, k) ∈ snd.requests) :
    Failed sh b.connection k := by
  have hbi := hi.body b hp
  obtain ⟨-, d, hd, hgen⟩ := hi.requests _ k hm
  have hafter := hbi.after
  rw [hj, hr] at hafter
  rcases textBody_cases hafter with ⟨-, next, hq, -⟩ | ⟨r, htr, hq⟩
  · cases hq
  · cases r with
    | ok q => cases hq
    | error e' =>
      cases hq
      have ha : Asked b.trace (.invoke Opcode.MSG_SEND (textMessagePayload m snd.cid)) (.error e) :=
        by rw [htr]; exact List.mem_singleton.mpr rfl
      obtain ⟨k', d', hm', hd', ho, -, hret⟩ := hbi.asked _ _ _ ha
      rw [hj] at hgen
      cases hi.distinct _ k k' d d' hm hm' hd hd' (hgen.1.trans ho.symm)
      exact ⟨e, hret, ht⟩

theorem SendStep.job (h : SendStep setup sh snd sh' snd') : snd'.job = snd.job := by
  cases h <;> rfl

theorem SendStep.requests (h : SendStep setup sh snd sh' snd') :
    snd'.requests = snd.requests ∨ ∃ b opcode payload next, snd.pc = .body b ∧
      b.rest = .call (.invoke opcode payload) next ∧ b.waiting = none := by
  cases h with
  | issue b opcode payload next s hp hr hw hact he =>
    exact .inr ⟨b, opcode, payload, next, hp, hr, hw⟩
  | _ => exact .inl rfl

theorem textInv_step {m : TextMessage} (h : SendStep setup sh snd sh' snd') (hg : sh.Grows sh')
    (hi : SendInv sh snd) (hj : snd.job = .text m) (ht : TextInv sh snd) :
    TextInv sh' snd' := by
  have failed : ∀ {c k}, (c, k) ∈ snd.requests → Failed sh c k → Failed sh' c k :=
    fun hm hf => hf.mono hg (hi.known _ (hi.requests _ _ hm).1)
  have between : ∀ {out : Send}, (∀ b, snd.pc ≠ .body b) → snd.pc.isOver = false →
      out.requests = snd.requests → TextInv sh' out := by
    intro out hb ho hq c k hm
    rw [hq] at hm
    rcases ht c k hm with ⟨b, hp, -⟩ | hov | hf
    · exact absurd hp (hb b)
    · rw [ho] at hov
      cases hov
    · exact .inr (.inr (failed hm hf))
  -- a step that stays in its iteration
  have stay : ∀ {b b' : SendBody}, snd.pc = .body b → snd'.pc = .body b' →
      b'.connection = b.connection → snd'.requests = snd.requests → TextInv sh' snd' := by
    intro b b' hp hp' hc hq c k hm
    rw [hq] at hm
    rcases ht c k hm with ⟨b₁, hb₁, hcon⟩ | hov | hf
    · cases hp.symm.trans hb₁
      exact .inl ⟨b', hp', hc.trans hcon⟩
    · rw [hp] at hov
      cases hov
    · exact .inr (.inr (failed hm hf))
  cases h with
  | clock now hp he => exact between (by simp [hp]) (by simp [hp, SendPc.isOver]) rfl
  | takeCid now cid hp he => exact between (by simp [hp]) (by simp [hp, SendPc.isOver]) rfl
  | borrow hp he => exact between (by simp [hp]) (by simp [hp, SendPc.isOver]) rfl
  | handed d seen hp hcan he => exact between (by simp [hp]) (by simp [hp, SendPc.isOver]) rfl
  | wait state seen hp hne he => exact between (by simp [hp]) (by simp [hp, SendPc.isOver]) rfl
  | woken seen hp he => exact between (by simp [hp]) (by simp [hp, SendPc.isOver]) rfl
  | stopped seen hp he | done b hp hr he | fail b e hp hr hn he | drop ht =>
    exact fun c k hm => .inr (.inl rfl)
  | issue b opcode payload next s hp hr hw hact he =>
    intro c k hm
    rcases List.mem_append.mp hm with hm | hm
    · rcases ht c k hm with ⟨b₁, hb₁, hcon⟩ | hov | hf
      · cases hp.symm.trans hb₁
        exact .inl ⟨_, rfl, hcon⟩
      · rw [hp] at hov
        cases hov
      · exact .inr (.inr (failed hm hf))
    · rw [List.mem_singleton] at hm
      cases hm
      exact .inl ⟨_, rfl, rfl⟩
  | act b hp htouch => exact stay hp hp rfl rfl
  | answer b b' op r next hp hr ha hc hbt htouch => exact stay hp rfl hc rfl
  | turn b polling hp he => exact stay hp rfl rfl rfl
  | retry b e hp hr hn he =>
    intro c k hm
    rcases ht c k hm with ⟨b₁, hb₁, rfl⟩ | hov | hf
    · cases hp.symm.trans hb₁
      exact .inr (.inr (failed hm (text_failed hi hj hp hr hn hm)))
    · rw [hp] at hov
      cases hov
    · exact .inr (.inr (failed hm hf))

theorem textInv_of_reachable (h : (Client.automaton setup).Reachable w) :
    ∀ i snd m, w.sends i = some snd → snd.job = .text m → TextInv w.shared snd := by
  refine h.invariant_of
    (I := fun w => ∀ i snd m, w.sends i = some snd → snd.job = .text m → TextInv w.shared snd)
    (fun w hw => ?_) fun w a w' hr hs hi => ?_
  · obtain ⟨millis, rfl⟩ := hw
    intro i snd m hs
    simp [Client.new] at hs
  · have hstep := client_step hs
    have hg := client_grows hstep (clientInv_of_reachable hr)
    have hsend := sendInv_of_reachable hr
    have mono : ∀ {i snd m}, w.sends i = some snd → snd.job = .text m → TextInv w'.shared snd := by
      intro i snd m hsnd hj c k hm
      rcases hi i snd m hsnd hj c k hm with h | h | h
      · exact .inl h
      · exact .inr (.inl h)
      · have hs := hsend i snd hsnd
        exact .inr (.inr (h.mono hg (hs.known c (hs.requests c k hm).1)))
    intro i snd m hsnd hj
    cases hstep with
    | startSend j job hj' =>
      rcases update_some hsnd with ⟨rfl, rfl⟩ | ⟨_, hsnd⟩
      · exact fun c k hm => absurd hm List.not_mem_nil
      · exact mono hsnd hj
    | send j old new sh hj' hst =>
      rcases update_some hsnd with ⟨rfl, rfl⟩ | ⟨_, hsnd⟩
      · have hold : old.job = .text m := hst.job.symm.trans hj
        exact textInv_step hst hg (hsend i old hj') hold (hi i old m hj' hold)
      · exact mono hsnd hj
    | startRun _ _ | run _ _ _ _ _ _ | startDisconnect _ _ | disconnect _ _ _ _ _ _
    | worker _ _ _ _ _ => exact mono hsnd hj

/-- A text is sent again only after its last request has failed. -/
theorem text_again {i : SendId} {m : TextMessage} (hr : (Client.automaton setup).Reachable w)
    (hp : (Client.automaton setup).Leads w w') (hsnd : w.sends i = some snd)
    (hj : snd.job = .text m) (hm : (c, k) ∈ snd.requests) :
    ∃ snd', w'.sends i = some snd' ∧ snd'.job = .text m ∧
      (snd'.requests = snd.requests ∨ Failed w'.shared c k) := by
  induction hp with
  | refl => exact ⟨snd, hsnd, hj, .inl rfl⟩
  | @tail v v' a hp _ hs ih =>
    obtain ⟨sv, hsv, hjv, hq⟩ := ih
    have hrv := hr.path hp
    have hstep := client_step hs
    have hg := client_grows hstep (clientInv_of_reachable hrv)
    have hknown : c < v.shared.created := by
      have hs := sendInv_of_reachable hr i snd hsnd
      exact (session_leads hr hp (hs.known c (hs.requests c k hm).1)).1
    have keep : v'.sends i = some sv → _ := fun h =>
      (⟨sv, h, hjv, hq.imp id fun hf => hf.mono hg hknown⟩ :
        ∃ snd', v'.sends i = some snd' ∧ snd'.job = .text m ∧
          (snd'.requests = snd.requests ∨ Failed v'.shared c k))
    cases hstep with
    | startSend j job hj' =>
      have hne : i ≠ j := fun h => by simp [h ▸ hsv] at hj'
      exact keep (by simp [Function.update_of_ne hne, hsv])
    | send j old new sh hj' hst =>
      by_cases hij : i = j
      · subst hij
        cases hsv.symm.trans hj'
        refine ⟨new, by simp, hst.job.trans hjv, ?_⟩
        rcases hq with hq | hf
        · rcases hst.requests with he | ⟨b, o, y, next, hb, hrest, hw⟩
          · exact .inl (he.trans hq)
          · have hm' : (c, k) ∈ sv.requests := hq ▸ hm
            rcases textInv_of_reachable hrv i sv m hsv hjv c k hm' with ⟨b', hb', rfl⟩ | ho | hf
            · cases hb.symm.trans hb'
              have := text_asked (sendInv_of_reachable hrv i sv hsv) hjv hb hrest hm'
              rw [hw] at this
              cases this
            · rw [hb] at ho
              cases ho
            · exact .inr (hf.mono hg hknown)
        · exact .inr (hf.mono hg hknown)
      · exact keep (by simp [Function.update_of_ne hij, hsv])
    | startRun _ _ | run _ _ _ _ _ _ | startDisconnect _ _ | disconnect _ _ _ _ _ _
    | worker _ _ _ _ _ => exact keep hsv

namespace Client

/-- A matched response is what its invoke returns, unless a later poll of the invoke finds the
connection cancelled or its request fails, or has failed, to be sent to the end; only then is a
text sent again. -/
theorem received_response (hr : (automaton setup).Reachable w) (hp : (automaton setup).Leads w w')
    (hc : c < w.shared.created) (ha : .answered k n p ∈ w.shared.log c)
    (hd : w.shared.call c k = some d) (hs : d.pc.inSend = true ∨ ∃ s, d.pc = .await s) :
    (∀ r, w'.shared.invokePc c k = some (.returned r) →
      r = respond d.opcode p ∨
      (r = .error .connectionClosed ∧ PolledCancelled setup w w' c k) ∨
      (d.pc.inSend = true ∧ ∃ e, r = .error e ∧ Transport.SendFailure d.opcode e)) ∧
    (d.pc.inSend = false → w.shared.invokePc c k = some .parked →
      w.shared.isCancelled c = false →
      ∃ g, (Generation.automaton setup.fromStr).exec (w.shared.sessions c).generation
        [.onInvoke k .poll, .onInvoke k (.inner .answered), .onInvoke k .finish] = some g ∧
        g.invokes k = some (.returned (respond d.opcode p))) ∧
    (∀ i snd m, w.sends i = some snd → snd.job = .text m → (c, k) ∈ snd.requests →
      ∃ snd', w'.sends i = some snd' ∧
        (snd'.requests = snd.requests ∨ PolledCancelled setup w w' c k ∨
          (d.pc.inSend = true ∧ ∃ e, w'.shared.invokePc c k = some (.returned (.error e)) ∧
            Transport.SendFailure d.opcode e))) := by
  have hsession := (clientInv_of_reachable hr).shared.sessions c hc
  have hgen := (Session.inv_of_reachable hsession).generation
  obtain ⟨-, -, d', hd', hin, -⟩ :=
    (Transport.transportInv_of_reachable hgen.transport).answered k n p ha
  cases hd.symm.trans hd'
  have hdel : Generation.Delivered (w.shared.sessions c).generation k d n p := ⟨hd, hin, hs⟩
  have hcut : ¬ Generation.CutOff (w.shared.sessions c).generation k := by
    rintro ⟨-, -, d', hd', hdrop⟩
    cases hd.symm.trans hd'
    rw [hdrop] at hs
    rcases hs with hs | ⟨s, hs⟩ <;> cases hs
  obtain ⟨hc', hlead⟩ := session_leads hr hp hc
  have hgen' := (Session.inv_of_reachable (hsession.path hlead)).generation
  have hret : ∀ r, w'.shared.invokePc c k = some (.returned r) →
      r = respond d.opcode p ∨
      (r = .error .connectionClosed ∧ PolledCancelled setup w w' c k) ∨
      (d.pc.inSend = true ∧ ∃ e, r = .error e ∧ Transport.SendFailure d.opcode e) := by
    intro r hr'
    have hlt := Generation.leads_transport (Session.generation_leads hlead)
    rcases Generation.delivered_returns hgen hlt hgen' hdel hr' with h | h | h
    · exact .inl h
    · have he := hr'.symm.trans h.1
      cases he
      exact .inr (.inl ⟨rfl, polledCancelled_of_cutOff hr hp hc hcut h⟩)
    · exact .inr (.inr h)
  refine ⟨hret, fun hn hpk hcan => ?_, fun i snd m hsnd hj hm => ?_⟩
  · obtain ⟨s, hs⟩ := hs.resolve_left (by simp [hn])
    exact Generation.delivered_polled hdel hs hpk hcan
  · obtain ⟨snd', hsnd', -, hq | ⟨e, he, ht⟩⟩ := text_again hr hp hsnd hj hm
    · exact ⟨snd', hsnd', .inl hq⟩
    · refine ⟨snd', hsnd', .inr ?_⟩
      rcases hret _ he with h | ⟨-, h⟩ | ⟨h, e', he', hf⟩
      · have hnot := Transport.failsTransport_respond d.opcode p
        rw [← h] at hnot
        simp [failsTransport, ht] at hnot
      · exact .inl h
      · cases he'
        exact .inr ⟨h, e, he, hf⟩

/-- The response to the sample text has been matched; its task has not been polled since. -/
def sampleMatched : List ClientAction := sampleSend ++ sampleFrame 0 "sent"

/-- The same while the frame of the text is still being flushed. -/
def sampleFlushing : List ClientAction :=
  sampleSend.take (sampleSend.length - 2) ++ sampleFrame 0 "sent"

theorem reachable_matched : (automaton sampleSetup).Reachable
    (((automaton sampleSetup).exec (new sampleSetup 0) sampleMatched).get rfl) :=
  Automaton.reachable_get ⟨0, rfl⟩

/-- A text whose response has come, and the answer its task finds. -/
theorem received_response_text : ∃ (w w' : Client) (r : Except Error Packet),
    (automaton sampleSetup).Leads w w' ∧ w'.shared.invokePc 0 2 = some (.returned r) ∧
      (r = respond Opcode.MSG_SEND (Packet.response 3 Opcode.MSG_SEND .null) ∨
      (r = .error .connectionClosed ∧ PolledCancelled sampleSetup w w' 0 2) ∨
      (false = true ∧ ∃ e, r = .error e ∧ Transport.SendFailure Opcode.MSG_SEND e)) := by
  have hp : (automaton sampleSetup).Leads
      (((automaton sampleSetup).exec (new sampleSetup 0) sampleMatched).get rfl)
      ((((automaton sampleSetup).exec (((automaton sampleSetup).exec (new sampleSetup 0)
        sampleMatched).get rfl)) (sampleAnswer fun a => .send 0 (.onInvoke a))).get rfl) :=
    Automaton.leads_get
  have h := (received_response reachable_matched hp (c := 0) (k := 2) (n := 2)
    (p := Packet.response 3 Opcode.MSG_SEND .null) (by decide) (List.mem_of_getLast? rfl) rfl
    (.inr ⟨3, rfl⟩)).1
  exact ⟨_, _, _, hp, rfl, h _ rfl⟩

def Answers (at_ : CallPc → Prop) (ok : Call → Packet → Except Error Packet → Prop) : Prop :=
  ∀ (w w' : Client) (c : ConnId) (k : CallId) (d : Call) (n : Nat) (p : Packet)
    (r : Except Error Packet), (automaton sampleSetup).Reachable w →
    (automaton sampleSetup).Leads w w' → c < w.shared.created →
    .answered k n p ∈ w.shared.log c → w.shared.call c k = some d → at_ d.pc →
    w'.shared.invokePc c k = some (.returned r) → ok d p r

/-- The response is lost to a poll that sees the token of a closed connection first, and to a
socket that fails under the flush of a request already answered. -/
theorem matched_response_lost :
    ¬ Answers (fun pc => ∃ s, pc = .await s) (fun d p r => r = respond d.opcode p) ∧
    ¬ Answers (fun pc => ∃ s, pc = .flush s)
      (fun d p r => r = respond d.opcode p ∨ r = .error .connectionClosed) := by
  refine ⟨fun h => ?_, fun h => ?_⟩
  · have hp : (automaton sampleSetup).Leads
        (((automaton sampleSetup).exec (new sampleSetup 0) sampleMatched).get rfl)
        ((((automaton sampleSetup).exec (((automaton sampleSetup).exec (new sampleSetup 0)
          sampleMatched).get rfl)) [.worker 0 (.reader (.frame (some (.close none)))),
            .send 0 (.onInvoke .poll)]).get rfl) :=
      Automaton.leads_get
    have hlost := h _ _ 0 2 _ 2 (Packet.response 3 Opcode.MSG_SEND .null)
      (.error .connectionClosed) reachable_matched hp (by decide) (List.mem_of_getLast? rfl) rfl
      ⟨3, rfl⟩ rfl
    cases hlost
  · have hr : (automaton sampleSetup).Reachable
        (((automaton sampleSetup).exec (new sampleSetup 0) sampleFlushing).get rfl) :=
      Automaton.reachable_get ⟨0, rfl⟩
    have hp : (automaton sampleSetup).Leads
        (((automaton sampleSetup).exec (new sampleSetup 0) sampleFlushing).get rfl)
        ((((automaton sampleSetup).exec (((automaton sampleSetup).exec (new sampleSetup 0)
          sampleFlushing).get rfl)) ([.inner (.sendFailed "reset"), .inner .unregister,
            .finish].map fun a => .send 0 (.onInvoke a))).get rfl) :=
      Automaton.leads_get
    have hlost := h _ _ 0 2 _ 2 (Packet.response 3 Opcode.MSG_SEND .null)
      (.error (.webSocket "reset")) hr hp (by decide) (List.mem_of_getLast? rfl) rfl ⟨3, rfl⟩ rfl
    rcases hlost with h | h <;> cases h

end Client

end Maxrs
