import Maxrs.UploadInv
set_option autoImplicit false

/-! The upload protocol: what a file message rests on, and what a notification reaches. -/
namespace Maxrs

def IssuedOn (sh : Shared) (snd : Send) (c : ConnId) (fileId : Int) : Prop :=
  ∃ k d response url, (c, k) ∈ snd.requests ∧ sh.call c k = some d ∧
    d.opcode = Opcode.FILE_UPLOAD ∧ d.payload = fileUploadPayload ∧
    sh.invokePc c k = some (.returned (.ok response)) ∧
    uploadInfo response.payload = .ok (url, fileId)

def NotifiedOn (l : List (RegistryEvent SendId)) (i : SendId) (fileId : Int) : Prop :=
  ∃ before v after, l = before ++ .registered i v :: after ∧ v.fileId = fileId ∧
    .notified fileId ∈ after

/-- Every file message of the send is about a file that was issued to it and then notified. -/
def Attested (log : ConnId → List (RegistryEvent SendId)) (sh : Shared) (i : SendId)
    (snd : Send) : Prop :=
  ∀ c k d fileId, (c, k) ∈ snd.requests → sh.call c k = some d → d.opcode = Opcode.MSG_SEND →
    attachedFile d.payload = some fileId →
    IssuedOn sh snd c fileId ∧ NotifiedOn (log c) i fileId

variable {setup : Setup} {sh sh' : Shared} {snd snd' : Send} {w w' : Client}
  {log log' : ConnId → List (RegistryEvent SendId)} {i : SendId} {c : ConnId} {fileId : Int}

theorem IssuedOn.mono (h : IssuedOn sh snd c fileId) (hg : sh.Grows sh')
    (hc : c < sh.created) (hreq : ∀ p ∈ snd.requests, p ∈ snd'.requests) :
    IssuedOn sh' snd' c fileId := by
  obtain ⟨k, d, response, url, hm, hd, ho, hp, hret, hinfo⟩ := h
  obtain ⟨d', hd', ho', hp'⟩ := call_mono hg hc hd
  exact ⟨k, d', response, url, hreq _ hm, hd', ho'.trans ho, hp'.trans hp,
    (hg.generation c hc).returned k _ hret, hinfo⟩

theorem NotifiedOn.mono {l more : List (RegistryEvent SendId)} (h : NotifiedOn l i fileId) :
    NotifiedOn (l ++ more) i fileId := by
  obtain ⟨before, v, after, rfl, hv, hn⟩ := h
  exact ⟨before, v, after ++ more, by simp, hv, List.mem_append_left _ hn⟩

theorem Attested.mono (h : Attested log sh i snd) (hi : SendInv sh snd) (hg : sh.Grows sh')
    (hreq : snd'.requests = snd.requests) (hlog : ∀ c, ∃ more, log' c = log c ++ more) :
    Attested log' sh' i snd' := by
  intro c k d f hm hd ho hf
  rw [hreq] at hm
  obtain ⟨hu, e, he, -⟩ := hi.requests c k hm
  obtain ⟨hoe, hpe⟩ := call_back hg (hi.known c hu) he hd
  obtain ⟨hissued, hnotified⟩ := h c k e f hm he (hoe ▸ ho) (hpe ▸ hf)
  obtain ⟨more, hmore⟩ := hlog c
  rw [hmore]
  exact ⟨hissued.mono hg (hi.known c hu) (fun p hp => hreq ▸ hp), hnotified.mono⟩

theorem attested_of_prepared {b : SendBody} (hi : UploadInv log w) (hs : w.sends i = some snd)
    (hsi : SendInv w.shared snd) (hb : snd.pc = .body b)
    (hc : b.connection < w.shared.created) (h : Prepared b.trace fileId) :
    IssuedOn w.shared snd b.connection fileId ∧ NotifiedOn (log b.connection) i fileId := by
  obtain ⟨⟨response, url, hasked, hinfo⟩, v, hreg, hready⟩ := h
  have hown := hi.send i snd hs
  constructor
  · obtain ⟨k, d, hm, hd, ho, hp, hret⟩ := (hsi.body b hb).asked _ _ _ hasked
    exact ⟨k, d, response, url, hm, hd, ho, hp, hret, hinfo⟩
  · obtain ⟨hf, hmem⟩ := hown.asked b fileId v hb hreg
    obtain ⟨before, after, hl⟩ := List.append_of_mem hmem
    have hn := (hi.ledger _ hc).completed before i v after hl (hown.ready b v hb hready)
    exact ⟨before, v, after, hl, hf, hf ▸ hn⟩

theorem attested_send (hi : UploadInv log w) (hs : w.sends i = some snd)
    (hsi : SendInv w.shared snd) (hg : w.shared.Grows sh')
    (hbody : ∀ b, snd.pc = .body b → b.connection < w.shared.created)
    (hlog : ∀ c, ∃ more, log' c = log c ++ more) (h : SendStep setup w.shared snd sh' snd')
    (ha : Attested log w.shared i snd) : Attested log' sh' i snd' := by
  cases h with
  | issue b opcode payload next s hb hr hw hact he =>
    intro c k d f hm hd ho hf
    rcases List.mem_append.mp hm with hm | hm
    · have hold : Attested log' sh' i snd := ha.mono hsi hg rfl hlog
      obtain ⟨hissued, hnotified⟩ := hold c k d f hm hd ho hf
      obtain ⟨k', d', response, url, hm', h⟩ := hissued
      exact ⟨⟨k', d', response, url, List.mem_append_left _ hm', h⟩, hnotified⟩
    · rw [List.mem_singleton] at hm
      cases hm
      have hpre : UploadPre b.trace (.invoke opcode payload) :=
        (always_body_upload snd.job snd.cid).head (hr ▸ (hsi.body b hb).after)
      obtain ⟨rfl, rfl⟩ : d.opcode = opcode ∧ d.payload = payload := by
        subst he
        obtain ⟨g, hg', rfl⟩ := Session.act_eq hact
        obtain ⟨hcalls, -⟩ := Generation.invoke_calls hg'
        rw [Shared.call, setSession_self] at hd
        change g.transport.calls _ = _ at hd
        rw [hcalls, Function.update_self] at hd
        cases hd
        exact ⟨rfl, rfl⟩
      obtain ⟨hissued, hnotified⟩ := attested_of_prepared hi hs hsi hb (hbody b hb)
        (hpre.2 ho f hf)
      obtain ⟨more, hmore⟩ := hlog b.connection
      rw [hmore]
      exact ⟨hissued.mono hg (hbody b hb) fun p hp => List.mem_append_left _ hp, hnotified.mono⟩
  | clock _ _ _ | takeCid _ _ _ _ | borrow _ _ | handed _ _ _ _ _ | stopped _ _ _ | wait _ _ _ _ _
  | woken _ _ _ | act _ _ _ | answer _ _ _ _ _ _ _ _ _ _ _ | turn _ _ _ _ | done _ _ _ _
  | retry _ _ _ _ _ _ | fail _ _ _ _ _ _ | drop _ => exact ha.mono hsi hg rfl hlog

theorem attested_of_exec {millis : Nat} {acts : List ClientAction}
    (h : (Client.automaton setup).exec (Client.new setup millis) acts = some w) :
    ∀ i snd, w.sends i = some snd →
      Attested (Client.registryLog setup (Client.new setup millis) acts) w.shared i snd := by
  have hr : (Client.automaton setup).Reachable (Client.new setup millis) := .init ⟨millis, rfl⟩
  refine Automaton.exec_invariant (I := fun as t => ∀ i snd, t.sends i = some snd →
    Attested (Client.registryLog setup (Client.new setup millis) as) t.shared i snd) h
    (fun i snd hs => by cases hs) fun as a t u ht hs hi => ?_
  have hrt := hr.exec ht
  have hlog : ∀ c, ∃ more, Client.registryLog setup (Client.new setup millis) (as ++ [a]) c =
      Client.registryLog setup (Client.new setup millis) as c ++ more :=
    fun c => ⟨_, Automaton.observe_snoc ht hs⟩
  have hinv := clientInv_of_reachable hrt
  have hsend := sendInv_of_reachable hrt
  have hg := client_grows (client_step hs) hinv
  intro i snd hsnd
  cases client_step hs with
  | startSend j job hj =>
    rcases update_some hsnd with ⟨rfl, rfl⟩ | ⟨_, hsnd⟩
    · intro c k d f hm
      exact absurd hm List.not_mem_nil
    · exact (hi i snd hsnd).mono (hsend i snd hsnd) hg rfl hlog
  | send j old new sh hj hst =>
    rcases update_some hsnd with ⟨rfl, rfl⟩ | ⟨_, hsnd⟩
    · exact attested_send (uploadInv_of_exec ht) hj (hsend i old hj) hg
        (fun b hb => (hinv.handles.body i old b hj hb).1) hlog hst (hi i old hj)
    · exact (hi i snd hsnd).mono (hsend i snd hsnd) hg rfl hlog
  | startRun _ _ | run _ _ _ _ _ _ | startDisconnect _ _ | disconnect _ _ _ _ _ _
  | worker _ _ _ _ _ => exact (hi i snd hsnd).mono (hsend i snd hsnd) hg rfl hlog

theorem completed_leads {n : WaiterId} (hr : (Client.automaton setup).Reachable w)
    (hp : (Client.automaton setup).Leads w w') (hc : c < w.shared.created)
    (hn : (w.shared.registry c).completed n = true) :
    (w'.shared.registry c).completed n = true := by
  induction hp with
  | refl => exact hn
  | tail hp _ hs ih =>
    exact completed_step (hr.path hp) hs (session_leads hr hp hc).1 ih

theorem completed_of_notified {frame : Option Frame} {v : AttachmentWaiter}
    (hi : UploadInv log w) (hh : w.holds c i v)
    (h : w.step setup (.worker c (.reader (.frame frame))) = some w')
    (hv : noticed setup.fromStr frame = some v.fileId) :
    (w'.shared.registry c).completed v.identity = true := by
  cases registry_client h with
  | quiet hev hreg hold hsends =>
    have hevent := hev c
    rw [Client.registryEvent, if_pos rfl, hv] at hevent
    cases hevent
  | frame d frame' sh ha hc hm hcre he =>
    cases ha
    subst he
    obtain ⟨-, hheld⟩ := (hi.ledger c hc).held i v hh
    show (sh.registry c).completed v.identity = true
    rw [hm.1, hv, AttachmentRegistry.notice, AttachmentRegistry.complete_completed]
    rcases hheld with hheld | hheld <;> simp [hheld]
  | send j b snd snd' sh ha hsnd hst he => cases ha

theorem holds_body {b : SendBody} {v : AttachmentWaiter} (hs : w.sends i = some snd)
    (hb : snd.pc = .body b) (hv : b.waiter = some v) : w.holds b.connection i v :=
  ⟨snd, hs, by rw [waiterOn_body hb, if_pos rfl, hv]⟩

/-- A ready waiter ends the wait for it and stops the timer. -/
theorem processed_of_completed {b : SendBody} {v : AttachmentWaiter}
    {next : Except Error Bool → SendScript (Except Error Unit)} (hb : snd.pc = .body b)
    (hr : b.rest = .call (.processed v) next) (hp : b.polling = true)
    (hc : (sh.registry b.connection).completed v.identity = true) :
    (∃ out, snd.step setup sh .processed = some out) ∧
      snd.step setup sh .processTimeout = none := by
  have hc' : (sh.sessions b.connection).generation.attachmentRegistry.completed v.identity = true :=
    hc
  constructor
  · simp [Send.step, hb, Send.stepBody, hr, hp, hc', Send.onConnection, Shared.onSession,
      Session.act, SenderAction.toGeneration, Generation.step]
  · simp [Send.step, hb, Send.stepBody, hr, hp, hc']

theorem waiter_of_rest {b : SendBody} (hi : UploadInv log w) (hs : w.sends i = some snd)
    (hsi : SendInv w.shared snd) (hb : snd.pc = .body b) :
    (∀ url headers body next, b.rest = .call (.upload url headers body) next →
      ∃ v, b.waiter = some v ∧ Issued b.trace v.fileId ∧ .registered i v ∈ log b.connection) ∧
    ∀ u next, b.rest = .call (.processed u) next →
      b.waiter = some u ∧ .registered i u ∈ log b.connection := by
  have hown := hi.send i snd hs
  have hscript := (always_body_upload snd.job snd.cid).after (hsi.body b hb).after
  constructor
  · intro url headers body next hr
    rw [hr] at hscript
    obtain ⟨v, f, hh, hasked, hissued⟩ := hscript.1
    obtain ⟨rfl, hm⟩ := hown.asked b f v hb hasked
    exact ⟨v, (hown.held b hb).trans hh, hissued, hm⟩
  · intro u next hr
    rw [hr] at hscript
    have hh : heldBy b.trace = some u := hscript.1
    obtain ⟨f, hasked⟩ := asked_of_held hh
    exact ⟨(hown.held b hb).trans hh, (hown.asked b f u hb hasked).2⟩

def Send.Inside (snd : Send) (c : ConnId) : Prop :=
  ∃ b, snd.pc = .body b ∧ b.connection = c ∧ ∀ r, b.rest ≠ .done r

theorem inside_of_holds {v : AttachmentWaiter} (hi : UploadInv log w)
    (hs : w.sends i = some snd) (hsi : SendInv w.shared snd) (hh : snd.waiterOn c = some v) :
    snd.Inside c := by
  unfold Send.waiterOn at hh
  split at hh
  · rename_i b hb
    split at hh
    · rename_i hc
      refine ⟨b, hb, hc, fun r hr => ?_⟩
      have hscript := (always_body_upload snd.job snd.cid).after (hsi.body b hb).after
      rw [hr] at hscript
      have hnone : heldBy b.trace = none := hscript
      rw [(hi.send i snd hs).held b hb, hnone] at hh
      cases hh
    · cases hh
  · cases hh

namespace Client

/-- File uploads: what a file message rests on, the notifications that reach a call, and what a
call leaves in the registry. -/
theorem file_upload_protocol {millis : Nat} {acts : List ClientAction}
    (h : (automaton setup).exec (new setup millis) acts = some w) :
    (∀ i snd c k d fileId, w.sends i = some snd → (c, k) ∈ snd.requests →
      w.shared.call c k = some d → d.opcode = Opcode.MSG_SEND →
      attachedFile d.payload = some fileId →
      IssuedOn w.shared snd c fileId ∧
        NotifiedOn (registryLog setup (new setup millis) acts c) i fileId) ∧
    (∀ i snd b, w.sends i = some snd → snd.pc = .body b →
      (∀ url headers body next, b.rest = .call (.upload url headers body) next →
        ∃ v, b.waiter = some v ∧ Issued b.trace v.fileId ∧
          .registered i v ∈ registryLog setup (new setup millis) acts b.connection) ∧
      ∀ u next, b.rest = .call (.processed u) next → b.waiter = some u) ∧
    (∀ before frame after w₁ i snd₁ b₁ v,
      acts = before ++ .worker b₁.connection (.reader (.frame frame)) :: after →
      (automaton setup).exec (new setup millis) before = some w₁ →
      w₁.sends i = some snd₁ → snd₁.pc = .body b₁ → b₁.waiter = some v →
      noticed setup.fromStr frame = some v.fileId →
      (w.shared.registry b₁.connection).completed v.identity = true ∧
      ∀ snd b u next, w.sends i = some snd → snd.pc = .body b → b.connection = b₁.connection →
        b.rest = .call (.processed u) next → u = v ∧ (b.polling = true →
          (∃ out, snd.step setup w.shared .processed = some out) ∧
            snd.step setup w.shared .processTimeout = none)) ∧
    (∀ c i v snd, .registered i v ∈ registryLog setup (new setup millis) acts c →
      w.sends i = some snd → ¬ snd.Inside c →
      ∀ g, (w.shared.registry c).waiters g ≠ some v.identity) ∧
    (∀ c g n, c < w.shared.created → (w.shared.registry c).waiters g = some n →
      ∃ i snd, .registered i ⟨g, n⟩ ∈ registryLog setup (new setup millis) acts c ∧
        w.sends i = some snd ∧ snd.Inside c) := by
  have hnew : (automaton setup).Reachable (new setup millis) := .init ⟨millis, rfl⟩
  have hr : (automaton setup).Reachable w := hnew.exec h
  have hi := uploadInv_of_exec h
  have hsend := sendInv_of_reachable hr
  refine ⟨fun i snd c k d f hs => attested_of_exec h i snd hs c k d f, fun i snd b hs hb => ?_,
    fun before frame after w₁ i snd₁ b₁ v hacts hbefore hs₁ hb₁ hv hf => ?_,
    fun c i v snd hm hs hn g hg => ?_, fun c g n hc hg => ?_⟩
  · obtain ⟨hup, hproc⟩ := waiter_of_rest hi hs (hsend i snd hs) hb
    exact ⟨hup, fun u next hr => (hproc u next hr).1⟩
  · have hr₁ := hnew.exec hbefore
    have hi₁ := uploadInv_of_exec hbefore
    subst hacts
    rw [Automaton.exec_append, hbefore, Option.bind_some] at h
    obtain ⟨w₂, hstep, hafter⟩ := Option.bind_eq_some_iff.mp h
    have hc₁ := ((clientInv_of_reachable hr₁).handles.body i snd₁ b₁ hs₁ hb₁).1
    have hdone := completed_of_notified hi₁ (holds_body hs₁ hb₁ hv) hstep hf
    have hlead : (automaton setup).Leads w₁ w₂ := .single trivial hstep
    have hready := completed_leads (hr₁.path hlead) (Automaton.exec_leads hafter)
      (session_leads hr₁ hlead hc₁).1 hdone
    refine ⟨hready, fun snd b u next hs hb hc hrest => ?_⟩
    -- both waiters were registered by this call on this connection
    have hregistered : .registered i v ∈ registryLog setup (new setup millis)
        (before ++ .worker b₁.connection (.reader (.frame frame)) :: after) b₁.connection := by
      rw [registryLog, Automaton.observe_append hbefore]
      exact List.mem_append_left _
        ((hi₁.ledger _ hc₁).held i v (holds_body hs₁ hb₁ hv)).1
    have hu := ((waiter_of_rest hi hs (hsend i snd hs) hb).2 u next hrest).2
    rw [hc] at hu
    obtain rfl := (hi.send i snd hs).once _ u v hu hregistered
    rw [← hc] at hready
    exact ⟨rfl, fun hp => processed_of_completed hb hrest hp hready⟩
  · by_cases hc : c < w.shared.created
    · refine (hi.ledger c hc).gone hm (fun hh => hn ?_) g hg
      obtain ⟨snd', hs', hv⟩ := hh
      cases hs.symm.trans hs'
      exact inside_of_holds hi hs (hsend i snd hs) hv
    · rw [hi.later c (Nat.le_of_not_lt hc)] at hm
      exact absurd hm List.not_mem_nil
  · obtain ⟨i, hh⟩ := (hi.ledger c hc).owned g n hg
    have hm := ((hi.ledger c hc).held i _ hh).1
    obtain ⟨snd, hs, hv⟩ := hh
    exact ⟨i, snd, hm, hs, inside_of_holds hi hs (hsend i snd hs) hv⟩

def uploadSetup : Setup :=
  { sampleSetup with
    fromStr
      | "upload" => .ok (Packet.response 3 Opcode.FILE_UPLOAD
          (.object [("info", .array [.object [("url", .string "u"), ("fileId", .int 11)]])]))
      | "attach" => .ok (Packet.request 9 Opcode.NOTIF_ATTACH (.object [("fileId", .int 11)]))
      | text => sampleSetup.fromStr text }

/-- A file whose notification overtakes the answer to its POST, and the message about it. -/
theorem file_upload_protocol_early : ∃ acts w snd,
    (automaton uploadSetup).exec (new uploadSetup 0) acts = some w ∧ w.sends 0 = some snd ∧
      (0, 3) ∈ snd.requests ∧ IssuedOn w.shared snd 0 11 ∧
      NotifiedOn (registryLog uploadSetup (new uploadSetup 0) acts 0) 0 11 := by
  let file : SendJob := .file { chatId := 1, fileName := "f", bytes := ⟨#[]⟩, caption := "" }
  let acts : List ClientAction := sampleLogin ++
    [.startSend 0 file, .send 0 (.readClock 0), .send 0 .takeCid, .send 0 .borrow,
      .send 0 .check, .send 0 .issue] ++ sampleRequest (fun a => .send 0 (.onInvoke a)) ++
    sampleFrame 0 "upload" ++ sampleAnswer (fun a => .send 0 (.onInvoke a)) ++
    [.send 0 .take, .send 0 .register, .send 0 .selectPoll,
      .worker 0 (.reader (.frame (some (.text "attach")))), .send 0 (.uploaded (.ok 200)),
      .send 0 .selectPoll, .send 0 .processed, .send 0 .issue]
  have hrun : (automaton uploadSetup).exec (new uploadSetup 0) acts =
      some (((automaton uploadSetup).exec (new uploadSetup 0) acts).get rfl) := rfl
  have hm : (0, 3) ∈ [(0, 2), (0, 3)] := by decide
  exact ⟨acts, _, _, hrun, rfl, hm,
    (file_upload_protocol hrun).1 0 _ 0 3 _ 11 rfl hm rfl rfl rfl⟩

end Client

end Maxrs
