import Maxrs.Kit.Observe
import Maxrs.Ledger
import Maxrs.RegistryFrame
import Maxrs.Replay
set_option autoImplicit false

/-! `send_uploaded_file`: the registrations of a call, and what it waits for. -/
namespace Maxrs

def attachedFile (payload : Value) : Option Int :=
  (((payload.get "message").get "attaches").at? 0).bind fun a => (a.get "fileId").asI64

def heldAfter (held : Option AttachmentWaiter) :
    ((op : SendOp) × op.Ret) → Option AttachmentWaiter
  | ⟨.register _, r⟩ => r
  | ⟨.dropWaiter _, _⟩ | ⟨.processed _, _⟩ => none
  | _ => held

def heldBy (tr : SendTrace) : Option AttachmentWaiter := tr.foldl heldAfter none

@[simp] theorem heldBy_nil : heldBy [] = none := rfl

@[simp] theorem heldBy_snoc (tr : SendTrace) (e : (op : SendOp) × op.Ret) :
    heldBy (tr ++ [e]) = heldAfter (heldBy tr) e := by simp [heldBy]

def Issued (tr : SendTrace) (fileId : Int) : Prop :=
  ∃ response url, Asked tr (.invoke Opcode.FILE_UPLOAD fileUploadPayload) (.ok response) ∧
    uploadInfo response.payload = .ok (url, fileId)

def Prepared (tr : SendTrace) (fileId : Int) : Prop :=
  Issued tr fileId ∧ ∃ w, Asked tr (.register fileId) (some w) ∧ Asked tr (.processed w) (.ok true)

def UploadPre (tr : SendTrace) : SendOp → Prop
  | .invoke opcode payload => heldBy tr = none ∧ (opcode = Opcode.MSG_SEND →
      ∀ fileId, attachedFile payload = some fileId → Prepared tr fileId)
  | .register _ => heldBy tr = none ∧ ∀ g r, ¬ Asked tr (.register g) r
  | .upload _ _ _ => ∃ w fileId, heldBy tr = some w ∧ Asked tr (.register fileId) (some w) ∧
      Issued tr fileId
  | .processed w | .dropWaiter w => heldBy tr = some w

def UploadPost (tr : SendTrace) (_ : Except Error Unit) : Prop := heldBy tr = none

theorem attachedFile_text (m : TextMessage) (cid : Int) :
    attachedFile (textMessagePayload m cid) = none := rfl

theorem attachedFile_file {chatId fileId cid g : Int} {caption : String}
    (h : attachedFile (fileMessagePayload chatId caption fileId cid) = some g) : g = fileId := by
  have hfile : attachedFile (fileMessagePayload chatId caption fileId cid) =
      (Value.int fileId).asI64 := rfl
  rw [hfile, Value.asI64] at h
  split at h <;> cases h
  rfl

theorem always_message_upload {tr : SendTrace} {payload : Value} (hh : heldBy tr = none)
    (hp : ∀ fileId, attachedFile payload = some fileId → Prepared tr fileId) :
    ((sendInvoke Opcode.MSG_SEND payload).orFail fun _ =>
      (.done (.ok ()) : SendScript (Except Error Unit))).Always UploadPre UploadPost tr := by
  refine (Script.always_orFail _ _ _).mpr ⟨⟨hh, fun _ => hp⟩, fun r => ?_⟩
  cases r <;> exact (heldBy_snoc tr _).trans hh

theorem always_uploadAndSend_upload (m : FileMessage) (cid : Int) (url : String) (fileId : Int)
    (w : AttachmentWaiter) {tr : SendTrace} (hi : Issued tr fileId)
    (hr : Asked tr (.register fileId) (some w)) (hh : heldBy tr = some w) :
    (uploadAndSend m cid url fileId w).Always UploadPre UploadPost tr := by
  refine ⟨⟨w, fileId, hh, hr, hi⟩, fun r => ?_⟩
  rcases r with e | e | status
  · exact ⟨(heldBy_snoc tr _).trans hh, fun _ => heldBy_snoc _ _⟩
  · exact ⟨(heldBy_snoc tr _).trans hh, fun _ => heldBy_snoc _ _⟩
  · refine ⟨(heldBy_snoc tr _).trans hh, fun r => ?_⟩
    rcases r with e | ready
    · exact heldBy_snoc _ _
    · cases ready with
      | false => exact heldBy_snoc _ _
      | true =>
        refine always_message_upload (heldBy_snoc _ _) fun g hg => ?_
        rw [attachedFile_file hg]
        obtain ⟨response, u, ha, hu⟩ := hi
        exact ⟨⟨response, u, ha.mono.mono, hu⟩, w, hr.mono.mono, asked_snoc.mpr (.inr rfl)⟩

theorem always_body_upload (job : SendJob) (cid : Int) :
    (job.body cid).Always UploadPre UploadPost [] := by
  cases job with
  | text m =>
    refine always_message_upload rfl fun g hg => ?_
    rw [attachedFile_text] at hg
    cases hg
  | file m =>
    refine (Script.always_orFail _ _ _).mpr ⟨⟨rfl, fun h => absurd h (by decide)⟩, fun r => ?_⟩
    cases r with
    | error e => exact heldBy_snoc [] _
    | ok response =>
      simp only [Script.always_done]
      split
      · exact heldBy_snoc [] _
      · rename_i url fileId hu
        refine ⟨⟨heldBy_snoc [] _, fun g r hr => ?_⟩, fun r => ?_⟩
        · rcases asked_snoc.mp hr with hr | hr
          · exact asked_nil hr
          · cases hr
        cases r with
        | none => exact heldBy_snoc _ _
        | some w =>
          exact always_uploadAndSend_upload m cid url fileId w
            ⟨response, url, Asked.mono (asked_snoc.mpr (.inr rfl)), hu⟩
            (asked_snoc.mpr (.inr rfl)) (heldBy_snoc _ _)

theorem asked_of_held {tr : SendTrace} {w : AttachmentWaiter} (h : heldBy tr = some w) :
    ∃ fileId, Asked tr (.register fileId) (some w) := by
  induction tr using List.reverseRecOn with
  | nil => cases h
  | append_singleton tr e ih =>
    rw [heldBy_snoc] at h
    obtain ⟨op, r⟩ := e
    cases op with
    | register fileId => exact ⟨fileId, asked_snoc.mpr (.inr (by rw [← h]; rfl))⟩
    | dropWaiter v | processed v => cases h
    | invoke o p | upload u y z =>
      obtain ⟨fileId, ha⟩ := ih h
      exact ⟨fileId, ha.mono⟩

def Shared.Unmoved (sh sh' : Shared) : Prop := ∀ c, sh'.registry c = sh.registry c

def Shared.Moved (sh sh' : Shared) (c : ConnId) (r : AttachmentRegistry) : Prop :=
  sh'.registry c = r ∧ ∀ d, d ≠ c → sh'.registry d = sh.registry d

def SendAction.registers : SendAction → Bool
  | .register => true
  | _ => false

inductive UploadStep (sh : Shared) (snd : Send) (a : SendAction) (sh' : Shared) (snd' : Send) :
    Prop where
  | away : a.registers = false → sh.Unmoved sh' → snd'.used = snd.used → (∀ b, snd'.pc ≠ .body b) →
      (∀ b, snd.pc = .body b → (∃ r, b.rest = .done r) ∨
        ∃ opcode payload next, b.rest = .call (.invoke opcode payload) next) →
      UploadStep sh snd a sh' snd'
  | fresh (b' : SendBody) : a.registers = false → sh.Unmoved sh' → (∀ b, snd.pc ≠ .body b) →
      snd'.pc = .body b' → snd'.used = snd.used ++ [b'.connection] → b'.trace = [] →
      b'.waiter = none →
      UploadStep sh snd a sh' snd'
  | same (b b' : SendBody) : a.registers = false → sh.Unmoved sh' → snd.pc = .body b →
      snd'.pc = .body b' → snd'.used = snd.used → b'.connection = b.connection →
      b'.waiter = b.waiter →
      b'.trace = b.trace → UploadStep sh snd a sh' snd'
  | answer (b b' : SendBody) (op : SendOp) (r : op.Ret)
      (next : op.Ret → SendScript (Except Error Unit)) : a.registers = false → sh.Unmoved sh' →
      snd.pc = .body b →
      b.rest = .call op next → snd'.pc = .body b' → snd'.used = snd.used →
      b'.connection = b.connection → b'.waiter = b.waiter → b'.trace = b.trace ++ [⟨op, r⟩] →
      ((∃ opcode payload, op = .invoke opcode payload) ∨
        ∃ url headers body, op = .upload url headers body) → UploadStep sh snd a sh' snd'
  | register (b b' : SendBody) (fileId : Int)
      (next : Option AttachmentWaiter → SendScript (Except Error Unit)) : a = .register →
      snd.pc = .body b →
      b.rest = .call (.register fileId) next → snd'.pc = .body b' → snd'.used = snd.used →
      b'.connection = b.connection →
      b'.waiter = ((sh.registry b.connection).register fileId).2 →
      b'.trace = b.trace ++ [⟨.register fileId, b'.waiter⟩] →
      sh.Moved sh' b.connection ((sh.registry b.connection).register fileId).1 →
      UploadStep sh snd a sh' snd'
  | release (b b' : SendBody) (w : AttachmentWaiter) (op : SendOp) (r : op.Ret)
      (next : op.Ret → SendScript (Except Error Unit)) : a.registers = false → snd.pc = .body b →
      b.rest = .call op next → op = .processed w ∨ op = .dropWaiter w → snd'.pc = .body b' →
      snd'.used = snd.used → b'.connection = b.connection → b'.waiter = none →
      b'.trace = b.trace ++ [⟨op, r⟩] →
      (∀ v, (⟨op, r⟩ : (op : SendOp) × op.Ret) = ⟨.processed v, .ok true⟩ →
        (sh.registry b.connection).completed v.identity = true) →
      sh.Moved sh' b.connection ((sh.registry b.connection).dropWaiter w) →
      UploadStep sh snd a sh' snd'
  | drop (b : SendBody) (w : AttachmentWaiter) : a.registers = false → snd.pc = .body b →
      b.waiter = some w →
      (∀ b, snd'.pc ≠ .body b) → snd'.used = snd.used →
      sh.Moved sh' b.connection ((sh.registry b.connection).dropWaiter w) →
      UploadStep sh snd a sh' snd'

variable {setup : Setup} {sh sh' : Shared} {snd snd' : Send}

def SenderAction.onRegistry (r : AttachmentRegistry) : SenderAction → AttachmentRegistry
  | .register fileId => (r.register fileId).1
  | .dropWaiter w => r.dropWaiter w
  | _ => r

theorem registry_onConnection {b : SendBody} {a : SenderAction}
    (h : Send.onConnection setup sh b a = some sh') :
    sh.Moved sh' b.connection (a.onRegistry (sh.registry b.connection)) := by
  obtain ⟨s, hs, rfl⟩ := onSession_eq h
  refine ⟨?_, fun d hd => by rw [registry_setSession, if_neg hd]⟩
  rw [registry_setSession, if_pos rfl]
  cases a with
  | invoke opcode payload => exact registry_act hs rfl
  | onInvoke k b => exact registry_act hs rfl
  | register fileId | dropWaiter w =>
    obtain ⟨g, hg, rfl⟩ := Session.act_eq hs
    cases hg
    rfl

theorem Shared.Moved.unmoved {c : ConnId} (h : sh.Moved sh' c (sh.registry c)) :
    sh.Unmoved sh' := by
  intro d
  by_cases hd : d = c
  · rw [hd]
    exact h.1
  · exact h.2 d hd

theorem upload_stepCurrent {a : SendAction} {f : Current → Option Current}
    (ha : a.registers = false) (h : Send.stepCurrent sh snd f = some (sh', snd')) :
    UploadStep sh snd a sh' snd' := by
  simp only [Send.stepCurrent] at h
  split at h
  · rename_i p hp
    have hout : ∀ b, snd.pc ≠ .body b := fun b hb => by cases hp.symm.trans hb
    obtain ⟨q, -, he⟩ := Option.map_eq_some_iff.mp h
    split at he
    · cases he
      exact .fresh _ ha (fun _ => rfl) hout rfl rfl rfl rfl
    · cases he
      exact .away ha (fun _ => rfl) rfl (fun b hb => by cases hb) fun b hb => absurd hb (hout b)
    · cases he
      exact .away ha (fun _ => rfl) rfl (fun b hb => by cases hb) fun b hb => absurd hb (hout b)
  · cases h

theorem upload_stepBody {b : SendBody} {a : SendAction} (hp : snd.pc = .body b)
    (hw : ∀ k, b.waiting = some k →
      ∃ opcode payload next, b.rest = .call (.invoke opcode payload) next)
    (h : snd.stepBody setup sh b a = some (sh', snd')) : UploadStep sh snd a sh' snd' := by
  have leave : ∀ {pc : SendPc}, a.registers = false → sh.Unmoved sh' → (∀ b, pc ≠ .body b) →
      ((∃ r, b.rest = .done r) ∨
        ∃ opcode payload next, b.rest = .call (.invoke opcode payload) next) →
      UploadStep sh snd a sh' (snd.goto pc) := by
    intro pc ha hu hn hr
    refine .away ha hu rfl hn fun b₁ hb₁ => ?_
    cases hp.symm.trans hb₁
    exact hr
  cases body_turn h with
  | issue opcode payload next hr hk hm =>
    exact .same b _ rfl (registry_onConnection hm).unmoved hp rfl rfl rfl rfl rfl
  | onInvoke k act hk hdrop hm =>
    exact .same b b rfl (registry_onConnection hm).unmoved hp hp rfl rfl rfl rfl
  | take opcode payload next k r hr hk hret =>
    exact .answer b _ _ _ next rfl (fun _ => rfl) hp hr rfl rfl rfl rfl rfl (.inl ⟨_, _, rfl⟩)
  | register fileId next w hr hwaiter hm =>
    subst hwaiter
    exact .register b _ fileId next rfl hp hr rfl rfl rfl rfl rfl (registry_onConnection hm)
  | uploadClosed url headers body next hr hc =>
    exact .answer b _ _ _ next rfl (fun _ => rfl) hp hr rfl rfl rfl rfl rfl (.inr ⟨_, _, _, rfl⟩)
  | waitClosed w next hr hc hm =>
    exact .release b _ w _ _ next rfl hp hr (.inl rfl) rfl rfl rfl rfl rfl
      (fun v hv => by cases hv) (registry_onConnection hm)
  | select op next hr hop hc => exact .same b _ rfl (fun _ => rfl) hp rfl rfl rfl rfl rfl
  | park hpoll => exact .same b _ rfl (fun _ => rfl) hp rfl rfl rfl rfl rfl
  | uploaded url headers body r next hr hpoll =>
    exact .answer b _ _ _ next rfl (fun _ => rfl) hp hr rfl rfl rfl rfl rfl (.inr ⟨_, _, _, rfl⟩)
  | processed w next hr hpoll hdone hm =>
    refine .release b _ w _ _ next rfl hp hr (.inl rfl) rfl rfl rfl rfl rfl (fun v hv => ?_)
      (registry_onConnection hm)
    cases hv
    exact hdone
  | timedOut w next hr hpoll hm =>
    exact .release b _ w _ _ next rfl hp hr (.inl rfl) rfl rfl rfl rfl rfl
      (fun v hv => by cases hv) (registry_onConnection hm)
  | dropWaiter w next hr hm =>
    exact .release b _ w _ _ next rfl hp hr (.inr rfl) rfl rfl rfl rfl rfl
      (fun v hv => by cases hv) (registry_onConnection hm)
  | done hr => exact leave rfl (fun _ => rfl) (fun b hb => by cases hb) (.inl ⟨_, hr⟩)
  | failed e hr =>
    refine leave rfl (fun _ => rfl) (fun b hb => ?_) (.inl ⟨_, hr⟩)
    split at hb <;> cases hb
  | dropInvoke k hk hm =>
    exact leave rfl (registry_onConnection hm).unmoved (fun b hb => by cases hb) (.inr (hw k hk))
  | dropSelect w hk hheld hm =>
    exact .drop b w rfl hp hheld (fun b hb => by cases hb) rfl (registry_onConnection hm)

theorem upload_step {a : SendAction} (hw : ∀ b k, snd.pc = .body b → b.waiting = some k →
      ∃ opcode payload next, b.rest = .call (.invoke opcode payload) next)
    (h : snd.step setup sh a = some (sh', snd')) : UploadStep sh snd a sh' snd' := by
  have outside : ∀ {sh₁ : Shared} {pc q : SendPc} {cid : Int}, a.registers = false →
      snd.pc = pc →
      (∀ b, pc ≠ .body b) → (∀ b, q ≠ .body b) → sh.Unmoved sh₁ →
      UploadStep sh snd a sh₁ { snd with cid := cid, pc := q } := by
    intro sh₁ pc q cid ha hp hn hq hu
    exact .away ha hu rfl hq fun b hb => absurd (hp.symm.trans hb) (hn b)
  cases send_turn h with
  | clock millis hp =>
    exact outside rfl hp (fun b hb => by cases hb) (fun b hb => by cases hb) fun _ => rfl
  | takeCid now hp =>
    exact outside rfl hp (fun b hb => by cases hb) (fun b hb => by cases hb) fun _ => rfl
  | borrow h | check h | wake h => exact upload_stepCurrent rfl h
  | drop hp =>
    rcases hp with hp | ⟨now, hp⟩ | ⟨seen, hp⟩
    all_goals
      exact outside rfl hp (fun b hb => by cases hb) (fun b hb => by cases hb) fun _ => rfl
  | body b hb h => exact upload_stepBody hb (fun k => hw b k hb) h

end Maxrs
