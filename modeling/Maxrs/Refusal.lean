import Maxrs.Kit.Observe
import Maxrs.UploadProtocol
set_option autoImplicit false

/-! What `send_uploaded_file` makes of an error status in the answer to its POST. -/
namespace Maxrs

def isErrorStatus (status : Nat) : Bool := 400 ≤ status && status < 600

def Refused (tr : SendTrace) : Prop :=
  ∃ url headers body status, Asked tr (.upload url headers body) (.ok (.ok status)) ∧
    isErrorStatus status = true

def Waited (tr : SendTrace) : Prop := ∃ w ready, Asked tr (.processed w) (.ok ready)

def Unsent (tr : SendTrace) : Prop := ∀ payload r, ¬ Asked tr (.invoke Opcode.MSG_SEND payload) r

def SendOp.isMessage : SendOp → Bool
  | .invoke opcode _ => opcode == Opcode.MSG_SEND
  | _ => false

def RefusedPre (tr : SendTrace) : SendOp → Prop
  | .invoke opcode _ => Unsent tr ∧ (opcode = Opcode.MSG_SEND → Refused tr → Waited tr)
  | .upload _ _ _ => Unsent tr ∧ ¬ Waited tr
  | _ => Unsent tr

def RefusedPost (tr : SendTrace) (r : Except Error Unit) : Prop :=
  Refused tr → Waited tr ∨ (Unsent tr ∧ ∃ e, r = .error e)

theorem unsent_nil : Unsent [] := fun _ _ => asked_nil

theorem unsent_snoc {tr : SendTrace} {op : SendOp} {r : op.Ret} (h : Unsent tr)
    (hop : op.isMessage = false) : Unsent (tr ++ [⟨op, r⟩]) := by
  intro payload r' ha
  rcases asked_snoc.mp ha with ha | ha
  · exact h payload r' ha
  · have he : SendOp.invoke Opcode.MSG_SEND payload = op := congrArg Sigma.fst ha
    rw [← he] at hop
    cases hop

theorem waited_snoc {tr : SendTrace} {op : SendOp} {r : op.Ret} :
    Waited (tr ++ [⟨op, r⟩]) ↔ Waited tr ∨
      ∃ w ready, (⟨op, r⟩ : (op : SendOp) × op.Ret) = ⟨.processed w, .ok ready⟩ := by
  constructor
  · rintro ⟨w, ready, ha⟩
    rcases asked_snoc.mp ha with ha | ha
    · exact .inl ⟨w, ready, ha⟩
    · exact .inr ⟨w, ready, ha.symm⟩
  · rintro (⟨w, ready, ha⟩ | ⟨w, ready, ha⟩)
    · exact ⟨w, ready, ha.mono⟩
    · exact ⟨w, ready, asked_snoc.mpr (.inr ha.symm)⟩

theorem not_refused_nil : ¬ Refused [] := by
  rintro ⟨url, headers, body, status, ha, -⟩
  exact asked_nil ha

theorem refused_snoc {tr : SendTrace} {op : SendOp} {r : op.Ret} (h : Refused (tr ++ [⟨op, r⟩])) :
    Refused tr ∨ ∃ url headers body, op = .upload url headers body := by
  obtain ⟨url, headers, body, status, ha, hs⟩ := h
  rcases asked_snoc.mp ha with ha | ha
  · exact .inl ⟨url, headers, body, status, ha, hs⟩
  · exact .inr ⟨url, headers, body, (congrArg Sigma.fst ha).symm⟩

theorem RefusedPre.unsent {tr : SendTrace} {op : SendOp} (h : RefusedPre tr op) : Unsent tr := by
  cases op with
  | invoke opcode payload | upload url headers body => exact h.1
  | register fileId | processed w | dropWaiter w => exact h

theorem refusedPost_error {tr : SendTrace} {e : Error} (h : Unsent tr) :
    RefusedPost tr (.error e) := fun _ => .inr ⟨h, e, rfl⟩

theorem always_message_refused {tr : SendTrace} {payload : Value} (hu : Unsent tr)
    (hw : Refused tr → Waited tr) :
    ((sendInvoke Opcode.MSG_SEND payload).orFail fun _ =>
      (.done (.ok ()) : SendScript (Except Error Unit))).Always RefusedPre RefusedPost tr := by
  have hpost : ∀ {r : Except Error Packet} {q : Except Error Unit},
      RefusedPost (tr ++ [⟨.invoke Opcode.MSG_SEND payload, r⟩]) q := by
    intro r q h
    rcases refused_snoc h with h | ⟨url, headers, body, h⟩
    · exact .inl (waited_snoc.mpr (.inl (hw h)))
    · cases h
  refine (Script.always_orFail _ _ _).mpr ⟨⟨hu, fun _ => hw⟩, fun r => ?_⟩
  cases r <;> exact hpost

theorem always_uploadAndSend_refused (m : FileMessage) (cid : Int) (url : String) (fileId : Int)
    (w : AttachmentWaiter) {tr : SendTrace} (hu : Unsent tr) (hw : ¬ Waited tr) :
    (uploadAndSend m cid url fileId w).Always RefusedPre RefusedPost tr := by
  refine ⟨⟨hu, hw⟩, fun r => ?_⟩
  have hu₁ := @unsent_snoc tr (.upload url (uploadHeaders (normalizedFileName m.fileName)
    m.bytes.size) m.bytes) r hu rfl
  rcases r with e | e | status
  · exact ⟨hu₁, fun _ => refusedPost_error (unsent_snoc hu₁ rfl)⟩
  · exact ⟨hu₁, fun _ => refusedPost_error (unsent_snoc hu₁ rfl)⟩
  · refine ⟨hu₁, fun r => ?_⟩
    rcases r with e | ready
    · exact refusedPost_error (unsent_snoc hu₁ rfl)
    · cases ready with
      | false => exact refusedPost_error (unsent_snoc hu₁ rfl)
      | true =>
        exact always_message_refused (unsent_snoc hu₁ rfl) fun _ =>
          waited_snoc.mpr (.inr ⟨w, true, rfl⟩)

theorem always_body_refused (job : SendJob) (cid : Int) :
    (job.body cid).Always RefusedPre RefusedPost [] := by
  cases job with
  | text m => exact always_message_refused unsent_nil fun h => absurd h not_refused_nil
  | file m =>
    refine (Script.always_orFail _ _ _).mpr
      ⟨⟨unsent_nil, fun _ h => absurd h not_refused_nil⟩, fun r => ?_⟩
    have hu₁ := @unsent_snoc [] (.invoke Opcode.FILE_UPLOAD fileUploadPayload) r unsent_nil rfl
    cases r with
    | error e => exact refusedPost_error hu₁
    | ok response =>
      simp only [Script.always_done]
      split
      · exact refusedPost_error hu₁
      · rename_i url fileId hinfo
        refine ⟨hu₁, fun r => ?_⟩
        have hu₂ := @unsent_snoc _ (.register fileId) r hu₁ rfl
        cases r with
        | none => exact refusedPost_error hu₂
        | some w =>
          refine always_uploadAndSend_refused m cid url fileId w hu₂ ?_
          rintro ⟨v, ready, ha⟩
          simp [Asked] at ha

inductive LookStep (sh : Shared) (b : SendBody) (a : SendAction) (b' : SendBody) : Prop where
  | same : b'.trace = b.trace → b'.rest = b.rest → (b'.polling = true → b.polling = true) →
      LookStep sh b a b'
  | look : a = .selectPoll → sh.isCancelled b.connection = false → b'.trace = b.trace →
      b'.rest = b.rest → LookStep sh b a b'
  | answer (op : SendOp) (r : op.Ret) (next : op.Ret → SendScript (Except Error Unit)) :
      b.rest = .call op next → b'.trace = b.trace ++ [⟨op, r⟩] → b'.polling = false →
      (∀ w ready, (⟨op, r⟩ : (op : SendOp) × op.Ret) = ⟨.processed w, .ok ready⟩ →
        b.polling = true) → LookStep sh b a b'

variable {setup : Setup} {sh sh' : Shared} {snd snd' : Send} {b b' : SendBody}

theorem look_stepBody {a : SendAction} (h : snd.stepBody setup sh b a = some (sh', snd'))
    (hp : snd.pc = .body b) (hb : snd'.pc = .body b') : LookStep sh b a b' := by
  have asked : ∀ {b₁ : SendBody} {op : SendOp} {r : op.Ret}
      {next : op.Ret → SendScript (Except Error Unit)}, b.rest = .call op next →
      (snd.answer b₁ op r next).pc = .body b' → b₁.trace = b.trace →
      (∀ w ready, (⟨op, r⟩ : (op : SendOp) × op.Ret) = ⟨.processed w, .ok ready⟩ →
        b.polling = true) → LookStep sh b a b' := by
    intro b₁ op r next hr hb ht hpoll
    cases hb
    exact .answer op r next hr (congrArg (· ++ _) ht) rfl hpoll
  cases body_turn h with
  | issue opcode payload next hr hw hm =>
    cases hb
    exact .same rfl rfl id
  | onInvoke k act hw hdrop hm =>
    cases hp.symm.trans hb
    exact .same rfl rfl id
  | take opcode payload next k r hr hw hret => exact asked hr hb rfl fun w ready he => by cases he
  | register fileId next w hr hwaiter hm =>
    exact asked hr hb rfl fun w ready he => by cases he
  | uploadClosed url headers body next hr hc => exact asked hr hb rfl fun w ready he => by cases he
  | waitClosed w next hr hc hm => exact asked hr hb rfl fun v ready he => by cases he
  | select op next hr hop hc =>
    cases hb
    exact .look rfl hc rfl rfl
  | park hpoll =>
    cases hb
    exact .same rfl rfl fun hf => by cases hf
  | uploaded url headers body r next hr hpoll =>
    exact asked hr hb rfl fun w ready he => by cases he
  | processed w next hr hpoll hdone hm => exact asked hr hb rfl fun _ _ _ => hpoll
  | timedOut w next hr hpoll hm => exact asked hr hb rfl fun _ _ _ => hpoll
  | dropWaiter w next hr hm => exact asked hr hb rfl fun v ready he => by cases he
  | failed e hr =>
    simp only [Send.goto] at hb
    split at hb <;> cases hb
  | done _ | dropInvoke _ _ _ | dropSelect _ _ _ _ => cases hb

theorem look_step {a : SendAction} (h : snd.step setup sh a = some (sh', snd'))
    (hb : snd'.pc = .body b') :
    b'.trace = [] ∨ ∃ b, snd.pc = .body b ∧ LookStep sh b a b' := by
  have current : ∀ {f : Current → Option Current},
      Send.stepCurrent sh snd f = some (sh', snd') → b'.trace = [] := by
    intro f h
    simp only [Send.stepCurrent] at h
    split at h
    · obtain ⟨q, -, he⟩ := Option.map_eq_some_iff.mp h
      split at he <;> cases he <;> cases hb
      rfl
    · cases h
  cases send_turn h with
  | clock _ _ | takeCid _ _ | drop _ => cases hb
  | borrow h | check h | wake h => exact .inl (current h)
  | body b hp h => exact .inr ⟨b, hp, look_stepBody h hp hb⟩

/-- What a refused iteration has done, and where it can stand: it neither waits for the file nor
sends the message, and it ends with an error. -/
structure GivesUp (b : SendBody) : Prop where
  idle : ∀ u next, b.rest = .call (.processed u) next → b.polling = false
  unwaited : ¬ Waited b.trace
  unsent : Unsent b.trace
  silent : ∀ payload next, b.rest ≠ .call (.invoke Opcode.MSG_SEND payload) next
  fails : ∀ r, b.rest = .done r → ∃ e, r = .error e

def Unlooked (b : SendBody) : Prop :=
  Refused b.trace → ¬ Waited b.trace ∧
    ∀ u next, b.rest = .call (.processed u) next → b.polling = false

theorem gives_up {job : SendJob} {cid : Int}
    (ha : Script.After (job.body cid) b.trace b.rest) (h : Unlooked b) (hr : Refused b.trace) :
    GivesUp b := by
  obtain ⟨hw, hidle⟩ := h hr
  have halways := always_body_refused job cid
  have hend : ∀ r, b.rest = .done r → Unsent b.trace ∧ ∃ e, r = .error e := by
    intro r hrest
    rw [hrest] at ha
    rcases halways.result ha hr with hw' | h
    · exact absurd hw' hw
    · exact h
  refine ⟨hidle, hw, ?_, fun payload next hrest => ?_, fun r hrest => (hend r hrest).2⟩
  · cases hrest : b.rest with
    | done r => exact (hend r hrest).1
    | call op next =>
      rw [hrest] at ha
      exact (halways.head ha).unsent
  · rw [hrest] at ha
    exact hw ((halways.head ha).2 rfl hr)

theorem Unlooked.step {a : SendAction} {job : SendJob} {cid : Int}
    (ha : Script.After (job.body cid) b.trace b.rest) (h : Unlooked b)
    (hs : LookStep sh b a b')
    (hc : ∀ u next, a = .selectPoll → Refused b.trace → b.rest = .call (.processed u) next →
      sh.isCancelled b.connection = true) : Unlooked b' := by
  intro hr
  cases hs with
  | same ht hrest hp =>
    rw [ht] at hr
    obtain ⟨hw, hidle⟩ := h hr
    rw [ht, hrest]
    refine ⟨hw, fun u next hu => Bool.eq_false_iff.mpr fun hpoll => ?_⟩
    have := hidle u next hu
    rw [hp hpoll] at this
    cases this
  | look hact hn ht hrest =>
    rw [ht] at hr
    rw [ht, hrest]
    refine ⟨(h hr).1, fun u next hu => ?_⟩
    rw [hc u next hact hr hu] at hn
    cases hn
  | answer op r next hrest ht hp hpoll =>
    rw [ht] at hr
    rw [ht]
    rw [hrest] at ha
    refine ⟨fun hw => ?_, fun _ _ _ => hp⟩
    rcases refused_snoc hr with hr | ⟨url, headers, body, rfl⟩
    · obtain ⟨hw₀, hidle⟩ := h hr
      rcases waited_snoc.mp hw with hw | ⟨u, ready, he⟩
      · exact hw₀ hw
      · have hop : op = .processed u := congrArg Sigma.fst he
        subst hop
        have := hidle u next hrest
        rw [hpoll u ready he] at this
        cases this
    · have hpre := (always_body_refused job cid).head ha
      rcases waited_snoc.mp hw with hw | ⟨u, ready, he⟩
      · exact hpre.2 hw
      · cases congrArg Sigma.fst he

namespace Client

variable {w w' : Client}

def RefusalsKept (w : Client) : Prop :=
  ∀ i snd b, w.sends i = some snd → snd.pc = .body b → Refused b.trace → GivesUp b

/-- A refused iteration that looks at its token before the wait finds it cancelled. -/
def LooksCancelled (w : Client) (a : ClientAction) : Prop :=
  ∀ i snd b u next, a = .send i .selectPoll → w.sends i = some snd → snd.pc = .body b →
    Refused b.trace → b.rest = .call (.processed u) next →
      w.shared.isCancelled b.connection = true

def AllUnlooked (w : Client) : Prop :=
  ∀ i snd b, w.sends i = some snd → snd.pc = .body b → Unlooked b

theorem allUnlooked_step {a : ClientAction} (hr : (automaton setup).Reachable w)
    (hi : AllUnlooked w) (hc : LooksCancelled w a) (hs : (automaton setup).step w a = some w') :
    AllUnlooked w' := by
  intro i snd' b' hs' hb'
  cases registry_client hs with
  | quiet _ _ _ hback =>
    rcases hback i snd' hs' with hs' | ⟨_, hno⟩
    · exact hi i snd' b' hs' hb'
    · exact absurd hb' (hno b')
  | frame c frame sh' _ _ _ _ hw =>
    rw [hw] at hs'
    exact hi i snd' b' hs' hb'
  | send j act snd new sh' ha hsnd hst hw =>
    rw [hw] at hs'
    rcases update_some hs' with ⟨rfl, rfl⟩ | ⟨_, hs'⟩
    · rcases look_step hst hb' with ht | ⟨b, hb, hlook⟩
      · intro href
        rw [ht] at href
        exact absurd href not_refused_nil
      · have hafter := ((sendInv_of_reachable hr i snd hsnd).body b hb).after
        exact (hi i snd b hsnd hb).step hafter hlook fun u next hact href hrest =>
          hc i snd b u next (by rw [ha, hact]) hsnd hb href hrest
    · exact hi i snd' b' hs' hb'

theorem waits_of_look {a : ClientAction} (hs : (automaton setup).step w a = some w')
    (hk : RefusalsKept w') : LooksCancelled w a := by
  intro i snd b u next ha hsnd hb href hrest
  refine Bool.eq_true_of_not_eq_false fun hn => ?_
  have hst : w.step setup (.send i .selectPoll) = some w' := ha ▸ hs
  simp only [step, hsnd, Option.bind_some, Send.step, hb, Send.stepBody, hrest, hn] at hst
  split at hst
  · cases hst
  · simp only [Bool.false_eq_true, if_false, Option.map_some, Option.some.injEq] at hst
    have hs' : w'.sends i = some (snd.goto (.body { b with polling := true })) := by
      rw [← hst, hrest]
      exact Function.update_self i _ w.sends
    have hidle := (hk i _ _ hs' rfl href).idle u next hrest
    cases hidle

/-- Over every run, an iteration whose POST is answered with an error status neither waits for its
file nor sends its message and ends with an error, exactly when each such iteration finds its
connection cancelled at its next look. -/
theorem refused_upload (setup : Setup) (millis : Nat) (acts : List ClientAction) :
    (∀ e ∈ (automaton setup).steps (new setup millis) acts, RefusalsKept e.2.2) ↔
      ∀ e ∈ (automaton setup).steps (new setup millis) acts, LooksCancelled e.1 e.2.1 := by
  have hnew : (automaton setup).Reachable (new setup millis) := ⟨_, ⟨millis, rfl⟩, .refl⟩
  constructor
  · intro hk e he
    exact waits_of_look (Automaton.mem_steps he).2 (hk e he)
  · intro hc e he i snd b hsnd hb href
    have hfirst : AllUnlooked (new setup millis) := by
      intro i snd b hsnd
      simp [new] at hsnd
    have hall : AllUnlooked e.2.2 :=
      Automaton.steps_invariant (I := AllUnlooked) hfirst hc
        (fun t a u ht hct hs hi => allUnlooked_step (hnew.path ht) hi hct hs) e he
    obtain ⟨hlead, hs⟩ := Automaton.mem_steps he
    have hru : (automaton setup).Reachable e.2.2 :=
      Automaton.Reachable.tail (hnew.path hlead) hs
    exact gives_up ((sendInv_of_reachable hru i snd hsnd).body b hb).after (hall i snd b hsnd hb)
      href

/-- The server answers the POST of file 11 with 413 and later reports the file as processed; the
message that attaches it is sent. -/
theorem refused_upload_attached : ∃ acts w snd b payload next,
    (automaton uploadSetup).exec (new uploadSetup 0) acts = some w ∧ w.sends 0 = some snd ∧
      snd.pc = .body b ∧ Refused b.trace ∧ b.waiting = some 3 ∧
      b.rest = .call (.invoke Opcode.MSG_SEND payload) next ∧ attachedFile payload = some 11 ∧
      ¬ RefusalsKept w := by
  let file : SendJob := .file { chatId := 1, fileName := "f", bytes := ⟨#[]⟩, caption := "" }
  let acts : List ClientAction := sampleLogin ++
    [.startSend 0 file, .send 0 (.readClock 0), .send 0 .takeCid, .send 0 .borrow,
      .send 0 .check, .send 0 .issue] ++ sampleRequest (fun a => .send 0 (.onInvoke a)) ++
    sampleFrame 0 "upload" ++ sampleAnswer (fun a => .send 0 (.onInvoke a)) ++
    [.send 0 .take, .send 0 .register, .send 0 .selectPoll, .send 0 (.uploaded (.ok 413)),
      .send 0 .selectPoll, .worker 0 (.reader (.frame (some (.text "attach")))),
      .send 0 .processed, .send 0 .issue]
  have hrun : (automaton uploadSetup).exec (new uploadSetup 0) acts =
      some (((automaton uploadSetup).exec (new uploadSetup 0) acts).get rfl) := rfl
  refine ⟨acts, _, _, _, _, _, hrun, rfl, rfl,
    ⟨"u", _, _, 413, .tail _ (.tail _ (.head _)), rfl⟩, rfl, rfl, rfl, fun hk => ?_⟩
  have hgives := hk 0 _ _ rfl rfl ⟨"u", _, _, 413, .tail _ (.tail _ (.head _)), rfl⟩
  exact hgives.silent _ _ rfl

end Client

end Maxrs
