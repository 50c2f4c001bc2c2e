import Maxrs.Client
set_option autoImplicit false

/-! What one iteration of a retry loop asks of its connection, and how it can end. -/
namespace Maxrs

/-- The requests that belong to a call: its message, and the upload before it. -/
def Genuine (cid : Int) : SendJob → Nat → Value → Prop
  | .text m, opcode, payload => opcode = Opcode.MSG_SEND ∧ payload = textMessagePayload m cid
  | .file m, opcode, payload =>
    (opcode = Opcode.FILE_UPLOAD ∧ payload = fileUploadPayload) ∨
    (opcode = Opcode.MSG_SEND ∧
      ∃ fileId, Value.fitsI64 fileId = true ∧
        payload = fileMessagePayload m.chatId m.caption fileId cid)

theorem uploadInfo_fits {payload : Value} {url : String} {fileId : Int}
    (h : uploadInfo payload = .ok (url, fileId)) : Value.fitsI64 fileId = true := by
  unfold uploadInfo at h
  repeat' split at h
  all_goals cases h
  exact Value.asI64_fits (by assumption)

def Asked (tr : SendTrace) (op : SendOp) (r : op.Ret) : Prop :=
  (⟨op, r⟩ : (op : SendOp) × op.Ret) ∈ tr

def SendPre (job : SendJob) (cid : Int) (tr : SendTrace) : SendOp → Prop
  | .invoke opcode payload => Genuine cid job opcode payload ∧
      ∀ payload' r, ¬ Asked tr (.invoke opcode payload') r
  | _ => True

def SendPost (tr : SendTrace) : Except Error Unit → Prop
  | .ok () => ∃ payload p, Asked tr (.invoke Opcode.MSG_SEND payload) (.ok p)
  | .error e => (∃ opcode payload, Asked tr (.invoke opcode payload) (.error e)) ∨
      (∃ url headers body, Asked tr (.upload url headers body) (.error e)) ∨
      (∃ waiter, Asked tr (.processed waiter) (.error e)) ∨
      (isTransportFailure e = false ∧ isServerError e = false)

@[simp] theorem asked_nil {op : SendOp} {r : op.Ret} : ¬ Asked [] op r := List.not_mem_nil

@[simp] theorem asked_snoc {tr : SendTrace} {op op' : SendOp} {r : op.Ret} {r' : op'.Ret} :
    Asked (tr ++ [⟨op', r'⟩]) op r ↔
      Asked tr op r ∨ (⟨op, r⟩ : (op : SendOp) × op.Ret) = ⟨op', r'⟩ := by
  simp [Asked]

theorem Asked.mono {tr : SendTrace} {op op' : SendOp} {r : op.Ret} {r' : op'.Ret}
    (h : Asked tr op r) : Asked (tr ++ [⟨op', r'⟩]) op r := asked_snoc.mpr (.inl h)

theorem SendPost.other {tr : SendTrace} {e : Error} (ht : isTransportFailure e = false)
    (hs : isServerError e = false) : SendPost tr (.error e) := .inr (.inr (.inr ⟨ht, hs⟩))

theorem always_message {job : SendJob} {cid : Int} {tr : SendTrace} {payload : Value}
    (hg : Genuine cid job Opcode.MSG_SEND payload)
    (hno : ∀ payload' r, ¬ Asked tr (.invoke Opcode.MSG_SEND payload') r) :
    ((sendInvoke Opcode.MSG_SEND payload).orFail fun _ =>
      (.done (.ok ()) : SendScript (Except Error Unit))).Always (SendPre job cid) SendPost tr := by
  refine (Script.always_orFail _ _ _).mpr ⟨⟨hg, hno⟩, fun r => ?_⟩
  cases r with
  | ok p => exact ⟨payload, p, asked_snoc.mpr (.inr rfl)⟩
  | error e => exact .inl ⟨_, payload, asked_snoc.mpr (.inr rfl)⟩

theorem always_textBody (m : TextMessage) (cid : Int) :
    (textBody m cid).Always (SendPre (.text m) cid) SendPost [] :=
  always_message ⟨rfl, rfl⟩ fun _ _ => asked_nil

theorem always_uploadAndSend (m : FileMessage) (cid : Int) (url : String) (fileId : Int)
    (waiter : AttachmentWaiter) {tr : SendTrace} (hfit : Value.fitsI64 fileId = true)
    (hno : ∀ payload r, ¬ Asked tr (.invoke Opcode.MSG_SEND payload) r) :
    (uploadAndSend m cid url fileId waiter).Always (SendPre (.file m) cid) SendPost tr := by
  refine ⟨trivial, fun r => ?_⟩
  rcases r with e | e | status
  · refine ⟨trivial, fun _ => .inr (.inl ⟨_, _, _, Asked.mono (asked_snoc.mpr (.inr rfl))⟩)⟩
  · exact ⟨trivial, fun _ => .other rfl rfl⟩
  · refine ⟨trivial, fun r => ?_⟩
    rcases r with e | ready
    · exact .inr (.inr (.inl ⟨waiter, asked_snoc.mpr (.inr rfl)⟩))
    · cases ready with
      | false => exact .other rfl rfl
      | true =>
        refine always_message (.inr ⟨rfl, fileId, hfit, rfl⟩) fun payload r h => ?_
        rcases asked_snoc.mp h with h | h
        · rcases asked_snoc.mp h with h | h
          · exact hno payload r h
          · cases h
        · cases h

theorem always_fileBody (m : FileMessage) (cid : Int) :
    (fileBody m cid).Always (SendPre (.file m) cid) SendPost [] := by
  have hne : Opcode.MSG_SEND ≠ Opcode.FILE_UPLOAD := by decide
  refine (Script.always_orFail _ _ _).mpr
    ⟨⟨.inl ⟨rfl, rfl⟩, fun _ _ => asked_nil⟩, fun r => ?_⟩
  cases r with
  | error e => exact .inl ⟨_, _, asked_snoc.mpr (.inr rfl)⟩
  | ok p =>
    have hno : ∀ payload r, ¬ Asked ([] ++ [⟨.invoke Opcode.FILE_UPLOAD fileUploadPayload, .ok p⟩])
        (.invoke Opcode.MSG_SEND payload) r := by
      intro payload r h
      rcases asked_snoc.mp h with h | h
      · exact asked_nil h
      · exact hne (SendOp.invoke.inj (congrArg Sigma.fst h)).1
    simp only [Script.always_done]
    split
    · rename_i e he
      have hkind : isTransportFailure e = false ∧ isServerError e = false := by
        unfold uploadInfo at he
        repeat' split at he
        all_goals cases he
        all_goals exact ⟨rfl, rfl⟩
      exact .other hkind.1 hkind.2
    · rename_i url fileId hinfo
      refine ⟨trivial, fun r => ?_⟩
      cases r with
      | none => exact .other rfl rfl
      | some waiter =>
        refine always_uploadAndSend m cid url fileId waiter (uploadInfo_fits hinfo)
          fun payload r h => ?_
        rcases asked_snoc.mp h with h | h
        · exact hno payload r h
        · cases h

theorem always_body (job : SendJob) (cid : Int) :
    (job.body cid).Always (SendPre job cid) SendPost [] := by
  cases job with
  | text m => exact always_textBody m cid
  | file m => exact always_fileBody m cid

end Maxrs
