import Maxrs.Uploads
set_option autoImplicit false

/-! The attachment registries over all runs of a client. -/
namespace Maxrs

def Send.waiterOn (snd : Send) (c : ConnId) : Option AttachmentWaiter :=
  match snd.pc with
  | .body b => if b.connection = c then b.waiter else none
  | _ => none

def Client.registryEvent (fromStr : String → Except String Packet) (c : ConnId) (_ : Client)
    (a : ClientAction) (w' : Client) : List (RegistryEvent SendId) :=
  match a with
  | .send i .register => (((w'.sends i).bind (Send.waiterOn · c)).map (.registered i)).toList
  | .worker d (.reader (.frame frame)) =>
    if d = c then ((noticed fromStr frame).map .notified).toList else []
  | _ => []

def Client.registryLog (setup : Setup) (w : Client) (acts : List ClientAction) (c : ConnId) :
    List (RegistryEvent SendId) :=
  (Client.automaton setup).observe (Client.registryEvent setup.fromStr c) w acts

def Client.holds (w : Client) (c : ConnId) (i : SendId) (v : AttachmentWaiter) : Prop :=
  ∃ snd, w.sends i = some snd ∧ snd.waiterOn c = some v

structure SendUpload (log : ConnId → List (RegistryEvent SendId)) (sh : Shared) (i : SendId)
    (snd : Send) : Prop where
  used : ∀ c w, .registered i w ∈ log c → c ∈ snd.used
  once : ∀ c w v, .registered i w ∈ log c → .registered i v ∈ log c → w = v
  mine : ∀ b w, snd.pc = .body b → .registered i w ∈ log b.connection →
    ∃ fileId, Asked b.trace (.register fileId) (some w)
  held : ∀ b, snd.pc = .body b → b.waiter = heldBy b.trace
  asked : ∀ b fileId w, snd.pc = .body b → Asked b.trace (.register fileId) (some w) →
    w.fileId = fileId ∧ .registered i w ∈ log b.connection
  ready : ∀ b w, snd.pc = .body b → Asked b.trace (.processed w) (.ok true) →
    (sh.registry b.connection).completed w.identity = true

structure UploadInv (log : ConnId → List (RegistryEvent SendId)) (w : Client) : Prop where
  ledger : ∀ c, c < w.shared.created → Ledger (w.shared.registry c) (w.holds c) (log c)
  later : ∀ c, w.shared.created ≤ c → log c = []
  known : ∀ c i v, .registered i v ∈ log c → ∃ snd, w.sends i = some snd
  send : ∀ i snd, w.sends i = some snd → SendUpload log w.shared i snd

variable {setup : Setup} {sh sh' : Shared} {snd snd' : Send} {w w' : Client}
  {log log' : ConnId → List (RegistryEvent SendId)} {i : SendId}

theorem waiterOn_body {b : SendBody} (hb : snd.pc = .body b) {c : ConnId} :
    snd.waiterOn c = if b.connection = c then b.waiter else none := by
  rw [Send.waiterOn, hb]

theorem waiterOn_outside (hb : ∀ b, snd.pc ≠ .body b) (c : ConnId) : snd.waiterOn c = none := by
  unfold Send.waiterOn
  split
  · exact absurd (by assumption) (hb _)
  · rfl

theorem SendUpload.mono (h : SendUpload log sh i snd)
    (hlog : ∀ c v, .registered i v ∈ log' c ↔ .registered i v ∈ log c)
    (hc : ∀ b n, snd.pc = .body b → (sh.registry b.connection).completed n = true →
      (sh'.registry b.connection).completed n = true) : SendUpload log' sh' i snd where
  used := fun c v hv => h.used c v ((hlog c v).mp hv)
  once := fun c v u hv hu => h.once c v u ((hlog c v).mp hv) ((hlog c u).mp hu)
  mine := fun b v hb hv => h.mine b v hb ((hlog _ v).mp hv)
  held := h.held
  asked := fun b f v hb ha => ⟨(h.asked b f v hb ha).1, (hlog _ v).mpr (h.asked b f v hb ha).2⟩
  ready := fun b v hb ha => hc b _ hb (h.ready b v hb ha)

theorem SendUpload.outside (h : SendUpload log sh i snd)
    (hlog : ∀ c v, .registered i v ∈ log' c ↔ .registered i v ∈ log c)
    (hu : snd'.used = snd.used) (hb : ∀ b, snd'.pc ≠ .body b) : SendUpload log' sh' i snd' where
  used := fun c v hv => hu ▸ h.used c v ((hlog c v).mp hv)
  once := fun c v u hv hu => h.once c v u ((hlog c v).mp hv) ((hlog c u).mp hu)
  mine := fun b _ hb' => absurd hb' (hb b)
  held := fun b hb' => absurd hb' (hb b)
  asked := fun b _ _ hb' => absurd hb' (hb b)
  ready := fun b _ hb' => absurd hb' (hb b)

/-- A new iteration, on a connection on which the call was not before. -/
theorem SendUpload.fresh {b : SendBody} (h : SendUpload log sh i snd) (hb : snd'.pc = .body b)
    (hused : snd'.used = snd.used ++ [b.connection]) (hnodup : snd'.used.Nodup)
    (ht : b.trace = []) (hnone : b.waiter = none) : SendUpload log sh' i snd' := by
  have hnew : ∀ v, .registered i v ∉ log b.connection := fun v hv => by
    have hdis := (List.nodup_append.mp (hused ▸ hnodup)).2.2
    exact hdis _ (h.used _ v hv) _ (List.mem_singleton.mpr rfl) rfl
  have hnil : ∀ {op : SendOp} {r : op.Ret}, ¬ Asked b.trace op r := by
    intro op r
    rw [ht]
    exact asked_nil
  refine ⟨fun c v hv => ?_, h.once, fun d v hd hv => ?_, fun d hd => ?_,
    fun d f v hd hv => ?_, fun d v hd hv => ?_⟩
  · rw [hused]
    exact List.mem_append_left _ (h.used c v hv)
  all_goals cases hb.symm.trans hd
  · exact absurd hv (hnew v)
  · rw [hnone, ht, heldBy_nil]
  · exact absurd hv hnil
  · exact absurd hv hnil

theorem SendUpload.answer {b b' : SendBody} (tr : SendTrace) (h : SendUpload log sh i snd)
    (hu : snd'.used = snd.used) (hb : snd.pc = .body b) (hb' : snd'.pc = .body b')
    (hcon : b'.connection = b.connection) (ht : b'.trace = b.trace ++ tr)
    (hheld : b'.waiter = heldBy b'.trace)
    (hreg : ∀ fileId r, ¬ Asked tr (.register fileId) (some r))
    (hready : ∀ v, Asked tr (.processed v) (.ok true) →
      (sh.registry b.connection).completed v.identity = true)
    (hc : ∀ n, (sh.registry b.connection).completed n = true →
      (sh'.registry b.connection).completed n = true) : SendUpload log sh' i snd' := by
  have asked_of : ∀ {op : SendOp} {r : op.Ret}, Asked b'.trace op r →
      Asked b.trace op r ∨ Asked tr op r := by
    intro op r ha
    rw [ht] at ha
    exact List.mem_append.mp ha
  have mono : ∀ {op : SendOp} {r : op.Ret}, Asked b.trace op r → Asked b'.trace op r := by
    intro op r ha
    rw [ht]
    exact List.mem_append_left _ ha
  refine ⟨fun c v hv => hu ▸ h.used c v hv, h.once, fun d v hd hv => ?_, fun d hd => ?_,
    fun d f v hd ha => ?_, fun d v hd ha => ?_⟩ <;> cases hb'.symm.trans hd
  · rw [hcon] at hv
    obtain ⟨f, hf⟩ := h.mine b v hb hv
    exact ⟨f, mono hf⟩
  · exact hheld
  · rcases asked_of ha with ha | ha
    · rw [hcon]
      exact h.asked b f v hb ha
    · exact absurd ha (hreg f v)
  · rw [hcon]
    rcases asked_of ha with ha | ha
    · exact hc _ (h.ready b v hb ha)
    · exact hc _ (hready v ha)

theorem SendUpload.register {b b' : SendBody} {fileId : Int} (h : SendUpload log sh i snd)
    (hused : b.connection ∈ snd.used) (hu : snd'.used = snd.used) (hb : snd.pc = .body b)
    (hb' : snd'.pc = .body b') (hcon : b'.connection = b.connection)
    (hw : b'.waiter = ((sh.registry b.connection).register fileId).2)
    (ht : b'.trace = b.trace ++ [⟨.register fileId, b'.waiter⟩])
    (hnone : ∀ g r, ¬ Asked b.trace (.register g) r)
    (hfile : ∀ v, b'.waiter = some v → v.fileId = fileId)
    (hlog : ∀ c v, .registered i v ∈ log' c ↔
      .registered i v ∈ log c ∨ (c = b.connection ∧ b'.waiter = some v))
    (hc : (sh'.registry b.connection).completed = (sh.registry b.connection).completed) :
    SendUpload log' sh' i snd' := by
  have fresh : ∀ v, .registered i v ∉ log b.connection := by
    intro v hv
    obtain ⟨f, hf⟩ := h.mine b v hb hv
    exact hnone f _ hf
  refine ⟨fun c v hv => ?_, fun c v u hv hu => ?_, fun d v hd hv => ?_, fun d hd => ?_,
    fun d f v hd ha => ?_, fun d v hd ha => ?_⟩
  · rw [hu]
    rcases (hlog c v).mp hv with hv | ⟨rfl, -⟩
    · exact h.used c v hv
    · exact hused
  · rcases (hlog c v).mp hv with hold | ⟨rfl, hnew⟩ <;>
      rcases (hlog _ u).mp hu with hold' | ⟨hcb, hnew'⟩
    · exact h.once c v u hold hold'
    · exact absurd (hcb ▸ hold) (fresh v)
    · exact absurd hold' (fresh u)
    · exact Option.some.inj (hnew.symm.trans hnew')
  · cases hb'.symm.trans hd
    rw [hcon] at hv
    rw [ht]
    rcases (hlog _ v).mp hv with hv | ⟨-, hv⟩
    · exact absurd hv (fresh v)
    · exact ⟨fileId, asked_snoc.mpr (.inr (by rw [hv]))⟩
  · cases hb'.symm.trans hd
    rw [ht, heldBy_snoc]
    rfl
  · cases hb'.symm.trans hd
    rw [hcon]
    rw [ht] at ha
    rcases asked_snoc.mp ha with ha | ha
    · exact absurd ha (hnone f _)
    · obtain ⟨rfl, hv⟩ : f = fileId ∧ some v = b'.waiter := by
        injection ha with hop hr
        injection hop with hf
        subst hf
        exact ⟨rfl, hr⟩
      exact ⟨hfile v hv.symm, (hlog _ v).mpr (.inr ⟨rfl, hv.symm⟩)⟩
  · cases hb'.symm.trans hd
    rw [hcon, hc]
    rw [ht] at ha
    rcases asked_snoc.mp ha with ha | ha
    · exact h.ready b v hb ha
    · cases ha

section SendStep

theorem holds_update {c : ConnId} {j : SendId} {v : AttachmentWaiter} :
    Client.holds { w with shared := sh', sends := Function.update w.sends i (some snd') } c j v ↔
      (j = i ∧ snd'.waiterOn c = some v) ∨ (j ≠ i ∧ w.holds c j v) := by
  by_cases hj : j = i
  · subst hj
    simp [Client.holds]
  · simp [Client.holds, hj]

theorem holds_of (hs : w.sends i = some snd) {c : ConnId} {v : AttachmentWaiter} :
    w.holds c i v ↔ snd.waiterOn c = some v := by
  simp [Client.holds, hs]

theorem UploadInv.ledger_still {c : ConnId} (hi : UploadInv log w) (hs : w.sends i = some snd)
    (hc : c < w.shared.created) (hr : sh'.registry c = w.shared.registry c)
    (hh : snd'.waiterOn c = snd.waiterOn c) : Ledger (sh'.registry c)
      (Client.holds { w with shared := sh', sends := Function.update w.sends i (some snd') } c)
      (log c) := by
  rw [hr]
  refine (hi.ledger c hc).congr fun j v => ?_
  rw [holds_update, hh, ← holds_of hs]
  by_cases hj : j = i
  · simp [hj]
  · simp [hj]

theorem UploadInv.ledger_released {b : SendBody} {u : AttachmentWaiter} (hi : UploadInv log w)
    (hs : w.sends i = some snd) (hb : snd.pc = .body b) (hu : b.waiter = some u)
    (hm : w.shared.Moved sh' b.connection ((w.shared.registry b.connection).dropWaiter u))
    (hn : ∀ c, snd'.waiterOn c = none) {c : ConnId} (hc : c < w.shared.created) :
    Ledger (sh'.registry c)
      (Client.holds { w with shared := sh', sends := Function.update w.sends i (some snd') } c)
      (log c) := by
  by_cases hcb : c = b.connection
  · subst hcb
    have hon : snd.waiterOn b.connection = some u := by rw [waiterOn_body hb, if_pos rfl, hu]
    rw [hm.1]
    refine (hi.ledger _ hc).release (i := i) ((holds_of hs).mpr hon) fun j v => ?_
    rw [holds_update, hn]
    by_cases hj : j = i
    · subst hj
      simp [holds_of hs, hon, eq_comm]
    · simp [hj]
  · exact hi.ledger_still hs hc (hm.2 c hcb)
      (by rw [hn, waiterOn_body hb, if_neg (Ne.symm hcb)])

theorem UploadInv.sent (hi : UploadInv log w) (hs : w.sends i = some snd)
    (hcre : sh'.created = w.shared.created)
    (hl : ∀ c, c < w.shared.created → Ledger (sh'.registry c)
      (Client.holds { w with shared := sh', sends := Function.update w.sends i (some snd') } c)
      (log c))
    (hmono : ∀ c n, (w.shared.registry c).completed n = true → (sh'.registry c).completed n = true)
    (hown : SendUpload log sh' i snd') :
    UploadInv log { w with shared := sh', sends := Function.update w.sends i (some snd') } where
  ledger := fun c hc => hl c (hcre ▸ hc)
  later := fun c hc => hi.later c (hcre ▸ hc)
  known := fun c j v hv => by
    obtain ⟨d, hd⟩ := hi.known c j v hv
    by_cases hj : j = i
    · exact ⟨snd', by rw [hj]; exact Function.update_self _ _ _⟩
    · exact ⟨d, (Function.update_of_ne hj _ _).trans hd⟩
  send := fun j d hd => by
    rcases update_some hd with ⟨rfl, rfl⟩ | ⟨_, hd⟩
    · exact hown
    · exact (hi.send j d hd).mono (fun _ _ => Iff.rfl) fun b n _ => hmono b.connection n

theorem registryEvent_quiet {fromStr : String → Except String Packet} {a : SendAction}
    (ha : a.registers = false) (c : ConnId) :
    Client.registryEvent fromStr c w (.send i a) w' = [] := by
  cases a <;> first | rfl | cases ha

theorem moved_mono {c : ConnId} {r : AttachmentRegistry} (h : sh.Moved sh' c r)
    (hr : r.completed = (sh.registry c).completed) (d : ConnId) (n : WaiterId)
    (hn : (sh.registry d).completed n = true) : (sh'.registry d).completed n = true := by
  by_cases hd : d = c
  · subst hd
    rw [h.1, hr, hn]
  · rw [h.2 d hd, hn]

theorem register_completed (r : AttachmentRegistry) (fileId : Int) :
    (r.register fileId).1.completed = r.completed := by
  unfold AttachmentRegistry.register
  split <;> rfl

theorem uploadInv_register {fromStr : String → Except String Packet} {b b' : SendBody}
    {fileId : Int} (hi : UploadInv log w) (hs : w.sends i = some snd)
    (hcre : sh'.created = w.shared.created) (hb : snd.pc = .body b)
    (hbc : b.connection < w.shared.created) (hconn : b.connection ∈ snd.used)
    (hheldby : heldBy b.trace = none) (hnever : ∀ g r, ¬ Asked b.trace (.register g) r)
    (hb' : snd'.pc = .body b') (hused : snd'.used = snd.used) (hcon : b'.connection = b.connection)
    (hheld : b'.waiter = ((w.shared.registry b.connection).register fileId).2)
    (ht : b'.trace = b.trace ++ [⟨.register fileId, b'.waiter⟩])
    (hm : w.shared.Moved sh' b.connection ((w.shared.registry b.connection).register fileId).1)
    (hw : w' = { w with shared := sh', sends := Function.update w.sends i (some snd') }) :
    UploadInv (fun c => log c ++ Client.registryEvent fromStr c w (.send i .register) w') w' := by
  have hown := hi.send i snd hs
  have hevent : ∀ c, Client.registryEvent fromStr c w (.send i .register) w' =
      if b.connection = c then (b'.waiter.map (.registered i)).toList else [] := by
    intro c
    simp only [Client.registryEvent, hw, Function.update_self, Option.bind_some,
        waiterOn_body hb', hcon]
    split <;> rfl
  -- the registry of the connection, when it accepts the registration
  have hledger : ∀ v, b'.waiter = some v → v.fileId = fileId ∧
      Ledger (sh'.registry b.connection) (w'.holds b.connection)
        (log b.connection ++ [.registered i v]) := by
    intro v hv
    rw [hm.1, hw]
    refine (hi.ledger _ hbc).register (hheld ▸ hv) fun j u => ?_
    rw [holds_update, waiterOn_body hb', hcon, if_pos rfl, hv]
    by_cases hj : j = i
    · subst hj
      have hnone : ¬ w.holds b.connection j u := by
        rw [holds_of hs, waiterOn_body hb, if_pos rfl, hown.held b hb, hheldby]
        simp
      simp [hnone, eq_comm]
    · simp [hj]
  have hmem : ∀ c j u, .registered j u ∈
      log c ++ Client.registryEvent fromStr c w (.send i .register) w' ↔
        .registered j u ∈ log c ∨ (c = b.connection ∧ j = i ∧ b'.waiter = some u) := by
    intro c j u
    rw [hevent, List.mem_append]
    by_cases hc : c = b.connection
    · subst hc
      cases b'.waiter <;> simp [eq_comm]
    · simp [hc, Ne.symm hc]
  have hcompleted := register_completed (w.shared.registry b.connection) fileId
  have hmono := moved_mono hm hcompleted
  have hnew : SendUpload
      (fun c => log c ++ Client.registryEvent fromStr c w (.send i .register) w') sh' i snd' :=
    hown.register hconn hused hb hb' hcon hheld ht hnever
      (fun v hv => (hledger v hv).1) (fun c v => by rw [hmem]; simp) (by rw [hm.1, hcompleted])
  have still : ∀ c, c < w.shared.created → c ≠ b.connection →
      Ledger (sh'.registry c) (w'.holds c) (log c) := by
    intro c hc hcb
    rw [hw]
    refine hi.ledger_still hs hc (hm.2 c hcb) ?_
    rw [waiterOn_body hb', waiterOn_body hb, hcon, if_neg (Ne.symm hcb), if_neg (Ne.symm hcb)]
  have hcreated : w'.shared.created = w.shared.created := by rw [hw, hcre]
  have hshared : w'.shared = sh' := by rw [hw]
  refine ⟨fun c hc => ?_, fun c hc => ?_, fun c j u hu => ?_, fun j d hd => ?_⟩
  · rw [hcreated] at hc
    rw [hshared, hevent]
    by_cases hcb : c = b.connection
    · subst hcb
      rw [if_pos rfl]
      cases hwt : b'.waiter with
      | some v => exact (hledger v hwt).2
      | none =>
        have hsame : ((w.shared.registry b.connection).register fileId).1 =
            w.shared.registry b.connection := by
          rcases (w.shared.registry b.connection).register_cases fileId with ⟨he, -⟩ | ⟨-, he⟩
          · rw [he]
          · rw [hheld, he] at hwt
            cases hwt
        rw [hw]
        simp only [Option.map_none, Option.toList_none, List.append_nil]
        refine hi.ledger_still hs hc (hm.1.trans hsame) ?_
        rw [waiterOn_body hb', waiterOn_body hb, hcon, hwt, hown.held b hb, hheldby]
    · rw [if_neg (Ne.symm hcb), List.append_nil]
      exact still c hc hcb
  · rw [hcreated] at hc
    rw [hevent, if_neg, List.append_nil]
    · exact hi.later c hc
    · rintro rfl
      exact Nat.lt_irrefl _ (Nat.lt_of_lt_of_le hbc hc)
  · rcases (hmem c j u).mp hu with hu | ⟨-, rfl, -⟩
    · obtain ⟨d, hd⟩ := hi.known c j u hu
      by_cases hj : j = i
      · exact ⟨snd', by rw [hw, hj]; exact Function.update_self _ _ _⟩
      · exact ⟨d, by rw [hw]; exact (Function.update_of_ne hj _ _).trans hd⟩
    · exact ⟨snd', by rw [hw]; exact Function.update_self _ _ _⟩
  · rw [hshared]
    rw [hw] at hd
    rcases update_some hd with ⟨rfl, rfl⟩ | ⟨hj, hd⟩
    · exact hnew
    · exact (hi.send j d hd).mono (fun c v => by rw [hmem]; simp [hj])
        fun b n _ => hmono b.connection n

theorem uploadInv_send {fromStr : String → Except String Packet} {a : SendAction}
    (hi : UploadInv log w) (hs : w.sends i = some snd) (hsi : SendInv w.shared snd)
    (hbody : ∀ b, snd.pc = .body b → b.connection < w.shared.created)
    (hnodup : snd'.used.Nodup) (hcre : sh'.created = w.shared.created)
    (h : UploadStep w.shared snd a sh' snd')
    (hw : w' = { w with shared := sh', sends := Function.update w.sends i (some snd') }) :
    UploadInv (fun c => log c ++ Client.registryEvent fromStr c w (.send i a) w') w' := by
  have quiet : a.registers = false →
      (fun c => log c ++ Client.registryEvent fromStr c w (.send i a) w') = log := by
    intro ha
    funext c
    rw [registryEvent_quiet ha, List.append_nil]
  have hown := hi.send i snd hs
  -- what the iteration has asked tells which waiter it holds
  have script : ∀ b, snd.pc = .body b → b.rest.Always UploadPre UploadPost b.trace := fun b hb =>
    (always_body_upload snd.job snd.cid).after (hsi.body b hb).after
  have nothing : ∀ b, snd.pc = .body b → ((∃ r, b.rest = .done r) ∨
      ∃ opcode payload next, b.rest = .call (.invoke opcode payload) next) → b.waiter = none := by
    intro b hb hr
    have hscript := script b hb
    rw [hown.held b hb]
    rcases hr with ⟨r, hr⟩ | ⟨opcode, payload, next, hr⟩
    · rw [hr] at hscript
      exact hscript
    · rw [hr] at hscript
      exact hscript.1.1
  cases h with
  | away ha hu hused hout hrest =>
    rw [quiet ha, hw]
    refine hi.sent hs hcre (fun c hc => hi.ledger_still hs hc (hu c) ?_)
      (fun c n hn => by rw [hu c, hn]) (hown.outside (fun _ _ => Iff.rfl) hused hout)
    rw [waiterOn_outside hout, Send.waiterOn]
    split
    · rename_i b hb
      rw [nothing b hb (hrest b hb), ite_self]
    · rfl
  | fresh b' ha hu hout hb' hused ht hnone =>
    rw [quiet ha, hw]
    refine hi.sent hs hcre (fun c hc => hi.ledger_still hs hc (hu c) ?_)
      (fun c n hn => by rw [hu c, hn]) (hown.fresh hb' hused hnodup ht hnone)
    rw [waiterOn_body hb', hnone, ite_self, waiterOn_outside hout]
  | same b b' ha hu hb hb' hused hcon hheld ht =>
    rw [quiet ha, hw]
    refine hi.sent hs hcre (fun c hc => hi.ledger_still hs hc (hu c) ?_)
      (fun c n hn => by rw [hu c, hn]) ?_
    · rw [waiterOn_body hb', waiterOn_body hb, hcon, hheld]
    · refine hown.answer [] hused hb hb' hcon (by simp [ht])
        (by rw [hheld, ht, hown.held b hb]) (fun f r => asked_nil) (fun v hv => absurd hv asked_nil)
        fun n hn => by rw [hu, hn]
  | answer b b' op r next ha hu hb hr hb' hused hcon hheld ht hop =>
    rw [quiet ha, hw]
    refine hi.sent hs hcre (fun c hc => hi.ledger_still hs hc (hu c) ?_)
      (fun c n hn => by rw [hu c, hn]) ?_
    · rw [waiterOn_body hb', waiterOn_body hb, hcon, hheld]
    · refine hown.answer [⟨op, r⟩] hused hb hb' hcon ht ?_ (fun f q hq => ?_) (fun v hv => ?_)
        fun n hn => by rw [hu, hn]
      · rw [hheld, ht, heldBy_snoc, hown.held b hb]
        rcases hop with ⟨o, p, rfl⟩ | ⟨url, headers, body, rfl⟩ <;> rfl
      · rcases hop with ⟨o, p, rfl⟩ | ⟨url, headers, body, rfl⟩ <;>
          cases List.mem_singleton.mp hq
      · rcases hop with ⟨o, p, rfl⟩ | ⟨url, headers, body, rfl⟩ <;>
          cases List.mem_singleton.mp hv
  | register b b' fileId next ha hb hr hb' hused hcon hheld ht hm =>
    subst ha
    have hscript := script b hb
    rw [hr] at hscript
    exact uploadInv_register hi hs hcre hb (hbody b hb) (hsi.body b hb).used hscript.1.1
      hscript.1.2 hb' hused hcon hheld ht hm hw
  | release b b' v op r next ha hb hr hop hb' hused hcon hheld ht hready hm =>
    rw [quiet ha, hw]
    have hv : b.waiter = some v := by
      have hscript := script b hb
      rw [hr] at hscript
      rw [hown.held b hb]
      rcases hop with rfl | rfl <;> exact hscript.1
    have hmono := moved_mono hm (AttachmentRegistry.dropWaiter_completed _ _)
    refine hi.sent hs hcre (fun c hc => hi.ledger_released hs hb hv hm (fun d => ?_) hc)
      hmono ?_
    · rw [waiterOn_body hb', hheld, ite_self]
    · refine hown.answer [⟨op, r⟩] hused hb hb' hcon ht ?_ (fun f q hq => ?_) (fun u hu => ?_)
        (hmono _)
      · rw [hheld, ht, heldBy_snoc]
        rcases hop with rfl | rfl <;> rfl
      · rcases hop with rfl | rfl <;> cases List.mem_singleton.mp hq
      · exact hready u (List.mem_singleton.mp hu).symm
  | drop b v ha hb hheld hout hused hm =>
    rw [quiet ha, hw]
    exact hi.sent hs hcre (fun c hc => hi.ledger_released hs hb hheld hm
      (waiterOn_outside hout) hc)
      (moved_mono hm (AttachmentRegistry.dropWaiter_completed _ _))
      (hown.outside (fun _ _ => Iff.rfl) hused hout)

end SendStep

theorem UploadInv.frame (hi : UploadInv log w) (hle : w.shared.created ≤ w'.shared.created)
    (hreg : w.shared.SameRegistries w'.shared)
    (hnew : ∀ c, w.shared.created ≤ c → c < w'.shared.created → w'.shared.registry c = .new)
    (hold : ∀ j d, w.sends j = some d → w'.sends j = some d)
    (hsends : ∀ j d, w'.sends j = some d →
      w.sends j = some d ∨ (w.sends j = none ∧ ∀ b, d.pc ≠ .body b))
    (hbody : ∀ j d b, w.sends j = some d → d.pc = .body b → b.connection < w.shared.created) :
    UploadInv log w' := by
  have hholds : ∀ c j v, w'.holds c j v ↔ w.holds c j v := by
    intro c j v
    constructor
    · rintro ⟨d, hd, hv⟩
      rcases hsends j d hd with hd | ⟨-, hout⟩
      · exact ⟨d, hd, hv⟩
      · rw [waiterOn_outside hout] at hv
        cases hv
    · rintro ⟨d, hd, hv⟩
      exact ⟨d, hold j d hd, hv⟩
  refine ⟨fun c hc => ?_, fun c hc => hi.later c (Nat.le_trans hle hc), fun c j v hv => ?_,
    fun j d hd => ?_⟩
  · by_cases hlt : c < w.shared.created
    · rw [hreg c hlt]
      exact (hi.ledger c hlt).congr (hholds c)
    · rw [hnew c (Nat.le_of_not_lt hlt) hc, hi.later c (Nat.le_of_not_lt hlt)]
      refine Ledger.new fun j v hv => ?_
      obtain ⟨d, hd, hv⟩ := (hholds c j v).mp hv
      unfold Send.waiterOn at hv
      split at hv
      · rename_i b hb
        split at hv
        · rename_i hcb
          exact hlt (hcb ▸ hbody j d b hd hb)
        · cases hv
      · cases hv
  · obtain ⟨d, hd⟩ := hi.known c j v hv
    exact ⟨d, hold j d hd⟩
  · rcases hsends j d hd with hd | ⟨hnone, hout⟩
    · exact (hi.send j d hd).mono (fun _ _ => Iff.rfl)
        fun b n hb hn => by rw [hreg _ (hbody j d b hd hb), hn]
    · have hno : ∀ c v, .registered j v ∉ log c := by
        intro c v hv
        obtain ⟨d, hd⟩ := hi.known c j v hv
        rw [hnone] at hd
        cases hd
      exact ⟨fun c v hv => absurd hv (hno c v), fun c v u hv => absurd hv (hno c v),
        fun b v _ hv => absurd hv (hno _ v), fun b hb => absurd hb (hout b),
        fun b f v hb => absurd hb (hout b), fun b v hb => absurd hb (hout b)⟩

theorem UploadInv.frame_read {c : ConnId} (notice : Option Int) (hi : UploadInv log w)
    (hc : c < w.shared.created)
    (hm : w.shared.Moved sh' c ((w.shared.registry c).notice notice))
    (hcre : sh'.created = w.shared.created) :
    UploadInv (fun d => log d ++ if c = d then (notice.map .notified).toList else [])
      { w with shared := sh' } := by
  have hmem : ∀ d j v, .registered j v ∈ log d ++
      (if c = d then (notice.map .notified).toList else []) ↔ .registered j v ∈ log d := by
    intro d j v
    cases notice <;> by_cases hd : c = d <;> simp [hd]
  refine ⟨fun d hd => ?_, fun d hd => ?_, fun d j v hv => hi.known d j v ((hmem d j v).mp hv),
    fun j d hd => (hi.send j d hd).mono (fun d v => hmem d j v) fun b n _ hn => ?_⟩
  · rw [hcre] at hd
    by_cases hcd : c = d
    · subst hcd
      rw [if_pos rfl, hm.1]
      cases notice with
      | none =>
        rw [Option.map_none, Option.toList_none, List.append_nil]
        exact hi.ledger c hd
      | some fileId => exact (hi.ledger c hd).complete fileId
    · rw [if_neg hcd, List.append_nil, hm.2 d (Ne.symm hcd)]
      exact hi.ledger d hd
  · rw [hcre] at hd
    rw [if_neg, List.append_nil]
    · exact hi.later d hd
    · rintro rfl
      exact Nat.lt_irrefl _ (Nat.lt_of_lt_of_le hc hd)
  · by_cases hb : b.connection = c
    · rw [hb] at hn ⊢
      rw [hm.1]
      cases notice with
      | none => exact hn
      | some fileId => simp [AttachmentRegistry.notice, hn]
    · rw [hm.2 _ hb, hn]

inductive RegistryStep (setup : Setup) (w : Client) (a : ClientAction) (w' : Client) : Prop where
  | quiet : (∀ c, Client.registryEvent setup.fromStr c w a w' = []) →
      w.shared.SameRegistries w'.shared → (∀ j d, w.sends j = some d → w'.sends j = some d) →
      (∀ j d, w'.sends j = some d → w.sends j = some d ∨ (w.sends j = none ∧ ∀ b, d.pc ≠ .body b)) →
      RegistryStep setup w a w'
  | frame (c : ConnId) (frame : Option Frame) (sh' : Shared) :
      a = .worker c (.reader (.frame frame)) → c < w.shared.created →
      w.shared.Moved sh' c ((w.shared.registry c).notice (noticed setup.fromStr frame)) →
      sh'.created = w.shared.created → w' = { w with shared := sh' } → RegistryStep setup w a w'
  | send (i : SendId) (b : SendAction) (snd snd' : Send) (sh' : Shared) : a = .send i b →
      w.sends i = some snd → snd.step setup w.shared b = some (sh', snd') →
      w' = { w with shared := sh', sends := Function.update w.sends i (some snd') } →
      RegistryStep setup w a w'

theorem registry_client {a : ClientAction} (h : w.step setup a = some w') :
    RegistryStep setup w a w' := by
  have quiet : (∀ c, Client.registryEvent setup.fromStr c w a w' = []) →
      w.shared.SameRegistries w'.shared → w'.sends = w.sends → RegistryStep setup w a w' :=
    fun hev hreg hs => .quiet hev hreg (fun j d hd => by rw [hs, hd])
      fun j d hd => .inl (by rw [← hs, hd])
  cases a with
  | startRun r | startDisconnect d =>
    simp only [Client.step] at h
    split at h <;> cases h
    exact quiet (fun _ => rfl) (fun _ _ => rfl) rfl
  | run r b =>
    obtain ⟨run, _, h⟩ := Option.bind_eq_some_iff.mp h
    obtain ⟨out, hout, rfl⟩ := Option.map_eq_some_iff.mp h
    exact quiet (fun _ => rfl) (registry_run hout) rfl
  | disconnect d b =>
    obtain ⟨pc, _, h⟩ := Option.bind_eq_some_iff.mp h
    obtain ⟨out, hout, rfl⟩ := Option.map_eq_some_iff.mp h
    exact quiet (fun _ => rfl) (registry_disconnect (disconnect_step hout)) rfl
  | startSend j job =>
    simp only [Client.step] at h
    split at h <;> cases h
    rename_i hnone
    refine .quiet (fun _ => rfl) (fun _ _ => rfl) (fun i d hd => ?_) (fun i d hd => ?_)
    · refine (Function.update_of_ne ?_ _ _).trans hd
      rintro rfl
      rw [hnone] at hd
      cases hd
    · rcases update_some hd with ⟨rfl, rfl⟩ | ⟨_, hd⟩
      · exact .inr ⟨hnone, fun b hb => by cases hb⟩
      · exact .inl hd
  | worker c b =>
    simp only [Client.step, Option.ite_none_right_eq_some] at h
    obtain ⟨hc, h⟩ := h
    obtain ⟨sh, hsh, rfl⟩ := Option.map_eq_some_iff.mp h
    obtain ⟨s, hs, rfl⟩ := onSession_eq hsh
    have hregs := registry_setSession w.shared c (s := s)
    have other : b.toGeneration.reachesRegistry = false →
        w.shared.SameRegistries (w.shared.setSession c s) := by
      intro hreach d _
      rw [hregs]
      split
      · rename_i hd
        rw [hd, registry_act hs hreach, Shared.registry]
      · rfl
    cases b with
    | keepalive k => exact quiet (fun _ => rfl) (other rfl) rfl
    | reader r =>
      cases r with
      | frame frame =>
        obtain ⟨g, hg, rfl⟩ := Session.act_eq hs
        refine .frame c frame (w.shared.setSession c _) rfl hc ⟨?_, fun d hd => ?_⟩ rfl rfl
        · rw [hregs, if_pos rfl]
          exact Generation.registry_frame hg
        · rw [hregs, if_neg hd]
      | start | received | ack k | filter | forward | abort =>
        exact quiet (fun _ => rfl) (other rfl) rfl
  | send i b =>
    obtain ⟨snd, hsnd, h⟩ := Option.bind_eq_some_iff.mp h
    obtain ⟨⟨sh, snd'⟩, hst, he⟩ := Option.map_eq_some_iff.mp h
    exact .send i b snd snd' sh rfl hsnd hst he.symm

theorem invoke_of_waiting (hsi : SendInv sh snd) (b : SendBody) (k : CallId)
    (hb : snd.pc = .body b) (hk : b.waiting = some k) :
    ∃ opcode payload next, b.rest = .call (.invoke opcode payload) next := by
  obtain ⟨-, o, p, next, -, hrest, -⟩ := (hsi.body b hb).waiting k hk
  exact ⟨o, p, next, hrest⟩

theorem uploadInv_step {a : ClientAction} (hr : (Client.automaton setup).Reachable w)
    (h : w.step setup a = some w') (hi : UploadInv log w) :
    UploadInv (fun c => log c ++ Client.registryEvent setup.fromStr c w a w') w' := by
  have hinv := clientInv_of_reachable hr
  have hbody := hinv.handles.body
  have hr' : (Client.automaton setup).Reachable w' := hr.tail (a := a) h
  cases registry_client h with
  | quiet hev hreg hold hsends =>
    have hlog : (fun c => log c ++ Client.registryEvent setup.fromStr c w a w') = log := by
      funext c
      rw [hev, List.append_nil]
    rw [hlog]
    refine hi.frame (client_grows (client_step h) hinv).created hreg (fun c hle hlt => ?_) hold
      hsends fun j d b hd hb => (hbody j d b hd hb).1
    rcases created_change ((client_step h).change hinv.handles) hlt with hlt | ⟨config, he, -, -⟩
    · exact absurd hle (Nat.not_le_of_lt hlt)
    · rw [Shared.registry, he]
      rfl
  | frame c frame sh ha hc hm hcre he =>
    subst ha he
    exact hi.frame_read _ hc hm hcre
  | send i b snd snd' sh ha hsnd hst he =>
    subst ha
    have hsi := sendInv_of_reachable hr i snd hsnd
    have hsi' := sendInv_of_reachable hr' i snd' (by rw [he]; exact Function.update_self _ _ _)
    exact uploadInv_send hi hsnd hsi (fun b hb => (hbody i snd b hsnd hb).1) hsi'.nodup
      (send_step hst).control.created (upload_step (invoke_of_waiting hsi) hst) he

theorem completed_step {a : ClientAction} {c : ConnId} {n : WaiterId}
    (hr : (Client.automaton setup).Reachable w) (h : w.step setup a = some w')
    (hc : c < w.shared.created) (hn : (w.shared.registry c).completed n = true) :
    (w'.shared.registry c).completed n = true := by
  cases registry_client h with
  | quiet hev hreg hold hsends => rw [hreg c hc, hn]
  | frame d frame sh ha hd hm hcre he =>
    subst he
    by_cases hcd : c = d
    · subst hcd
      rw [hm.1]
      cases noticed setup.fromStr frame with
      | none => exact hn
      | some fileId => simp [AttachmentRegistry.notice, hn]
    · rw [hm.2 c hcd, hn]
  | send i b snd snd' sh ha hsnd hst he =>
    subst he
    have hsi := sendInv_of_reachable hr i snd hsnd
    cases upload_step (invoke_of_waiting hsi) hst with
    | away _ hu | fresh _ _ hu | same _ _ _ hu | answer _ _ _ _ _ _ hu => rw [hu c, hn]
    | register b b' fileId next _ _ _ _ _ _ _ _ hm =>
      exact moved_mono hm (register_completed _ _) c n hn
    | release b b' v op r next _ _ _ _ _ _ _ _ _ _ hm =>
      exact moved_mono hm (AttachmentRegistry.dropWaiter_completed _ _) c n hn
    | drop b v _ _ _ _ _ hm =>
      exact moved_mono hm (AttachmentRegistry.dropWaiter_completed _ _) c n hn

theorem uploadInv_of_exec {millis : Nat} {acts : List ClientAction}
    (h : (Client.automaton setup).exec (Client.new setup millis) acts = some w) :
    UploadInv (Client.registryLog setup (Client.new setup millis) acts) w := by
  have hr : (Client.automaton setup).Reachable (Client.new setup millis) := .init ⟨millis, rfl⟩
  refine Automaton.exec_invariant
    (I := fun as t => UploadInv (Client.registryLog setup (Client.new setup millis) as) t) h ?_
    fun as a t u ht hs hi => ?_
  · refine ⟨fun c hc => absurd hc (Nat.not_lt_zero c), fun c _ => rfl, fun c j v hv => ?_,
      fun j d hd => ?_⟩
    · exact absurd hv List.not_mem_nil
    · cases hd
  · have hlog : Client.registryLog setup (Client.new setup millis) (as ++ [a]) = fun c =>
        Client.registryLog setup (Client.new setup millis) as c ++
          Client.registryEvent setup.fromStr c t a u := by
      funext c
      exact Automaton.observe_snoc ht hs
    rw [hlog]
    exact uploadInv_step (hr.exec ht) hs hi

end Maxrs
