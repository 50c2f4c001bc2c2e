import Maxrs.ClientInv
import Maxrs.Pipeline
set_option autoImplicit false

/-! The filter of incoming messages, against the login that tells it who we are. -/
namespace Maxrs

namespace Generation

/-- Frame `n` was the successful response to a `LOGIN`, and named account `u`. -/
def LoginNamed (g : Generation) (n : Nat) (u : Int) : Prop :=
  ∃ k c p, .answered k n p ∈ g.transport.log ∧ g.transport.calls k = some c ∧
    c.opcode = Opcode.LOGIN ∧ p.isError = false ∧ userIdFromLoginPayload p.payload = .ok u

/-- No message of the account gets past the filter behind the frame that named it. -/
def LeakFree (g : Generation) : Prop :=
  ∀ n u j m, LoginNamed g n u → n < j → m.sender = u →
    (j, m) ∉ g.forwarded ∧ g.reader ≠ .forwarding j m

/-- When the filter looks at a message, it knows the account if the reader does. -/
def Informed (g g' : Generation) : Prop :=
  ∀ n j m, g.reader = .filtering j m → g'.reader ≠ .filtering j m →
    LoginNamed g n m.sender → n < j → g.ownUserId = some m.sender

variable {fromStr : String → Except String Packet} {g g' : Generation}

theorem loginNamed_step {a : GenerationAction} {n : Nat} {u : Int}
    (h : g.step fromStr a = some g') (hi : GenerationInv g) (hn : LoginNamed g' n u) :
    LoginNamed g n u ∨ g.transport.reads ≤ n + 1 := by
  obtain ⟨k, c', p, ha, hc', ho, hp, hu⟩ := hn
  have hl := logStep_step h
  have hold : .answered k n p ∈ g.transport.log ∨ g.transport.receiving = some (n, p) := by
    rcases hl with he | ⟨e, he, hem⟩ <;> rw [he] at ha
    · exact .inl ha
    · rcases List.mem_append.mp ha with ha | ha
      · exact .inl ha
      · cases List.mem_singleton.mp ha
        exact .inr hem
  rcases hold with hold | hrec
  · have ht := Transport.transportInv_of_reachable hi.transport
    obtain ⟨-, -, c, hc, -⟩ := ht.answered k n p hold
    obtain ⟨d, hd, hdo, -⟩ := (grows_step h hi).transport.calls k c hc
    cases hc'.symm.trans hd
    exact .inl ⟨k, c, p, hold, hc, hdo.symm.trans ho, hp, hu⟩
  · exact .inr (Nat.le_of_eq (Transport.receiving_last hi.transport n p hrec).symm)

theorem message_read {j : Nat} {m : IncomingMessage} (hi : GenerationInv g) (hp : PipelineInv g)
    (h : g.reader.message = some (j, m) ∨ (j, m) ∈ g.forwarded) : j < g.transport.reads := by
  have hb : ∃ q, Brought g.transport.log j m q := by
    rcases h with h | h
    · exact hp.message j m h
    · exact (hp.forwarded j m h).2
  obtain ⟨q, p, hr, -⟩ := hb
  exact (Transport.transportInv_of_reachable hi.transport).reads j p hr

theorem past_step {j : Nat} {m : IncomingMessage} (h : PipeStep g g')
    (hm : (j, m) ∈ g'.forwarded ∨ g'.reader = .forwarding j m) :
    ((j, m) ∈ g.forwarded ∨ g.reader = .forwarding j m) ∨
      (g.reader = .filtering j m ∧ g'.reader ≠ .filtering j m ∧
        isFilteredIncomingMessage m g.ownUserId = false) := by
  have same : ∀ {x : Generation}, SameChannel g x → x.reader = g.reader →
      (j, m) ∈ x.forwarded ∨ x.reader = .forwarding j m →
      (j, m) ∈ g.forwarded ∨ g.reader = .forwarding j m := by
    intro x hc hr hx
    rw [hc.forwarded, hr] at hx
    exact hx
  have notForwarding : ∀ {r : ReaderPc}, r.message = none → r ≠ .forwarding j m := by
    rintro r hr rfl
    cases hr
  cases h with
  | beside hb => exact .inl (same hb.channel hb.reader hm)
  | spawn hr hs =>
    subst hs
    exact .inl (.inl (hm.resolve_right nofun))
  | recv x rest hx hin hs =>
    subst hs
    exact .inl hm
  | drop x hb hs =>
    subst hs
    exact .inl (same hb.channel hb.reader hm)
  | abortAll hs =>
    subst hs
    exact .inl hm
  | reader _ hr =>
    cases hr with
    | turn hc _ h₁ _ _ _ _ =>
      exact .inl (.inl (hc.forwarded ▸ hm.resolve_right (notForwarding h₁)))
    | notif n x p hc _ hr' _ _ _ _ =>
      exact .inl (.inl (hc.forwarded ▸ hm.resolve_right (by simp [hr'])))
    | acking n x hc _ hr' _ =>
      refine .inl (.inl (hc.forwarded ▸ hm.resolve_right fun h => ?_))
      rcases hr' with ⟨h', -⟩ | ⟨h', -⟩ <;> cases h'.symm.trans h
    | held n x _ _ hs =>
      subst hs
      exact .inl (.inl (hm.resolve_right nofun))
    | passed n x hr' hfil hs =>
      subst hs
      rcases hm with hm | hm
      · exact .inl (.inl hm)
      · cases hm
        exact .inr ⟨hr', nofun, hfil⟩
    | sent n x hr' _ hs =>
      subst hs
      rcases List.mem_append.mp (hm.resolve_right nofun) with hm | hm
      · exact .inl (.inl hm)
      · cases List.mem_singleton.mp hm
        exact .inl (.inr hr')
    | unsent n x _ _ hs =>
      subst hs
      exact .inl (.inl (hm.resolve_right nofun))
    | aborted hc _ hr' _ _ => exact .inl (.inl (hc.forwarded ▸ hm.resolve_right (by simp [hr'])))

theorem leakFree_step {a : GenerationAction} (h : g.step fromStr a = some g')
    (hi : GenerationInv g) (hp : PipelineInv g) (hinf : Informed g g') (hl : LeakFree g) :
    LeakFree g' := by
  intro n u j m hn hlt hu
  rw [← not_or]
  intro hm
  have hpast := past_step (pipe_step h) hm
  have hread : j < g.transport.reads := by
    refine message_read (m := m) hi hp ?_
    rcases hpast with (hf | hf) | ⟨hf, -⟩
    · exact .inr hf
    · exact .inl (by rw [hf]; rfl)
    · exact .inl (by rw [hf]; rfl)
  have hnamed := (loginNamed_step h hi hn).resolve_right (by omega)
  rcases hpast with hold | ⟨hf, hleft, hfil⟩
  · exact (not_or.mpr (hl n u j m hnamed hlt hu)) hold
  · subst hu
    rw [hinf n j m hf hleft hnamed hlt, isFiltered_own rfl] at hfil
    cases hfil

end Generation

variable {setup : Setup} {w w' : Client}

/-- In this step every filter is informed: a step of the reader at `own_user_id()` comes behind
`set_own_user_id` whenever the response that names the sender has been read. -/
def FilterInformed (setup : Setup) (w : Client) (a : ClientAction) : Prop :=
  ∀ w' c, w.step setup a = some w' → c < w.shared.created →
    Generation.Informed (w.shared.sessions c).generation (w'.shared.sessions c).generation

theorem leakFree_of_informed
    (h : (Client.automaton setup).ReachableBy (FilterInformed setup) w) :
    ∀ c, c < w.shared.created → Generation.LeakFree (w.shared.sessions c).generation := by
  refine h.invariant_of
    (I := fun w => ∀ c, c < w.shared.created → Generation.LeakFree (w.shared.sessions c).generation)
    (fun w hw c hc => ?_) fun w a w' hr hok hs hi c hc => ?_
  · obtain ⟨millis, rfl⟩ := hw
    exact absurd hc (Nat.not_lt_zero c)
  · have hinv := clientInv_of_reachable hr.reachable
    have hch := (client_step hs).change hinv.handles
    rcases created_change hch hc with hc' | ⟨config, he, -⟩
    · rcases session_change hch hc' with he | ⟨b, hb, -⟩
      · rw [he]
        exact hi c hc'
      · rcases (Session.change_step hb).generation with he | ⟨d, hd, -⟩
        · rw [he]
          exact hi c hc'
        · have hsession := hinv.shared.sessions c hc'
          exact Generation.leakFree_step hd (Session.inv_of_reachable hsession).generation
            (Generation.pipelineInv_of_reachable (Session.generation_reachable hsession))
            (hok w' c hs hc') (hi c hc')
    · rw [he]
      rintro n u j m ⟨k, d, p, ha, -⟩
      cases ha

namespace Client

theorem step_worker {c : ConnId} {a : WorkerAction} {g : Generation} (hc : c < w.shared.created)
    (h : (w.shared.sessions c).generation.step setup.fromStr a.toGeneration = some g) :
    w.step setup (.worker c a) = some
      { w with shared := w.shared.setSession c { w.shared.sessions c with generation := g } } := by
  simp [step, hc, Shared.onSession, Session.act, h]

/-- The sender 543835 never gets through, and no message of the account behind the response
that names it, as long as every filter is informed; one that is not lets its message through. -/
theorem own_messages_filtered :
    (∀ w, (automaton setup).Reachable w → ∀ c, c < w.shared.created → ∀ j m,
      (j, m) ∈ (w.shared.sessions c).generation.forwarded →
      m.sender ≠ SECURITY_SERVICE_USER_ID) ∧
    (∀ w, (automaton setup).ReachableBy (FilterInformed setup) w → ∀ c, c < w.shared.created →
      ∀ n u j m, (w.shared.sessions c).generation.LoginNamed n u → n < j → m.sender = u →
      (j, m) ∉ (w.shared.sessions c).generation.forwarded ∧
        (j, m) ∉ (w.shared.sessions c).generation.handled) ∧
    (∀ w, (automaton setup).Reachable w → ∀ c, c < w.shared.created → ∀ j m,
      (w.shared.sessions c).generation.reader = .filtering j m →
      (w.shared.sessions c).generation.ownUserId ≠ some m.sender →
      m.sender ≠ SECURITY_SERVICE_USER_ID →
      (w.shared.sessions c).generation.incoming = true →
      ∃ w', (automaton setup).exec w [.worker c (.reader .filter), .worker c (.reader .forward)] =
          some w' ∧ (j, m) ∈ (w'.shared.sessions c).generation.forwarded) := by
  have pipe : ∀ {w}, (automaton setup).Reachable w → ∀ c, c < w.shared.created →
      Generation.PipelineInv (w.shared.sessions c).generation := fun h c hc =>
    Generation.pipelineInv_of_reachable
      (Session.generation_reachable ((clientInv_of_reachable h).shared.sessions c hc))
  refine ⟨fun w h c hc j m hm => ((pipe h c hc).forwarded j m hm).1,
    fun w h c hc n u j m hn hlt hu => ?_, fun w h c hc j m hr hown hsec hin => ?_⟩
  · have hout := (leakFree_of_informed h c hc n u j m hn hlt hu).1
    exact ⟨hout, fun hh => hout ((pipe h.reachable c hc).handled.subset hh)⟩
  · let s := w.shared.sessions c
    let g₁ : Generation := { s.generation with reader := .forwarding j m }
    let g₂ : Generation := { s.generation with
      reader := .reading
      messages := s.generation.messages ++ [(j, m)]
      forwarded := s.generation.forwarded ++ [(j, m)] }
    have hfil : isFilteredIncomingMessage m s.generation.ownUserId = false := by
      rw [← Bool.not_eq_true, isFiltered_iff]
      exact not_or.mpr ⟨hown, hsec⟩
    have h₁ : s.generation.step setup.fromStr (.reader .filter) = some g₁ := by
      simp [Generation.step, Generation.stepReader, s, hr, hfil, g₁]
    let w₁ : Client := { w with shared := w.shared.setSession c { s with generation := g₁ } }
    have hs₁ : w₁.shared.sessions c = { s with generation := g₁ } := setSession_self _ _ _
    have h₂ : (w₁.shared.sessions c).generation.step setup.fromStr (.reader .forward) =
        some g₂ := by
      rw [hs₁]
      simp [Generation.step, Generation.stepReader, g₁, g₂, s, hin]
    let w₂ : Client :=
      { w₁ with shared := w₁.shared.setSession c { w₁.shared.sessions c with generation := g₂ } }
    have hw₁ : w.step setup (.worker c (.reader .filter)) = some w₁ := step_worker hc h₁
    have hw₂ : w₁.step setup (.worker c (.reader .forward)) = some w₂ := step_worker hc h₂
    refine ⟨w₂, (Automaton.exec_cons hw₁).trans (Automaton.exec_cons hw₂), ?_⟩
    show (j, m) ∈ ((w₁.shared.setSession c _).sessions c).generation.forwarded
    rw [setSession_self]
    simp [g₂]

def informed (w : Client) (_ : ClientAction) : Bool :=
  (List.range w.shared.created).all fun c =>
    match (w.shared.sessions c).generation.reader with
    | .filtering _ m => (w.shared.sessions c).generation.ownUserId == some m.sender
    | _ => true

theorem filterInformed_of_informed {a : ClientAction} (h : informed w a = true) :
    FilterInformed setup w a := by
  intro w' c _ hc n j m hr _ _ _
  have hall := List.all_eq_true.mp h c (List.mem_range.mpr hc)
  rw [hr] at hall
  exact beq_iff_eq.mp hall

/-- A message of the account behind its login is held back. -/
theorem own_messages_filtered_login : ∃ w : Client, ∃ m, m.sender = 7 ∧
    (w.shared.sessions 0).generation.filtered = [(2, m, some 7)] ∧
    (2, m) ∉ (w.shared.sessions 0).generation.forwarded ∧
      (2, m) ∉ (w.shared.sessions 0).generation.handled := by
  have hr : (automaton sampleSetup).ReachableBy (FilterInformed sampleSetup)
      (((automaton sampleSetup).execWhile informed (new sampleSetup 0)
        (sampleLogin ++ sampleMessage 0 "own")).get rfl) :=
    ⟨_, ⟨0, rfl⟩, Automaton.execWhile_path (fun _ _ => filterInformed_of_informed)
      (Option.some_get _).symm⟩
  refine ⟨_, { chatId := 1, messageId := 0, sender := 7, text := "", time := 0 }, rfl, rfl,
    own_messages_filtered.2.1 _ hr 0 (by decide) 1 7 2 _
      ⟨1, _, Packet.response 2 Opcode.LOGIN
        (.object [("profile", .object [("contact", .object [("id", .int 7)])])]),
        List.mem_of_getElem? (i := 7) rfl, rfl, rfl, rfl, rfl⟩ (by decide) rfl⟩

/-- The reader is faster than the task of the login that its frame has woken. -/
theorem own_message_handled : ¬ ∀ w, (automaton sampleSetup).Reachable w →
    ∀ c, c < w.shared.created → ∀ n u j m,
    (w.shared.sessions c).generation.LoginNamed n u → n < j → m.sender = u →
    (j, m) ∉ (w.shared.sessions c).generation.handled := by
  intro h
  let acts : List ClientAction := sampleOpening ++ [sampleAttempt .issue] ++
    sampleRequest (fun a => sampleAttempt (.onInvoke a)) ++ sampleFrame 0 "login" ++
    sampleMessage 0 "own" ++ [.worker 0 (.reader .forward)] ++
    sampleAnswer (fun a => sampleAttempt (.onInvoke a)) ++
    [sampleAttempt .take, sampleAttempt .perform, sampleAttempt .perform,
      .run 0 (.loop .connected), sampleAttempt .perform, .run 0 (.loop .dispatchCheck),
      sampleAttempt .dispatchRecv]
  have hr : (automaton sampleSetup).Reachable
      (((automaton sampleSetup).exec (new sampleSetup 0) acts).get rfl) :=
    Automaton.reachable_get ⟨0, rfl⟩
  refine h _ hr 0 (by decide) 1 7 2
    { chatId := 1, messageId := 0, sender := 7, text := "", time := 0 }
    ⟨1, _, Packet.response 2 Opcode.LOGIN
      (.object [("profile", .object [("contact", .object [("id", .int 7)])])]),
      List.mem_of_getElem? (i := 7) rfl, rfl, rfl, rfl, rfl⟩ (by decide) rfl ?_
  exact List.mem_of_getLast? rfl

end Client

end Maxrs
