import Maxrs.Kit.Observe
import Maxrs.SequenceOrder
set_option autoImplicit false

/-! Whose waiter an invoke takes out of `pending`, when the numbers wrap. -/
namespace Maxrs

def CallPc.numbered (pc : CallPc) : Bool := pc.seq?.isSome && !pc.unregistered

namespace Transport

/-- The waiter under the number of a registered call belongs to the call or to a later one. -/
def LaterInv (t : Transport) : Prop :=
  ∀ j k c d i i', t.calls j = some c → c.turn = some i → c.pc.numbered = true →
    t.pending (seqOf i) = some k → t.calls k = some d → d.turn = some i' → i ≤ i'

variable {t t' : Transport} {j k : CallId} {c c' : Call}

theorem numbered_stepCall {a : CallAction} (h : t.stepCall k c a = some t')
    (hk : t'.calls k = some c') (hp : c'.pc.numbered = true) :
    (c.pc.numbered = true ∧ c'.turn = c.turn) ∨
      ∃ s, c.pc = .register s ∧ c'.turn = c.turn ∧ t'.pending s = some k := by
  cases callTurn h hk with
  | register s hpc _ => exact .inr ⟨s, hpc, rfl, Function.update_self ..⟩
  | lockSink s hpc _ _ | noSink s hpc _ _ | feed s hpc | flushed s hpc | closed s hpc _ _
  | timedOut s hpc _ _ => exact .inl ⟨by rw [hpc]; rfl, rfl⟩
  | sendFailed s reason hpc | sendTimedOut s hpc =>
    exact .inl ⟨by rcases hpc with hpc | hpc <;> rw [hpc] <;> rfl, rfl⟩
  | lockOrder _ _ | allocate _ | duplicate _ _ _ | unregister _ _ _ | answered _ _ _ _ _
  | forget _ _ _ | drop _ => cases hp

theorem laterInv_of_same (hi : LaterInv t) (hc : SamePcs t t')
    (hturn : ∀ k, (t'.calls k).map Call.turn = (t.calls k).map Call.turn)
    (hp : ∀ s k, t'.pending s = some k → t.pending s = some k) : LaterInv t' := by
  intro j k c d i i' hj hi' hnum hpend hk hd
  have hjpc := hc j
  have hjturn := hturn j
  have hkturn := hturn k
  rw [hj] at hjpc hjturn
  rw [hk] at hkturn
  obtain ⟨c₀, hj₀, hpc₀⟩ := Option.map_eq_some_iff.mp hjpc.symm
  obtain ⟨d₀, hk₀, hd₀⟩ := Option.map_eq_some_iff.mp hkturn.symm
  rw [hj₀] at hjturn
  have hc₀ : c₀.turn = some i := (Option.some.inj hjturn.symm).trans hi'
  exact hi j k c₀ d₀ i i' hj₀ hc₀ (hpc₀ ▸ hnum) (hp _ _ hpend) hk₀ (hd₀.trans hd)

theorem laterInv_call {a : CallAction} (hi : LaterInv t) (hr : automaton.Reachable t)
    (hc : t.calls k = some c) (h : t.stepCall k c a = some t') : LaterInv t' := by
  obtain ⟨c', hs⟩ := stepCall_callStep h
  have ht := transportInv_of_reachable hr
  have hself : t'.calls k = some c' := by simp [hs.calls]
  have hother : ∀ j, j ≠ k → t'.calls j = t.calls j := fun j hj => by
    rw [hs.calls, Function.update_of_ne hj]
  intro j l e d i i' hj hje hnum hpend hl hd
  have hturn : ∀ d', t.calls l = some d' → d'.pc.unregistered = false → d'.turn = some i' := by
    intro d' hd' hreg
    by_cases hlk : l = k
    · subst hlk
      cases hc.symm.trans hd'
      cases hself.symm.trans hl
      rcases hs.turn with ⟨hkeep, -⟩ | ⟨hpc, -⟩
      · exact hkeep.symm.trans hd
      · rw [hpc] at hreg
        cases hreg
    · cases hd'.symm.trans ((hother l hlk).symm.trans hl)
      exact hd
  rcases hs.pending _ _ hpend with hold | ⟨rfl, hreg, hsink, -⟩
  · obtain ⟨d', hd', -, -, hunreg, -⟩ := ht.pending _ _ hold
    have hd'turn := hturn d' hd' hunreg
    by_cases hjk : j = k
    · subst hjk
      cases hself.symm.trans hj
      rcases numbered_stepCall h hself hnum with ⟨hn, hkeep⟩ | ⟨s, hreg, hkeep, hnew⟩
      · exact hi j l c d' i i' hc (hkeep.symm.trans hje) hn hold hd' hd'turn
      · -- the new entry is its own
        have hseq : c.seq = some s := (ht.calls j c hc).seq s (by simp [hreg, CallPc.seq?])
        rw [Call.seq, hkeep.symm.trans hje] at hseq
        cases hseq
        cases hnew.symm.trans hpend
        cases hself.symm.trans hl
        cases hje.symm.trans hd
        exact Nat.le_refl _
    · rw [hother j hjk] at hj
      exact hi j l e d' i i' hj hje hnum hold hd' hd'turn
  · -- the call that registers took its number last
    cases hself.symm.trans hl
    have hkeep : c'.turn = c.turn ∧ t'.allocated = t.allocated := by
      rcases hs.turn with ⟨hkeep, ha, -⟩ | ⟨hpc, -⟩
      · exact ⟨hkeep, ha⟩
      · simp [hreg] at hpc
    have hnewest := (newestInv_of_reachable hr).newest l c i' hc (by rw [hreg]; rfl)
      (hkeep.1.symm.trans hd)
    have hr' : automaton.Reachable t' :=
      hr.path (step_leads (a := .call l a) (by simp [step, hc, h]))
    have hlt := ((transportInv_of_reachable hr').calls j e hj).turn i hje
    rw [hkeep.2] at hlt
    omega

theorem laterInv_step {a : TransportAction} (hi : LaterInv t) (hr : automaton.Reachable t)
    (h : t.step a = some t') : LaterInv t' := by
  cases a with
  | start opcode payload =>
    have ht := transportInv_of_reachable hr
    cases h
    intro j k c d i i' hj hje hnum hpend hk hd
    by_cases hnew : j = t.started
    · subst hnew
      simp only [put_calls, Function.update_self, Option.some.injEq] at hj
      subst hj
      cases hje
    · obtain ⟨d', hd', -⟩ := ht.pending _ _ hpend
      have hkold : k ≠ t.started := Nat.ne_of_lt (ht.started k d' hd')
      rw [put_calls, Function.update_of_ne hnew] at hj
      rw [put_calls, Function.update_of_ne hkold] at hk
      exact hi j k c d i i' hj hje hnum hpend hk hd
  | call k a =>
    obtain ⟨c, hc, h⟩ := Option.bind_eq_some_iff.mp h
    exact laterInv_call hi hr hc h
  | ack a =>
    have hcalls : t'.calls = t.calls := (stepAck_frame h).1
    exact laterInv_of_same hi (fun k => by rw [hcalls]) (fun k => by rw [hcalls]) fun s k hk =>
      (stepAck_pending h).1 ▸ hk
  | receiveResponse =>
    obtain ⟨⟨n, p⟩, -, rfl⟩ := Option.map_eq_some_iff.mp h
    refine laterInv_of_same hi (deliver_samePcs t n p) (fun k => ?_) fun s k => pending_of_deliver
    rcases deliver_calls t n p k with hd | ⟨d, hd, hd'⟩
    · rw [hd]
    · rw [hd, hd']
      rfl
  | read p | install | takeSink =>
    simp only [step, Option.ite_none_right_eq_some, Option.some.injEq] at h
    obtain ⟨_, rfl⟩ := h
    exact hi
  | abandon =>
    cases h
    exact hi
  | clear =>
    cases h
    intro j k c d i i' _ _ _ hpend
    cases hpend

theorem laterInv_of_reachable (h : automaton.Reachable t) : LaterInv t := by
  refine h.invariant_of (fun t ht => ?_) fun _ _ _ hr hs hi => laterInv_step hi hr hs
  cases ht
  intro j k c d i i' hj
  cases hj

/-- A number comes back only after 2^32 allocations. -/
theorem seqOf_again {i i' : Nat} (hle : i ≤ i') (hne : i ≠ i') (h : seqOf i = seqOf i') :
    i + 2 ^ 32 ≤ i' := by
  unfold seqOf at h
  omega

/-- An invoke leaves the waiters of all the others that still listen in `pending`. -/
def KeepsOthers (t : Transport) (a : TransportAction) (t' : Transport) : Prop :=
  ∀ j b, a = .call j b → ∀ s k, k ≠ j → t.pending s = some k → t.listening k = true →
    t'.pending s = some k

/-- The number of call `j` has been handed out again, to a call that has registered and listens. -/
def Reissued (t : Transport) (j : CallId) : Prop :=
  ∃ c k d i i', t.calls j = some c ∧ c.turn = some i ∧ t.calls k = some d ∧ d.turn = some i' ∧
    i + 2 ^ 32 ≤ i' ∧ seqOf i' = seqOf i ∧ d.pc.listening = true ∧ t.pending (seqOf i) = some k

/-- The removal after a timeout or a dropped sender comes before the number is handed out again. -/
def RemovesInTime (t : Transport) (a : TransportAction) : Prop :=
  ∀ j, a = .call j .forget → ¬ t.Reissued j

theorem reissued_of_pending {s : Nat} (hr : automaton.Reachable t) (hj : t.calls j = some c)
    (hnum : c.pc.numbered = true) (hs : c.pc.seq? = some s) (hne : k ≠ j)
    (hp : t.pending s = some k) :
    ∃ d i i', t.calls k = some d ∧ c.turn = some i ∧ d.turn = some i' ∧ i + 2 ^ 32 ≤ i' ∧
      seqOf i' = seqOf i ∧ seqOf i = s := by
  have ht := transportInv_of_reachable hr
  have hcseq := (ht.calls j c hj).seq s hs
  obtain ⟨d, hd, hdseq, -⟩ := ht.pending s k hp
  obtain ⟨i, hi, rfl⟩ := Option.map_eq_some_iff.mp hcseq
  obtain ⟨i', hi', hsame⟩ := Option.map_eq_some_iff.mp hdseq
  have hle := laterInv_of_reachable hr j k c d i i' hj hi hnum hp hd hi'
  have hdiff : i ≠ i' := fun he => hne (ht.turns k j d c i hd hj (he ▸ hi') hi)
  exact ⟨d, i, i', hd, hi, hi', seqOf_again hle hdiff hsame.symm, hsame, rfl⟩

theorem retained_of_listening {s : Nat} (hp : t.pending s = some k) (hl : t.listening k = true) :
    t.retained s = some k := by
  simp [retained, hp, hl]

theorem keeps_register {s q : Nat} (hpc : c.pc = .register q)
    (h : t.stepCall j c .register = some t') (hp : t.pending s = some k)
    (hl : t.listening k = true) : t'.pending s = some k := by
  have hret := retained_of_listening hp hl
  simp only [stepCall, hpc] at h
  split at h <;> cases h
  · rename_i hfree
    have hne : s ≠ q := by
      rintro rfl
      rw [hret] at hfree
      cases hfree
    show Function.update t.retained q (some j) s = some k
    rw [Function.update_of_ne hne, hret]
  · exact hret

theorem keeps_unregister {s q : Nat} {error : Error} (hr : automaton.Reachable t)
    (hc : t.calls j = some c) (hpc : c.pc = .unregister q error)
    (h : t.stepCall j c .unregister = some t') (hne : k ≠ j) (hp : t.pending s = some k) :
    t'.pending s = some k := by
  simp only [stepCall, hpc, Option.some.injEq] at h
  subst h
  have hsq : s ≠ q := by
    rintro rfl
    obtain ⟨d, i, i', hd, hi, hi', hlater, -⟩ := reissued_of_pending hr hc
      (by rw [hpc]; rfl) (by rw [hpc]; rfl) hne hp
    have hnewest := (newestInv_of_reachable hr).newest j c i hc (by rw [hpc]; rfl) hi
    have hlt := ((transportInv_of_reachable hr).calls k d hd).turn i' hi'
    omega
  show Function.update t.pending q none s = some k
  rw [Function.update_of_ne hsq, hp]

theorem keeps_forget {q : Nat} {error : Error} (hr : automaton.Reachable t)
    (hc : t.calls j = some c) (hpc : c.pc = .forget q error)
    (h : t.stepCall j c .forget = some t') :
    (∀ s k, k ≠ j → t.pending s = some k → t.listening k = true → t'.pending s = some k) ↔
      ¬ t.Reissued j := by
  simp only [stepCall, hpc, Option.some.injEq] at h
  subst h
  constructor
  · rintro hkeep ⟨c', k, d, i, i', hc', hi, hd, hi', hlater, -, hlisten, hp⟩
    cases hc.symm.trans hc'
    have hne : k ≠ j := by
      rintro rfl
      cases hd.symm.trans hc
      cases hi.symm.trans hi'
      omega
    have hq : c.seq = some q :=
      ((transportInv_of_reachable hr).calls j c hc).seq q (by rw [hpc]; rfl)
    have hqi : seqOf i = q := by
      rw [Call.seq, hi] at hq
      exact Option.some.inj hq
    have hkept := hkeep (seqOf i) k hne hp (by simp [listening, hd, hlisten])
    simp only [hqi, Function.update_self] at hkept
    cases hkept
  · intro hnot s k hne hp hl
    have hsq : s ≠ q := by
      rintro rfl
      obtain ⟨d, i, i', hd, hi, hi', hlater, hsame, rfl⟩ := reissued_of_pending hr hc
        (by rw [hpc]; rfl) (by rw [hpc]; rfl) hne hp
      refine hnot ⟨c, k, d, i, i', hc, hi, hd, hi', hlater, hsame, ?_, hp⟩
      simpa [listening, hd] using hl
    show Function.update t.pending q none s = some k
    rw [Function.update_of_ne hsq, hp]

/-- An invoke takes away the waiter of another one that still listens only when its own number
has been handed out again. -/
theorem keepsOthers_step {a : TransportAction} (hr : automaton.Reachable t)
    (h : t.step a = some t') : KeepsOthers t a t' ↔ RemovesInTime t a := by
  cases a with
  | call j b =>
    obtain ⟨c, hc, hs⟩ := Option.bind_eq_some_iff.mp h
    have hone : KeepsOthers t (.call j b) t' ↔ ∀ s k, k ≠ j → t.pending s = some k →
        t.listening k = true → t'.pending s = some k := by
      constructor
      · intro hkeep
        exact hkeep j b rfl
      · intro hkeep j' b' he
        cases he
        exact hkeep
    have hquiet : b ≠ .forget → (RemovesInTime t (.call j b)) := by
      intro hb j' he
      cases he
      exact absurd rfl hb
    obtain ⟨c', ht⟩ := exists_callTurn hs
    cases ht with
    | forget s e hpc =>
      rw [hone, keeps_forget hr hc hpc hs]
      constructor
      · intro hnot j' he
        cases he
        exact hnot
      · intro htime
        exact htime j rfl
    | register s hpc _ | duplicate s hpc _ =>
      refine ⟨fun _ => hquiet (by simp), fun _ => hone.mpr fun q k _ hp hl => ?_⟩
      exact keeps_register hpc hs hp hl
    | unregister s e hpc =>
      refine ⟨fun _ => hquiet (by simp), fun _ => hone.mpr fun q k hne hp _ => ?_⟩
      exact keeps_unregister hr hc hpc hs hne hp
    | _ =>
      exact ⟨fun _ => hquiet (by simp), fun _ => hone.mpr fun q k _ hp _ => hp⟩
  | _ =>
    constructor
    · intro _ j he
      cases he
    · intro _ j b he
      cases he

theorem removesInTime_of_few (hr : automaton.Reachable t)
    (hfew : ∀ c i, t.calls j = some c → c.turn = some i → t.allocated ≤ i + 2 ^ 32) :
    ¬ t.Reissued j := by
  rintro ⟨c, k, d, i, i', hc, hi, hd, hi', hlater, -, -, -⟩
  have hle := hfew c i hc hi
  have hlt := ((transportInv_of_reachable hr).calls k d hd).turn i' hi'
  omega

/-- In every run, wrapped or not: the removals and registrations of the invokes leave the waiters
of all others in place, exactly when no invoke removes its entry after its number was handed out
again; and that takes 2^32 later allocations. -/
theorem removes_own_waiter (acts : List TransportAction) :
    ((∀ e ∈ automaton.steps new acts, KeepsOthers e.1 e.2.1 e.2.2) ↔
      ∀ e ∈ automaton.steps new acts, RemovesInTime e.1 e.2.1) ∧
    ∀ e ∈ automaton.steps new acts,
      (∀ j, e.2.1 = .call j .forget → ∀ c i, e.1.calls j = some c → c.turn = some i →
        e.1.allocated ≤ i + 2 ^ 32) → RemovesInTime e.1 e.2.1 := by
  have hstep : ∀ e ∈ automaton.steps new acts, KeepsOthers e.1 e.2.1 e.2.2 ↔
      RemovesInTime e.1 e.2.1 := by
    intro e he
    obtain ⟨hlead, hs⟩ := Automaton.mem_steps he
    exact keepsOthers_step ⟨new, rfl, hlead⟩ hs
  refine ⟨⟨fun h e he => (hstep e he).mp (h e he), fun h e he => (hstep e he).mpr (h e he)⟩, ?_⟩
  intro e he hfew j hj
  exact removesInTime_of_few ⟨new, rfl, (Automaton.mem_steps he).1⟩ (hfew j hj)

structure Allocates (t t' : Transport) (k : CallId) : Prop where
  leads : automaton.Leads t t'
  call : ∃ c, t'.calls k = some c ∧ c.pc = .register t.nextSeq ∧ c.turn = some t.allocated
  order : t'.sendOrder = some k
  started : t'.started = t.started + 1
  allocated : t'.allocated = t.allocated + 1
  pending : t'.pending = t.pending
  others : ∀ j, j ≠ k → t'.calls j = t.calls j

theorem allocates_next (t : Transport) (ho : t.sendOrder = none) :
    ∃ t', Allocates t t' t.started := by
  let c : Call := { opcode := 0, payload := .null, pc := .order, turn := none, inbox := none }
  let t₁ : Transport := { t.put t.started c with started := t.started + 1 }
  let t₂ : Transport := { t₁.move t.started c .allocate with sendOrder := some t.started }
  let c₃ : Call := { c with pc := .register t.nextSeq, turn := some t.allocated }
  let t₃ : Transport :=
    { t₂.put t.started c₃ with
      nextSeq := (t.nextSeq + 1) % 2 ^ 32
      allocated := t.allocated + 1 }
  have h₁ : automaton.step t (.start 0 .null) = some t₁ := rfl
  have h₂ : automaton.step t₁ (.call t.started .lockOrder) = some t₂ := by
    simp [automaton, step, stepCall, t₁, t₂, c, put, ho]
  have h₃ : automaton.step t₂ (.call t.started .allocate) = some t₃ := by
    simp [automaton, step, stepCall, t₁, t₂, t₃, c, c₃, put, move]
  refine ⟨t₃, .tail (.tail (.single trivial h₁) trivial h₂) trivial h₃, ⟨c₃, ?_, rfl, rfl⟩, rfl,
    rfl, rfl, rfl, fun j hj => ?_⟩
  · exact Function.update_self ..
  · simp [t₃, t₂, t₁, Function.update_of_ne hj]

/-- An invoke that is dropped as soon as it has taken its number. -/
theorem lap (ho : t.sendOrder = none) :
    ∃ t', automaton.Leads t t' ∧ t'.sendOrder = none ∧ t'.started = t.started + 1 ∧
      t'.allocated = t.allocated + 1 ∧ t'.pending = t.pending ∧
      ∀ j, j ≠ t.started → t'.calls j = t.calls j := by
  obtain ⟨u, hu⟩ := allocates_next t ho
  obtain ⟨c, hc, hpc, -⟩ := hu.call
  let t' : Transport := { u.move t.started c .dropped with sendOrder := none }
  have hdrop : automaton.step u (.call t.started .drop) = some t' := by
    simp [automaton, step, hc, stepCall, hpc, CallPc.finished, CallPc.holdsOrder, CallPc.holdsSink,
      t', move, put]
  refine ⟨t', hu.leads.tail trivial hdrop, rfl, hu.started, hu.allocated, hu.pending,
    fun j hj => ?_⟩
  exact (Function.update_of_ne hj ..).trans (hu.others j hj)

theorem laps (n : Nat) (ho : t.sendOrder = none)
    (hold : ∀ j c, t.calls j = some c → j < t.started) :
    ∃ t', automaton.Leads t t' ∧ t'.sendOrder = none ∧ t'.allocated = t.allocated + n ∧
      t'.pending = t.pending ∧ t.started ≤ t'.started ∧
      ∀ j c, t.calls j = some c → t'.calls j = some c := by
  induction n with
  | zero => exact ⟨t, .refl, ho, rfl, rfl, Nat.le_refl _, fun _ _ => id⟩
  | succ n ih =>
    obtain ⟨u, hlead, hou, hau, hpu, hsu, hcu⟩ := ih
    obtain ⟨v, hv, hov, hsv, hav, hpv, hcv⟩ := lap hou
    refine ⟨v, hlead.trans hv, hov, by omega, hpv.trans hpu, by omega, fun j c hj => ?_⟩
    rw [hcv j (Nat.ne_of_lt (Nat.lt_of_lt_of_le (hold j c hj) hsu))]
    exact hcu j c hj

/-- The timer of the first invoke fires, 2^32 - 1 numbers are handed out and given up, and the
next invoke registers under the number of the first; the removal of the first takes its waiter. -/
theorem removal_hits_other : ∃ t t', automaton.Reachable t ∧
    automaton.step t (.call 0 .forget) = some t' ∧ ¬ KeepsOthers t (.call 0 .forget) t' := by
  let first : List TransportAction :=
    [.install, .start 0 .null, .call 0 .lockOrder, .call 0 .allocate, .call 0 .register,
      .call 0 .lockSink, .call 0 .feed, .call 0 .flushed, .call 0 .timedOut]
  have hrun : automaton.exec new first = some ((automaton.exec new first).get rfl) := rfl
  let t₀ := (automaton.exec new first).get rfl
  have hr₀ : automaton.Reachable t₀ := ⟨new, rfl, Automaton.exec_leads hrun⟩
  let c₀ : Call := ⟨0, .null, .forget 1 (.timeout 0), some 0, none⟩
  have hc₀ : t₀.calls 0 = some c₀ := rfl
  have hold := (transportInv_of_reachable hr₀).started
  obtain ⟨u, hu, hou, hau, hpu, -, hcu⟩ := laps (2 ^ 32 - 1) (t := t₀) rfl hold
  have hru : automaton.Reachable u := hr₀.path hu
  have hnext : u.nextSeq = 1 := by
    have hone : t₀.allocated = 1 := rfl
    rw [(transportInv_of_reachable hru).nextSeq, hau, hone]
    rfl
  obtain ⟨v, hv⟩ := allocates_next u hou
  obtain ⟨c, hc, hpc, -⟩ := hv.call
  rw [hnext] at hpc
  have hne : (0 : CallId) ≠ u.started :=
    Nat.ne_of_lt ((transportInv_of_reachable hru).started 0 c₀ (hcu 0 c₀ hc₀))
  have hcv : v.calls 0 = some c₀ := (hv.others 0 hne).trans (hcu 0 c₀ hc₀)
  have hpv : v.pending 1 = some 0 := by
    rw [hv.pending, hpu]
    rfl
  -- the first waiter no longer listens
  have hpruned : v.retained 1 = none := by
    simp [retained, hpv, listening, hcv, c₀, CallPc.listening]
  let w : Transport := { (v.move u.started c (.sink 1)).record (.registered u.started 1) with
    pending := Function.update v.retained 1 (some u.started) }
  have hregister : automaton.step v (.call u.started .register) = some w := by
    simp [automaton, step, hc, stepCall, hpc, hpruned, w]
  have hcw : w.calls 0 = some c₀ := (Function.update_of_ne hne ..).trans hcv
  have hpw : w.pending 1 = some u.started := by simp [w]
  let x : Transport := { w.move 0 c₀ (.returned (.error (.timeout 0))) with
    pending := Function.update w.pending 1 none }
  have hforget : automaton.step w (.call 0 .forget) = some x := by
    simp [automaton, step, hcw, stepCall, c₀, x]
  have hrw : automaton.Reachable w := Automaton.Reachable.tail (hru.path hv.leads) hregister
  refine ⟨w, x, hrw, hforget, fun hkeep => ?_⟩
  have hlisten : w.listening u.started = true := by
    simp [listening, w, CallPc.listening]
  have hkept := hkeep 0 .forget rfl 1 u.started (Ne.symm hne) hpw hlisten
  have hgone : x.pending 1 = none := by simp [x]
  rw [hgone] at hkept
  cases hkept

end Transport

end Maxrs
