import Mathlib.Data.List.DropRight
import Maxrs.Kit.Observe
import Maxrs.Kit.Ownership
import Maxrs.Correlation
import Maxrs.TransportFrame
set_option autoImplicit false

/-! What stays in `pending`, and for how long. -/
namespace Maxrs

/-- The invoke has not returned and is not dropped, and its response timer has not fired. -/
def CallPc.inFlight : CallPc → Bool
  | .forget _ (.timeout _) | .returned _ | .dropped => false
  | _ => true

theorem CallPc.inFlight_of_listening {pc : CallPc} (h : pc.listening = true) :
    pc.inFlight = true := by
  cases pc with
  | forget s e | returned r | dropped => cases h
  | _ => rfl

def TransportAction.registers : TransportAction → Bool
  | .call _ .register => true
  | _ => false

def TransportAction.departs : TransportAction → Option CallId
  | .call k .drop | .call k .timedOut => some k
  | _ => none

theorem TransportAction.registers_eq {a : TransportAction} (h : a.registers = true) :
    ∃ k, a = .call k .register := by
  cases a with
  | call k b =>
    cases b with
    | register => exact ⟨k, rfl⟩
    | _ => cases h
  | _ => cases h

namespace Transport

/-- Call `k` took the number `s` from `next_seq`. -/
def Allocated (t : Transport) (k : CallId) (s : Nat) : Prop :=
  ∃ c, t.calls k = some c ∧ c.seq = some s

def inFlight (t : Transport) : Finset CallId :=
  (Finset.range t.started).filter fun k => (t.calls k).any fun c => c.pc.inFlight

/-- The invokes that were dropped or expired since the latest registration. -/
def departed (acts : List TransportAction) : Finset CallId :=
  ((acts.rtakeWhile fun a => !a.registers).filterMap TransportAction.departs).toFinset

variable {t t' : Transport} {j k : CallId} {c c' : Call} {acts : List TransportAction}

theorem mem_departed_snoc {a : TransportAction} (ha : a.registers = false) :
    k ∈ departed (acts ++ [a]) ↔ k ∈ departed acts ∨ a.departs = some k := by
  have hkeep : ((acts ++ [a]).rtakeWhile fun a => !a.registers) =
      (acts.rtakeWhile fun a => !a.registers) ++ [a] :=
    List.rtakeWhile_concat_pos _ _ _ (by simp [ha])
  simp [departed, hkeep]

theorem listening_eq (h : t.calls k = some c) : t.listening k = c.pc.listening := by
  simp [listening, h]

theorem pending_of_step {a : TransportAction} {s : Nat} (h : t.step a = some t')
    (ha : a.registers = false) (hp : t'.pending s = some k) : t.pending s = some k := by
  cases a with
  | call j b =>
    obtain ⟨c, -, h⟩ := Option.bind_eq_some_iff.mp h
    obtain ⟨c', ht⟩ := exists_callTurn h
    cases ht with
    | register _ _ _ | duplicate _ _ _ => cases ha
    | unregister _ _ _ | forget _ _ _ => exact of_erased hp
    | _ => exact hp
  | ack b => exact (stepAck_pending h).1 ▸ hp
  | receiveResponse =>
    obtain ⟨⟨n, p⟩, -, rfl⟩ := Option.map_eq_some_iff.mp h
    exact pending_of_deliver hp
  | read p | install | takeSink =>
    simp only [step, Option.ite_none_right_eq_some, Option.some.injEq] at h
    obtain ⟨_, rfl⟩ := h
    exact hp
  | start opcode payload | abandon =>
    cases h
    exact hp
  | clear =>
    cases h
    cases hp

theorem stays_stepCall {a : CallAction} {s : Nat} (hi : TransportInv t) (hc : t.calls k = some c)
    (h : t.stepCall k c a = some t') (hk : t'.calls k = some c') (hp : t'.pending s = some k)
    (hold : t.pending s = some k) :
    (∀ r, c'.pc ≠ .returned r) ∧
      (c.pc.listening = true → c'.pc.listening = true ∨ a = .drop ∨ a = .timedOut) := by
  obtain ⟨d, hd, hseq, hempty, -⟩ := hi.pending s k hold
  cases hc.symm.trans hd
  have hown : ∀ q, c.pc.seq? = some q → q = s := fun q hq =>
    Option.some.inj (((hi.calls k c hc).seq q hq).symm.trans hseq)
  cases callTurn h hk with
  | lockOrder hpc _ | allocate hpc | register q hpc _ | duplicate q hpc _ =>
    exact absurd hold (pending_ne_of_unregistered hi hc (by rw [hpc]; rfl) s)
  | unregister q e hpc | forget q e hpc =>
    -- its own entry is the one that it removes
    have hq : q = s := hown q (by rw [hpc]; rfl)
    simp [hq] at hp
  | answered q n p hpc hin => cases hempty.symm.trans hin
  | closed q hpc hin hgone =>
    have hq : q = s := hown q (by rw [hpc]; rfl)
    exact absurd (hq ▸ hold) hgone
  | timedOut _ _ _ _ => exact ⟨fun r => by simp, fun _ => .inr (.inr rfl)⟩
  | drop _ => exact ⟨fun r => by simp, fun _ => .inr (.inl rfl)⟩
  | lockSink _ _ _ _ | noSink _ _ _ _ | feed _ _ | flushed _ _ | sendFailed _ _ _
  | sendTimedOut _ _ => exact ⟨fun r => by simp, fun _ => .inl rfl⟩

/-- Registering prunes every waiter that nobody listens to. -/
theorem listening_of_register {s : Nat} (hi : TransportInv t) (hc : t.calls j = some c)
    (h : t.stepCall j c .register = some t') (hp : t'.pending s = some k) :
    t'.listening k = true := by
  have hkept : ∀ {q}, c.pc = .register q → t.retained s = some k →
      k ≠ j ∧ t.listening k = true := by
    intro q hpc hret
    simp only [retained, Option.filter_eq_some_iff] at hret
    obtain ⟨hold, hl⟩ := hret
    refine ⟨?_, hl⟩
    rintro rfl
    exact pending_ne_of_unregistered hi hc (by rw [hpc]; rfl) s hold
  obtain ⟨c', ht⟩ := exists_callTurn h
  cases ht with
  | register q hpc hfree =>
    by_cases hs : s = q
    · simp only [hs, Function.update_self, Option.some.injEq] at hp
      subst hp
      simp [listening, CallPc.listening]
    · obtain ⟨hne, hl⟩ := hkept hpc (by simpa [Function.update_of_ne hs] using hp)
      simpa [listening, Function.update_of_ne hne] using hl
  | duplicate q hpc hlive =>
    obtain ⟨hne, hl⟩ := hkept hpc hp
    simpa [listening, Function.update_of_ne hne] using hl

theorem registers_own {u : Transport} (hi : TransportInv t) (hfew : t.started < 2 ^ 32)
    (h : t.step (.call j .register) = some u) :
    ∃ s, t.Allocated j s ∧ u.pending s = some j := by
  obtain ⟨c, hc, h⟩ := Option.bind_eq_some_iff.mp h
  obtain ⟨c', ht⟩ := exists_callTurn h
  cases ht with
  | register q hpc hfree =>
    exact ⟨q, ⟨c, hc, (hi.calls j c hc).seq q (by rw [hpc]; rfl)⟩, Function.update_self ..⟩
  | duplicate q hpc hlive =>
    obtain ⟨k, hret⟩ := Option.ne_none_iff_exists'.mp hlive
    have hold := pending_of_retained hret
    obtain ⟨d, hd, hds, -⟩ := hi.pending q k hold
    have hseq : c.seq = some q := (hi.calls j c hc).seq q (by rw [hpc]; rfl)
    have hkj : k = j := seq_unique hi hfew hd hc hds hseq
    subst hkj
    exact absurd hold (pending_ne_of_unregistered hi hc (by rw [hpc]; rfl) q)

theorem entry_step {a : TransportAction} {s : Nat} (hi : TransportInv t) (h : t.step a = some t')
    (hp : t'.pending s = some k) (hk : t'.calls k = some c') :
    c'.pc.listening = true ∨
      a.registers = false ∧ t.pending s = some k ∧ ∃ c, t.calls k = some c ∧
        (∀ r, c'.pc = .returned r → c.pc = .returned r) ∧
        (c.pc.listening = true → c'.pc.listening = true ∨ a.departs = some k) := by
  cases hreg : a.registers with
  | true =>
    obtain ⟨j, rfl⟩ := TransportAction.registers_eq hreg
    obtain ⟨c, hc, h⟩ := Option.bind_eq_some_iff.mp h
    exact .inl ((listening_eq hk).symm.trans (listening_of_register hi hc h hp))
  | false =>
    have hold := pending_of_step h hreg hp
    obtain ⟨c, hc, -⟩ := hi.pending s k hold
    refine .inr ⟨rfl, hold, c, hc, ?_⟩
    by_cases ha : ∃ b, a = .call k b
    · obtain ⟨b, rfl⟩ := ha
      obtain ⟨d, hd, h⟩ := Option.bind_eq_some_iff.mp h
      cases hc.symm.trans hd
      obtain ⟨hret, hlisten⟩ := stays_stepCall hi hc h hk hp hold
      refine ⟨fun r hr => absurd hr (hret r), fun hl => ?_⟩
      rcases hlisten hl with hl' | rfl | rfl
      · exact .inl hl'
      · exact .inr rfl
      · exact .inr rfl
    · obtain ⟨d, hd, hpc⟩ := pc_of_other hi h hc fun b hb => ha ⟨b, hb⟩
      cases hk.symm.trans hd
      rw [hpc]
      exact ⟨fun _ => id, .inl⟩

theorem entry_of_returned (h : automaton.Reachable t) :
    ∀ s k c r, t.pending s = some k → t.calls k = some c → c.pc ≠ .returned r := by
  refine h.invariant_of
    (I := fun t => ∀ s k c r, t.pending s = some k → t.calls k = some c → c.pc ≠ .returned r)
    (fun t ht s k c r hp => ?_) fun t a t' hr hs hi s k c r hp hk hret => ?_
  · cases ht
    cases hp
  · rcases entry_step (transportInv_of_reachable hr) hs hp hk with hl |
      ⟨-, hold, d, hd, hback, -⟩
    · rw [hret] at hl
      cases hl
    · exact hi s k d r hold hd (hback r hret)

theorem entry_accounted (h : automaton.exec new acts = some t) :
    ∀ s k, t.pending s = some k → t.listening k = true ∨ k ∈ departed acts := by
  refine Automaton.exec_invariant
    (I := fun acts t => ∀ s k, t.pending s = some k → t.listening k = true ∨ k ∈ departed acts)
    h (fun s k hp => ?_) fun acts a t u hrun hs hi s k hp => ?_
  · cases hp
  · have hr : automaton.Reachable t := ⟨new, rfl, Automaton.exec_leads hrun⟩
    have hu := transportInv_of_reachable (hr.tail hs)
    obtain ⟨c', hk, -⟩ := hu.pending s k hp
    rw [listening_eq hk]
    rcases entry_step (transportInv_of_reachable hr) hs hp hk with hl |
      ⟨hreg, hold, c, hc, -, hkeep⟩
    · exact .inl hl
    · rw [mem_departed_snoc hreg]
      rcases hi s k hold with hl | hd
      · rw [listening_eq hc] at hl
        exact (hkeep hl).imp id .inr
      · exact .inr (.inl hd)

theorem mem_inFlight (hi : TransportInv t) (h : t.listening k = true) : k ∈ t.inFlight := by
  cases hk : t.calls k with
  | none => simp [listening, hk] at h
  | some c =>
    rw [listening_eq hk] at h
    have hlt := hi.started k c hk
    simp [inFlight, hk, hlt, CallPc.inFlight_of_listening h]

/-- The pending map does not leak. Every entry belongs to the one invoke that was allocated its
number, and to none that has returned; after a registration every entry has a live receiver; so
there are no more entries than invokes in flight and invokes that were dropped or have expired
since the latest registration. -/
theorem pending_does_not_leak (hrun : automaton.exec new acts = some t)
    (hfew : t.started < 2 ^ 32) :
    (∀ s k, t.pending s = some k → t.Allocated k s ∧ ∀ j, t.Allocated j s → j = k) ∧
    (∀ k c r, t.calls k = some c → c.pc = .returned r →
      (∀ s, t.pending s ≠ some k) ∧ ∀ s, c.seq = some s → t.pending s = none) ∧
    (∀ j u, t.step (.call j .register) = some u →
      (∃ s, t.Allocated j s ∧ u.pending s = some j) ∧
      ∀ s k, u.pending s = some k → u.listening k = true) ∧
    {s | (t.pending s).isSome}.encard ≤ (t.inFlight.card + (departed acts).card : Nat) := by
  have hr : automaton.Reachable t := ⟨new, rfl, Automaton.exec_leads hrun⟩
  have hi := transportInv_of_reachable hr
  have howner : ∀ s k, t.pending s = some k → t.Allocated k s ∧ ∀ j, t.Allocated j s → j = k := by
    intro s k hp
    obtain ⟨c, hc, hs, -⟩ := hi.pending s k hp
    refine ⟨⟨c, hc, hs⟩, ?_⟩
    rintro j ⟨d, hd, hds⟩
    exact seq_unique hi hfew hd hc hds hs
  refine ⟨howner, fun k c r hk hret => ⟨fun s hp => ?_, fun s hs => ?_⟩, fun j u hu => ⟨?_, ?_⟩, ?_⟩
  · exact entry_of_returned hr s k c r hp hk hret
  · cases hp : t.pending s with
    | none => rfl
    | some j =>
      have hkj : k = j := (howner s j hp).2 k ⟨c, hk, hs⟩
      exact absurd hret (entry_of_returned hr s k c r (hkj ▸ hp) hk)
  · exact registers_own hi hfew hu
  · obtain ⟨c, hc, hu⟩ := Option.bind_eq_some_iff.mp hu
    exact fun s k => listening_of_register hi hc hu
  · have hmem : ∀ s k, t.pending s = some k → k ∈ t.inFlight ∪ departed acts := by
      intro s k hp
      rcases entry_accounted hrun s k hp with hl | hd
      · exact Finset.mem_union_left _ (mem_inFlight hi hl)
      · exact Finset.mem_union_right _ hd
    have hsame : ∀ p q k, t.pending p = some k → t.pending q = some k → p = q := by
      intro p q k hp hq
      obtain ⟨c, hc, hcp, -⟩ := hi.pending p k hp
      obtain ⟨d, hd, hdq, -⟩ := hi.pending q k hq
      cases hc.symm.trans hd
      exact Option.some.inj (hcp.symm.trans hdq)
    calc {s | (t.pending s).isSome}.encard
        ≤ (t.inFlight ∪ departed acts).card := Ownership.owners_le_items hmem hsame
      _ ≤ (t.inFlight.card + (departed acts).card : Nat) :=
        Nat.cast_le.mpr (Finset.card_union_le _ _)

/-- The first of two invokes is dropped while it waits; the registration of the second takes its
entry out. -/
theorem pending_does_not_leak_pruned : ∃ t u : Transport,
    automaton.Reachable t ∧ t.started = 2 ∧ t.pending 1 = some 0 ∧
    {s | (t.pending s).isSome}.encard ≤ 2 ∧ t.step (.call 1 .register) = some u ∧
    u.pending 1 = none ∧ ∀ s k, u.pending s = some k → u.listening k = true := by
  let run : List TransportAction :=
    [.install, .start 0 .null, .start 0 .null, .call 0 .lockOrder, .call 0 .allocate,
      .call 0 .register, .call 0 .lockSink, .call 0 .feed, .call 0 .flushed,
      .call 1 .lockOrder, .call 1 .allocate, .call 0 .drop]
  have hrun : automaton.exec new run = some ((automaton.exec new run).get rfl) := rfl
  obtain ⟨-, -, hregister, hcount⟩ := pending_does_not_leak hrun (by decide)
  have hflight : ((automaton.exec new run).get rfl).inFlight = {1} := by decide
  have hdeparted : departed run = {0} := by decide
  rw [hflight, hdeparted] at hcount
  exact ⟨_, _, ⟨new, rfl, Automaton.exec_leads hrun⟩, rfl, rfl, hcount, rfl, rfl,
    (hregister 1 _ rfl).2⟩

end Transport

end Maxrs
