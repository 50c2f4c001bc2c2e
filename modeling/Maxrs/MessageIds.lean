import Mathlib.Data.List.Pairwise
import Maxrs.Kit.Observe
import Maxrs.Replay
set_option autoImplicit false

/-! `next_cid`: the ids that the sends of one client take from its counter. -/
namespace Maxrs

/-- `-chrono_millis()`; the reading is zero before the epoch. -/
def checkedNow (millis : Nat) : Option Int := (checkedI64 millis).bind fun m => checkedI64 (-m)

/-- `next_cid`, each of its operations checked for overflow. -/
def checkedNextCid (cid : Int) (millis : Nat) : Option Int := do
  let now ← checkedNow millis
  let below ← checkedI64 (cid - 1)
  return min now below

theorem checkedNow_eq {millis : Nat} (h : millis < 2 ^ 63) :
    checkedNow millis = some (-(millis : Int)) := by
  have hm : Value.fitsI64 millis = true := by
    simp only [Value.fitsI64, Bool.and_eq_true, decide_eq_true_eq]
    omega
  have hn : Value.fitsI64 (-(millis : Int)) = true := by
    simp only [Value.fitsI64, Bool.and_eq_true, decide_eq_true_eq]
    omega
  simp [checkedNow, checkedI64, hm, hn]

theorem checkedNextCid_eq {cid : Int} {millis : Nat} (hm : millis < 2 ^ 63)
    (hlow : -(2 ^ 63) < cid) (hcid : cid ≤ 0) :
    checkedNextCid cid millis = some (min (-(millis : Int)) (cid - 1)) := by
  have hb : Value.fitsI64 (cid - 1) = true := by
    simp only [Value.fitsI64, Bool.and_eq_true, decide_eq_true_eq]
    omega
  simp [checkedNextCid, checkedNow_eq hm, checkedI64, hb]

def SendPc.early : SendPc → Bool
  | .clock | .cid _ => true
  | _ => false

def ClientAction.reading : ClientAction → Option Nat
  | .send _ (.readClock millis) => some millis
  | _ => none

def readings (acts : List ClientAction) : List Nat := acts.filterMap ClientAction.reading

def Client.takes (_ : Client) (a : ClientAction) (w' : Client) : List (SendId × Int) :=
  match a with
  | .send i .takeCid => [(i, w'.shared.cid)]
  | _ => []

/-- The ids taken in a run, in the order in which the lock of the counter is taken. -/
def Client.ids (setup : Setup) (w : Client) (acts : List ClientAction) : List (SendId × Int) :=
  (Client.automaton setup).observe Client.takes w acts

def Send.Took (i : SendId) (snd : Send) (ids : List (SendId × Int)) : Prop :=
  match snd.pc with
  | .clock | .cid _ => ids = []
  | .dropped => (ids = [] ∧ snd.requests = []) ∨ ids = [(i, snd.cid)]
  | _ => ids = [(i, snd.cid)]

variable {setup : Setup} {sh sh' : Shared} {snd snd' : Send} {w w' : Client}

theorem took_early {i : SendId} {ids : List (SendId × Int)} (h : snd.Took i ids)
    (hp : snd.pc.early = true) : ids = [] := by
  unfold Send.Took at h
  cases hpc : snd.pc <;> rw [hpc] at h hp <;> first | exact h | cases hp

theorem took_late {i : SendId} {ids : List (SendId × Int)} (h : snd.Took i ids)
    (hp : snd.pc.early = false) (hd : snd.pc ≠ .dropped) : ids = [(i, snd.cid)] := by
  unfold Send.Took at h
  cases hpc : snd.pc <;> rw [hpc] at h hp hd <;>
    first | exact h | exact absurd rfl hd | cases hp

theorem took_of_late {i : SendId} {ids : List (SendId × Int)} (h : ids = [(i, snd.cid)])
    (hp : snd.pc.early = false) : snd.Took i ids := by
  unfold Send.Took
  cases hpc : snd.pc <;> rw [hpc] at hp <;> first | exact h | exact .inr h | cases hp

theorem late_step (h : SendStep setup sh snd sh' snd') (hp : snd.pc.early = false) :
    sh'.cid = sh.cid ∧ snd'.cid = snd.cid ∧ snd'.pc.early = false ∧
      (snd'.pc = .dropped → snd'.requests = snd.requests) ∧
      (snd.pc = .dropped → snd'.pc = .dropped) := by
  have touch : ∀ {c : ConnId}, Touches setup sh c sh' → sh'.cid = sh.cid := by
    rintro c (rfl | ⟨a, s, -, -, rfl⟩) <;> rfl
  cases h with
  | clock now hpc _ => simp [hpc, SendPc.early] at hp
  | takeCid now cid hpc _ => simp [hpc, SendPc.early] at hp
  | act b hpc ht => exact ⟨touch ht, rfl, hp, fun _ => rfl, id⟩
  | answer b b' op r next hpc hr ha hb hbt ht =>
    exact ⟨touch ht, rfl, rfl, (fun h => by cases h), fun h => by cases hpc.symm.trans h⟩
  | issue b opcode payload next s hpc hr hw hact he =>
    subst he
    exact ⟨rfl, rfl, rfl, (fun h => by cases h), fun h => by cases hpc.symm.trans h⟩
  | drop ht =>
    rcases ht with rfl | ⟨b, -, ht⟩
    · exact ⟨rfl, rfl, rfl, fun _ => rfl, fun _ => rfl⟩
    · exact ⟨touch ht, rfl, rfl, fun _ => rfl, fun _ => rfl⟩
  | borrow hpc he | handed _ _ hpc _ he | stopped _ hpc he | wait _ _ hpc _ he | woken _ hpc he
  | turn _ _ hpc he | done _ hpc _ he | retry _ _ hpc _ _ he | fail _ _ hpc _ _ he =>
    subst he
    exact ⟨rfl, rfl, rfl, fun _ => rfl, fun h => by cases hpc.symm.trans h⟩

theorem cid_step {a : SendAction} (h : snd.step setup sh a = some (sh', snd')) :
    (∃ now, a = .takeCid ∧ snd.pc = .cid now ∧
      sh' = { sh with cid := min now (sh.cid - 1) } ∧
      snd' = { snd with cid := min now (sh.cid - 1), pc := .current .reading }) ∨
    (∃ millis, a = .readClock millis ∧ snd.pc = .clock ∧ sh' = sh ∧
      snd' = snd.goto (.cid (-(millis : Int)))) ∨
    (a ≠ .takeCid ∧ (∀ millis, a ≠ .readClock millis) ∧ sh'.cid = sh.cid ∧ snd'.cid = snd.cid ∧
      (snd'.pc = .dropped → snd'.requests = snd.requests) ∧
      ((snd.pc.early = true ∧ snd'.pc = .dropped) ∨
        (snd.pc.early = false ∧ snd'.pc.early = false ∧
          (snd.pc = .dropped → snd'.pc = .dropped)))) := by
  have late : a ≠ .takeCid → (∀ millis, a ≠ .readClock millis) → snd.pc.early = false →
      a ≠ .takeCid ∧ (∀ millis, a ≠ .readClock millis) ∧ sh'.cid = sh.cid ∧ snd'.cid = snd.cid ∧
      (snd'.pc = .dropped → snd'.requests = snd.requests) ∧
      ((snd.pc.early = true ∧ snd'.pc = .dropped) ∨
        (snd.pc.early = false ∧ snd'.pc.early = false ∧
          (snd.pc = .dropped → snd'.pc = .dropped))) := by
    intro ha hr hp
    obtain ⟨hc, hs, hl, hd, hfrom⟩ := late_step (send_step h) hp
    exact ⟨ha, hr, hc, hs, hd, .inr ⟨hp, hl, hfrom⟩⟩
  have current : ∀ {f : Current → Option Current}, snd.stepCurrent sh f = some (sh', snd') →
      snd.pc.early = false := by
    intro f hf
    simp only [Send.stepCurrent] at hf
    split at hf
    · rename_i hp
      simp [hp, SendPc.early]
    · cases hf
  cases send_turn h with
  | clock millis hp => exact .inr (.inl ⟨millis, rfl, hp, rfl, rfl⟩)
  | takeCid now hp => exact .inl ⟨now, rfl, hp, rfl, rfl⟩
  | drop hp =>
    refine .inr (.inr ?_)
    by_cases hearly : snd.pc.early = true
    · exact ⟨by simp, by simp, rfl, rfl, fun _ => rfl, .inl ⟨hearly, rfl⟩⟩
    · exact late (by simp) (by simp) (by simpa using hearly)
  | borrow hf | check hf | wake hf => exact .inr (.inr (late (by simp) (by simp) (current hf)))
  | body b hp hb =>
    refine .inr (.inr (late ?_ ?_ (by simp [hp, SendPc.early])))
    · rintro rfl
      simp [Send.stepBody] at hb
    · rintro millis rfl
      simp [Send.stepBody] at hb

theorem cid_runStep {r : RunId} {run run' : Run} (h : RunStep setup sh r run sh' run') :
    sh'.cid = sh.cid := by
  cases h with
  | loop runner runner' _ hr =>
    cases hr with
    | begin _ he _ | session _ _ _ _ _ _ _ he _ | goto he _ _ _ | after _ _ _ _ he _ _ =>
      subst he
      rfl
  | lock _ _ he | closed _ _ he | guardCancel _ _ he | guardPublish _ _ he
  | supervisorCancel _ _ he | supervisorPublish _ _ he | cancelHandlers _ _ he | unlock _ _ he
  | reject _ _ he | spawn _ _ he | join _ _ _ he | dropTrying _ he | dropJoining _ he
  | start _ he | loopEnd _ _ _ _ he =>
    subst he
    rfl

theorem cid_disconnectStep {d : DisconnectId} {pc pc' : DisconnectPc}
    (h : DisconnectStep sh d pc sh' pc') : sh'.cid = sh.cid := by
  cases h with
  | stopCancel _ he | stopPublish _ he | lock _ _ he | cancelHandlers _ he | unlock _ he
  | drop _ he =>
    subst he
    rfl

theorem took_step {i : SendId} {ids : List (SendId × Int)} (h : snd.Took i ids)
    (hc : snd'.cid = snd.cid) (hreq : snd'.pc = .dropped → snd'.requests = snd.requests)
    (hearly : snd.pc.early = true → snd.requests = [])
    (hpc : (snd.pc.early = true ∧ snd'.pc = .dropped) ∨
      (snd.pc.early = false ∧ snd'.pc.early = false ∧
        (snd.pc = .dropped → snd'.pc = .dropped))) : snd'.Took i ids := by
  rcases hpc with ⟨hp, hp'⟩ | ⟨hp, hp', hfrom⟩
  · rw [Send.Took, hp']
    exact .inl ⟨took_early h hp, (hreq hp').trans (hearly hp)⟩
  · by_cases hd : snd.pc = .dropped
    · rw [Send.Took, hd] at h
      rw [Send.Took, hfrom hd, hc, hreq (hfrom hd)]
      exact h
    · exact took_of_late (hc ▸ took_late h hp hd) hp'

structure CidInv (millis : Nat) (acts : List ClientAction) (ids : List (SendId × Int))
    (w : Client) : Prop where
  negative : w.shared.cid ≤ 0 ∧ ∀ p ∈ ids, p.2 < 0
  below : ∀ p ∈ ids, w.shared.cid ≤ p.2
  ordered : ids.Pairwise fun p q => q.2 < p.2
  low : ∀ m : Nat, (∀ n ∈ millis :: readings acts, n ≤ m) → -(m : Int) - ids.length ≤ w.shared.cid
  clock : ∀ i snd now, w.sends i = some snd → snd.pc = .cid now →
    ∃ m ∈ readings acts, now = -(m : Int)
  known : ∀ p ∈ ids, ∃ snd, w.sends p.1 = some snd
  took : ∀ i snd, w.sends i = some snd → snd.Took i (ids.filter fun p => p.1 == i)

theorem readings_snoc (acts : List ClientAction) (a : ClientAction) :
    readings (acts ++ [a]) = readings acts ++ a.reading.toList := by
  cases h : a.reading <;> simp [readings, h]

theorem update_known {α : Type} {f : Nat → Option α} {i j : Nat} {a b : α} (h : f j = some b) :
    ∃ b', Function.update f i (some a) j = some b' := by
  by_cases hj : j = i
  · exact ⟨a, by rw [hj, Function.update_self]⟩
  · exact ⟨b, by rw [Function.update_of_ne hj, h]⟩

theorem filter_ids_snoc (ids : List (SendId × Int)) (i j : SendId) (x : Int) :
    (ids ++ [(j, x)]).filter (fun p => p.1 == i) =
      ids.filter (fun p => p.1 == i) ++ if j = i then [(j, x)] else [] := by
  by_cases hj : j = i <;> simp [hj]

section Step

variable {millis : Nat} {acts : List ClientAction} {ids : List (SendId × Int)}

theorem CidInv.quiet {a : ClientAction} (hi : CidInv millis acts ids w)
    (hr : a.reading = none) (hc : w'.shared.cid = w.shared.cid)
    (hold : ∀ i snd, w.sends i = some snd → ∃ snd', w'.sends i = some snd')
    (hnew : ∀ i snd', w'.sends i = some snd' →
      (w.sends i = none ∧ snd'.pc = .clock) ∨ ∃ snd, w.sends i = some snd ∧
        (∀ now, snd'.pc = .cid now → snd.pc = .cid now) ∧
        ∀ taken, snd.Took i taken → snd'.Took i taken) :
    CidInv millis (acts ++ [a]) ids w' := by
  have hread : readings (acts ++ [a]) = readings acts := by simp [readings_snoc, hr]
  refine ⟨hc.symm ▸ hi.negative, fun p hp => hc.symm ▸ hi.below p hp, hi.ordered, fun m hm => ?_,
    fun i snd' now h hp => ?_, fun p hp => ?_, fun i snd' h => ?_⟩
  · rw [hc]
    exact hi.low m (hread ▸ hm)
  · rw [hread]
    rcases hnew i snd' h with ⟨-, hpc⟩ | ⟨snd, hs, hclock, -⟩
    · cases hpc.symm.trans hp
    · exact hi.clock i snd now hs (hclock now hp)
  · obtain ⟨snd, hs⟩ := hi.known p hp
    exact hold _ snd hs
  · rcases hnew i snd' h with ⟨hnone, hpc⟩ | ⟨snd, hs, -, htook⟩
    · have hempty : ids.filter (fun p => p.1 == i) = [] := by
        rw [List.filter_eq_nil_iff]
        intro p hp hpi
        obtain ⟨snd, hs⟩ := hi.known p hp
        rw [beq_iff_eq] at hpi
        rw [hpi, hnone] at hs
        cases hs
      rw [hempty, Send.Took, hpc]
    · exact htook _ (hi.took i snd hs)

theorem CidInv.read {i : SendId} {snd : Send} {now : Nat} (hi : CidInv millis acts ids w)
    (hs : w.sends i = some snd) (hp : snd.pc = .clock) :
    CidInv millis (acts ++ [.send i (.readClock now)]) ids
      { w with sends := Function.update w.sends i (some (snd.goto (.cid (-(now : Int))))) } := by
  have hread : readings (acts ++ [.send i (.readClock now)]) = readings acts ++ [now] := by
    simp [readings_snoc, ClientAction.reading]
  refine ⟨hi.negative, hi.below, hi.ordered, fun m hm => hi.low m fun n hn => hm n ?_,
    fun j m z h hz => ?_, fun p hp' => ?_, fun j m h => ?_⟩
  · rw [hread]
    rcases List.mem_cons.mp hn with rfl | hn
    · simp
    · simp [hn]
  · rw [hread]
    rcases update_some h with ⟨rfl, rfl⟩ | ⟨_, h⟩
    · cases hz
      exact ⟨now, by simp, rfl⟩
    · obtain ⟨x, hx, hxe⟩ := hi.clock j m z h hz
      exact ⟨x, by simp [hx], hxe⟩
  · obtain ⟨m, hm⟩ := hi.known p hp'
    exact update_known hm
  · rcases update_some h with ⟨rfl, rfl⟩ | ⟨_, h⟩
    · exact took_early (hi.took j snd hs) (by simp [hp, SendPc.early])
    · exact hi.took j m h

theorem CidInv.take {i : SendId} {snd : Send} {now : Int} (hi : CidInv millis acts ids w)
    (hs : w.sends i = some snd) (hp : snd.pc = .cid now) :
    CidInv millis (acts ++ [.send i .takeCid]) (ids ++ [(i, min now (w.shared.cid - 1))])
      { w with
        shared := { w.shared with cid := min now (w.shared.cid - 1) }
        sends := Function.update w.sends i (some
          { snd with cid := min now (w.shared.cid - 1), pc := .current .reading }) } := by
  have hread : readings (acts ++ [.send i .takeCid]) = readings acts := by
    simp [readings_snoc, ClientAction.reading]
  have hless : min now (w.shared.cid - 1) < w.shared.cid := by omega
  obtain ⟨hneg, hnegs⟩ := hi.negative
  refine ⟨⟨by dsimp only; omega, fun p hp' => ?_⟩, fun p hp' => ?_, ?_, fun m hm => ?_,
    fun j d z h hz => ?_, fun p hp' => ?_, fun j d h => ?_⟩
  · rcases List.mem_append.mp hp' with hp' | hp'
    · exact hnegs p hp'
    · rw [List.mem_singleton.mp hp']
      dsimp only
      omega
  · rcases List.mem_append.mp hp' with hp' | hp'
    · exact Int.le_trans (Int.le_of_lt hless) (hi.below p hp')
    · rw [List.mem_singleton.mp hp']
  · refine List.pairwise_append.mpr ⟨hi.ordered, List.pairwise_singleton _ _, fun p hp' q hq => ?_⟩
    rw [List.mem_singleton.mp hq]
    exact Int.lt_of_lt_of_le hless (hi.below p hp')
  · rw [hread] at hm
    have hlow := hi.low m hm
    obtain ⟨x, hx, rfl⟩ := hi.clock i snd now hs hp
    have hxm := hm x (by simp [hx])
    simp only [List.length_append, List.length_singleton]
    omega
  · rw [hread]
    rcases update_some h with ⟨rfl, rfl⟩ | ⟨_, h⟩
    · cases hz
    · exact hi.clock j d z h hz
  · rcases List.mem_append.mp hp' with hp' | hp'
    · obtain ⟨d, hd⟩ := hi.known p hp'
      exact update_known hd
    · rw [List.mem_singleton.mp hp']
      exact update_known hs
  · rw [filter_ids_snoc]
    rcases update_some h with ⟨rfl, rfl⟩ | ⟨hj, h⟩
    · have hnil := took_early (hi.took j snd hs) (by simp [hp, SendPc.early])
      simp [hnil, Send.Took]
    · rw [if_neg (Ne.symm hj), List.append_nil]
      exact hi.took j d h

theorem cidInv_step {a : ClientAction} (h : w.step setup a = some w')
    (hearly : ∀ i snd, w.sends i = some snd → snd.pc.early = true → snd.requests = [])
    (hi : CidInv millis acts ids w) :
    CidInv millis (acts ++ [a]) (ids ++ Client.takes w a w') w' := by
  -- steps that leave the sends alone
  have same : w'.sends = w.sends → w'.shared.cid = w.shared.cid → a.reading = none →
      CidInv millis (acts ++ [a]) (ids ++ []) w' := by
    intro hs hc hr
    rw [List.append_nil]
    refine hi.quiet hr hc (fun i snd h => ⟨snd, hs ▸ h⟩) fun i snd h => .inr ⟨snd, hs ▸ h, ?_⟩
    exact ⟨fun _ => id, fun _ => id⟩
  cases a with
  | startRun r | startDisconnect d =>
    simp only [Client.step] at h
    split at h <;> cases h
    exact same rfl rfl rfl
  | run r b =>
    obtain ⟨m, _, h⟩ := Option.bind_eq_some_iff.mp h
    obtain ⟨out, hout, rfl⟩ := Option.map_eq_some_iff.mp h
    exact same rfl (cid_runStep (run_step hout)) rfl
  | disconnect d b =>
    obtain ⟨m, _, h⟩ := Option.bind_eq_some_iff.mp h
    obtain ⟨out, hout, rfl⟩ := Option.map_eq_some_iff.mp h
    exact same rfl (cid_disconnectStep (disconnect_step hout)) rfl
  | worker c b =>
    simp only [Client.step, Option.ite_none_right_eq_some] at h
    obtain ⟨_, h⟩ := h
    obtain ⟨sh, hsh, rfl⟩ := Option.map_eq_some_iff.mp h
    obtain ⟨s, _, rfl⟩ := onSession_eq hsh
    exact same rfl rfl rfl
  | startSend j job =>
    simp only [Client.step] at h
    split at h <;> cases h
    rename_i hnone
    show CidInv millis _ (ids ++ []) _
    rw [List.append_nil]
    refine hi.quiet rfl rfl (fun i snd h => update_known h) fun i snd' h => ?_
    · rcases update_some h with ⟨rfl, rfl⟩ | ⟨_, h⟩
      · exact .inl ⟨hnone, rfl⟩
      · exact .inr ⟨snd', h, fun _ => id, fun _ => id⟩
  | send j b =>
    obtain ⟨snd, hsnd, h⟩ := Option.bind_eq_some_iff.mp h
    obtain ⟨⟨sh, snd'⟩, hstep, rfl⟩ := Option.map_eq_some_iff.mp h
    rcases cid_step hstep with ⟨now, rfl, hp, rfl, rfl⟩ | ⟨now, rfl, hp, rfl, rfl⟩ |
      ⟨hb, hr, hc, hkeep, hdrop, hpc⟩
    · exact hi.take hsnd hp
    · show CidInv millis _ (ids ++ []) _
      rw [List.append_nil]
      exact hi.read hsnd hp
    · have htakes : Client.takes w (.send j b)
          { w with shared := sh, sends := Function.update w.sends j (some snd') } = [] := by
        cases b <;> first | rfl | exact absurd rfl hb
      have hread : (ClientAction.send j b).reading = none := by
        cases b with
        | readClock m => exact absurd rfl (hr m)
        | _ => rfl
      rw [htakes, List.append_nil]
      refine hi.quiet hread hc (fun i d h => update_known h) fun i d' h => ?_
      rcases update_some h with ⟨rfl, rfl⟩ | ⟨_, h⟩
      · refine .inr ⟨snd, hsnd, fun now hp => ?_, fun taken ht =>
          took_step ht hkeep hdrop (hearly i snd hsnd) hpc⟩
        rcases hpc with ⟨-, hd⟩ | ⟨-, hl, -⟩
        · cases hd.symm.trans hp
        · simp [hp, SendPc.early] at hl
      · exact .inr ⟨d', h, fun _ => id, fun _ => id⟩

end Step

variable {millis : Nat} {acts : List ClientAction}

theorem cidInv_of_exec (h : (Client.automaton setup).exec (Client.new setup millis) acts = some w) :
    CidInv millis acts (Client.ids setup (Client.new setup millis) acts) w := by
  have hr : (Client.automaton setup).Reachable (Client.new setup millis) := .init ⟨millis, rfl⟩
  refine Automaton.exec_invariant
    (I := fun as t => CidInv millis as (Client.ids setup (Client.new setup millis) as) t) h ?_
    fun as a t u ht hs hi => ?_
  · have hids : Client.ids setup (Client.new setup millis) [] = [] := rfl
    have hsends : ∀ i, (Client.new setup millis).sends i = none := fun _ => rfl
    rw [hids]
    refine ⟨⟨?_, by simp⟩, by simp, .nil, fun m hm => ?_, by simp [hsends], by simp,
      by simp [hsends]⟩
    · simp [Client.new]
    · have hle := hm millis (by simp)
      simp only [List.length_nil, Client.new]
      omega
  · have hsend := sendInv_of_reachable (hr.exec ht)
    rw [Client.ids, Automaton.observe_snoc ht hs]
    refine cidInv_step hs (fun i snd hi hp => ((hsend i snd hi).early ?_).2) hi
    cases hpc : snd.pc with
    | clock => exact .inl rfl
    | cid now => exact .inr ⟨now, rfl⟩
    | _ => simp [hpc, SendPc.early] at hp

theorem message_cid {cid : Int} {job : SendJob} {opcode : Nat} {payload : Value}
    (h : Genuine cid job opcode payload) (ho : opcode = Opcode.MSG_SEND) :
    (payload.get "message").get "cid" = .int cid := by
  cases job with
  | text m =>
    obtain ⟨-, rfl⟩ := h
    rfl
  | file m =>
    rcases h with ⟨hup, -⟩ | ⟨-, fileId, -, rfl⟩
    · exact absurd (hup.symm.trans ho) (by decide)
    · rfl

theorem id_of_request {i : SendId} {c : ConnId} {k : CallId}
    (hi : CidInv millis acts (Client.ids setup (Client.new setup millis) acts) w)
    (hsi : SendInv w.shared snd) (hs : w.sends i = some snd) (hm : (c, k) ∈ snd.requests) :
    (i, snd.cid) ∈ Client.ids setup (Client.new setup millis) acts := by
  have hone : (Client.ids setup (Client.new setup millis) acts).filter (fun p => p.1 == i) =
      [(i, snd.cid)] := by
    have htook := hi.took i snd hs
    have hearly : snd.pc = .clock ∨ (∃ now, snd.pc = .cid now) → False := fun h => by
      rw [(hsi.early h).2] at hm
      cases hm
    unfold Send.Took at htook
    split at htook
    · exact (hearly (.inl (by assumption))).elim
    · exact (hearly (.inr ⟨_, by assumption⟩)).elim
    · refine htook.resolve_left fun h => ?_
      rw [h.2] at hm
      cases hm
    · exact htook
  have hmem : (i, snd.cid) ∈ (Client.ids setup (Client.new setup millis) acts).filter
      (fun p => p.1 == i) := by rw [hone]; exact List.mem_singleton.mpr rfl
  exact (List.mem_filter.mp hmem).1

namespace Client

/-- The ids of the messages of one client: they decrease in the order in which the lock of the
counter is taken, no operation on them overflows, each send takes one, and the messages of two
sends never carry the same. -/
theorem message_ids_unique (h : (automaton setup).exec (new setup millis) acts = some w)
    (hclock : ∀ m ∈ millis :: readings acts,
      m + (ids setup (new setup millis) acts).length < 2 ^ 63) :
    ((ids setup (new setup millis) acts).map Prod.snd).Pairwise (· > ·) ∧
    (∀ p ∈ ids setup (new setup millis) acts, p.2 < 0) ∧
    checkedNow millis = some (new setup millis).shared.cid ∧
    (∀ i snd now, w.sends i = some snd → snd.pc = .cid now →
      ∃ m : Nat, m ∈ readings acts ∧ now = -(m : Int) ∧
        checkedNextCid w.shared.cid m = some (min now (w.shared.cid - 1))) ∧
    (∀ i snd, w.sends i = some snd →
      snd.Took i ((ids setup (new setup millis) acts).filter fun p => p.1 == i)) ∧
    (∀ i snd c k d, w.sends i = some snd → (c, k) ∈ snd.requests →
      w.shared.call c k = some d → d.opcode = Opcode.MSG_SEND →
      (d.payload.get "message").get "cid" = .int snd.cid ∧
        (i, snd.cid) ∈ ids setup (new setup millis) acts) ∧
    (∀ i j snd snd' c k c' k', i ≠ j → w.sends i = some snd → w.sends j = some snd' →
      (c, k) ∈ snd.requests → (c', k') ∈ snd'.requests → snd.cid ≠ snd'.cid) := by
  have hi := cidInv_of_exec h
  have hr : (automaton setup).Reachable w :=
    Automaton.Reachable.exec (.init ⟨millis, rfl⟩) h
  have hsend := sendInv_of_reachable hr
  refine ⟨List.pairwise_map.mpr hi.ordered, hi.negative.2, checkedNow_eq ?_,
    fun i snd now hs hp => ?_, hi.took, fun i snd c k d hs hm hd ho => ?_,
    fun i j snd snd' c k c' k' hij hs hs' hm hm' heq => ?_⟩
  · have := hclock millis (by simp)
    omega
  · obtain ⟨m, hm, rfl⟩ := hi.clock i snd now hs hp
    have hfit := hclock m (by simp [hm])
    refine ⟨m, hm, rfl, checkedNextCid_eq (by omega) ?_ hi.negative.1⟩
    -- the largest reading so far bounds the counter from below
    have hlow := hi.low (2 ^ 63 - 1 - (ids setup (new setup millis) acts).length) fun n hn => by
      have := hclock n hn
      omega
    omega
  · obtain ⟨-, d', hd', hgen⟩ := (hsend i snd hs).requests c k hm
    cases hd.symm.trans hd'
    exact ⟨message_cid hgen ho, id_of_request hi (hsend i snd hs) hs hm⟩
  · have hone := id_of_request hi (hsend i snd hs) hs hm
    have htwo := id_of_request hi (hsend j snd' hs') hs' hm'
    have hdistinct : (ids setup (new setup millis) acts).Pairwise fun p q => p.2 ≠ q.2 :=
      hi.ordered.imp fun hlt => (Int.ne_of_lt hlt).symm
    have hsymm : Std.Symm fun p q : SendId × Int => p.2 ≠ q.2 := ⟨fun _ _ => Ne.symm⟩
    exact hdistinct.forall hone htwo (fun he => hij (congrArg Prod.fst he)) heq

/-- Two sends whose clock jumps back between their readings. -/
theorem message_ids_unique_back : ∃ acts w,
    (automaton sampleSetup).exec (new sampleSetup 4) acts = some w ∧ readings acts = [5, 3] ∧
      (ids sampleSetup (new sampleSetup 4) acts) = [(1, -5), (0, -6)] ∧
      ((ids sampleSetup (new sampleSetup 4) acts).map Prod.snd).Pairwise (· > ·) := by
  let acts : List ClientAction := [.startSend 0 sampleText, .startSend 1 sampleText,
    .send 0 (.readClock 5), .send 1 (.readClock 3), .send 1 .takeCid, .send 0 .takeCid]
  have hrun : (automaton sampleSetup).exec (new sampleSetup 4) acts =
      some (((automaton sampleSetup).exec (new sampleSetup 4) acts).get rfl) := rfl
  exact ⟨acts, _, hrun, rfl, rfl, (message_ids_unique hrun (by decide)).1⟩

end Client

end Maxrs
