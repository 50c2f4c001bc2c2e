import Mathlib.Data.List.Pairwise
import Maxrs.TelegramOffset
set_option autoImplicit false

/-! `request_text` and the Bot API: which updates it can take the text from. -/
namespace Maxrs.Telegram

/-- An update as `getUpdates` returns it; its id and the offset after it are `i64`s. -/
structure BotUpdate where
  value : Value
  id : Int
  hasId : value.get "update_id" = .int id
  low : -(2 ^ 63) ≤ id
  high : id + 1 < 2 ^ 63

/-- The updates that are pending when `request_text` starts, oldest first. -/
structure Backlog where
  updates : List BotUpdate
  sorted : updates.Pairwise (·.id < ·.id)

/-- An offset confirms all smaller ids. -/
def unconfirmed (pending : List BotUpdate) : Option Int → List BotUpdate
  | none => pending
  | some offset => pending.filter (offset ≤ ·.id)

/-- How many updates one call returns when it sets no limit. -/
def DEFAULT_LIMIT : Nat := 100

def botReply (answer : List BotUpdate) : Reply :=
  .ok (OK, .ok (.object [("ok", .bool true), ("result", .array (answer.map BotUpdate.value))]))

structure Chat where
  client : RequestText
  pending : List BotUpdate
  /-- What the last `getUpdates` returned. -/
  answered : List BotUpdate
  /-- The update whose text was looked at last. -/
  source : Option BotUpdate

inductive ChatAction where
  | arrive (update : BotUpdate)
  /-- The bot answers `getUpdates`. -/
  | answer
  /-- Everything else, calls of `getUpdates` that fail included. -/
  | client (a : RequestTextAction)

namespace Chat

variable (display : DisplayText) (config : TelegramOperatorConfig) (phone : String)
  (before : Backlog)

def start : Chat where
  client := requestSmsCode config phone
  pending := before.updates
  answered := []
  source := none

def stepAnswer (s : Chat) (offset : Option Int) : Option Chat :=
  let pending := unconfirmed s.pending offset
  (s.client.step display (.reply (botReply (pending.take DEFAULT_LIMIT)))).map fun client =>
    { s with client := client, pending := pending, answered := pending.take DEFAULT_LIMIT }

def looked (s : Chat) : Option BotUpdate :=
  match s.client.pc with
  | .assigned _ scanned _ _ => s.answered[scanned.length]?
  | _ => s.source

def fails : RequestTextAction → Bool
  | .reply reply => !(fetchUpdates display reply).isOk
  | _ => true

def step (s : Chat) : ChatAction → Option Chat
  | .arrive update =>
    if ∀ u ∈ before.updates ++ s.pending, u.id < update.id then
      some { s with pending := s.pending ++ [update] }
    else none
  | .answer =>
    match s.client.request with
    | some (.getUpdates _ offset) => s.stepAnswer display offset
    | _ => none
  | .client a =>
    if fails display a then
      (s.client.step display a).map fun client => { s with client := client, source := s.looked }
    else none

def automaton : Automaton Chat ChatAction where
  init := fun s => s = start config phone before
  step := step display before

def textOf (update : BotUpdate) : Option String :=
  operatorTextFromUpdate update.value config.chatId config.botUserId

def Stale (s : Chat) : Prop :=
  ∃ text update, s.client.pc = .returned (.ok text) ∧ s.source = some update ∧
    update ∈ before.updates

end Chat

theorem BotUpdate.updateId (u : BotUpdate) : (u.value.get "update_id").asI64 = some u.id := by
  have hfit : Value.fitsI64 u.id = true := by
    have hlow := u.low
    have hhigh := u.high
    simp only [Value.fitsI64, Bool.and_eq_true, decide_eq_true_eq]
    omega
  rw [u.hasId, Value.asI64_int _ hfit]

@[simp] theorem updateIds_values (us : List BotUpdate) :
    updateIds (us.map BotUpdate.value) = us.map BotUpdate.id := by
  induction us with
  | nil => rfl
  | cons u us ih => simpa [updateIds, u.updateId] using ih

@[simp] theorem botReply_result (us : List BotUpdate) :
    ((Value.object [("ok", .bool true), ("result", .array (us.map BotUpdate.value))]).get
      "result").asArray = some (us.map BotUpdate.value) := by
  simp [Value.get, Value.asArray]

theorem fetchUpdates_botReply (display : DisplayText) (us : List BotUpdate) :
    fetchUpdates display (botReply us) =
      .ok (.object [("ok", .bool true), ("result", .array (us.map BotUpdate.value))]) := by
  rfl

/-- The offset after the snapshot: one past every id in it. -/
theorem snapshotPc_botReply (display : DisplayText) (us : List BotUpdate) :
    ∃ offset, RequestText.snapshotPc display (botReply us) = .sending offset ∧
      (∀ u ∈ us, u.id < offset) ∧ ((us = [] ∧ offset = 0) ∨ ∃ u ∈ us, offset = u.id + 1) := by
  have hsnap := RequestText.snapshotPc_ok (fetchUpdates_botReply display us)
  have hlatest :
      latestId (.object [("ok", .bool true), ("result", .array (us.map BotUpdate.value))]) =
      (us.map BotUpdate.id).max? := by
    simp [latestId]
  rw [hlatest] at hsnap
  cases hmax : (us.map BotUpdate.id).max? with
  | none =>
    have hnil : us = [] := by simpa using List.max?_eq_none_iff.mp hmax
    simp only [hmax, Option.getD_none] at hsnap
    exact ⟨0, hsnap, by simp [hnil], .inl ⟨hnil, rfl⟩⟩
  | some id =>
    obtain ⟨hmem, hle⟩ := List.max?_eq_some_iff.mp hmax
    obtain ⟨u, hu, rfl⟩ := List.mem_map.mp hmem
    have hsome : checkedI64 (u.id + 1) = some (u.id + 1) := by
      rcases RequestText.checkedI64_succ (Value.asI64_fits u.updateId) with ⟨-, hc⟩ | ⟨hge, -⟩
      · exact hc
      · exact absurd u.high hge
    simp only [hmax, Option.getD_some, hsome] at hsnap
    refine ⟨u.id + 1, hsnap, fun v hv => ?_, .inr ⟨u, hu, rfl⟩⟩
    have hv := hle v.id (List.mem_map_of_mem hv)
    omega

theorem snapshotPc_cases (display : DisplayText) (reply : Reply) :
    (∃ error, RequestText.snapshotPc display reply = .returned (.error error)) ∨
    RequestText.snapshotPc display reply = .overflowed ∨
    ∃ offset, RequestText.snapshotPc display reply = .sending offset := by
  simp only [RequestText.snapshotPc]
  split
  · rename_i error _
    exact .inl ⟨error, rfl⟩
  · exact .inr (.inl rfl)
  · rename_i offset _
    exact .inr (.inr ⟨offset, rfl⟩)

theorem fetchedPc_botReply (display : DisplayText) (offset : Int) (us : List BotUpdate) :
    RequestText.fetchedPc display offset (botReply us) =
      .scanning offset [] (us.map BotUpdate.value) := by
  simp [RequestText.fetchedPc, fetchUpdates_botReply]

theorem nextPc_update (offset : Int) (scanned rest : List Value) (u : BotUpdate) :
    RequestText.nextPc offset scanned (u.value :: rest) =
      .assigned (u.id + 1) scanned u.value rest := by
  rcases RequestText.nextPc_cons offset scanned u.value rest with ⟨hid, -⟩ | ⟨id, hid, -, hnext⟩ |
    ⟨id, hid, hge, -⟩
  · rw [u.updateId] at hid
    cases hid
  · rw [u.updateId] at hid
    cases hid
    exact hnext
  · rw [u.updateId] at hid
    cases hid
    exact absurd u.high hge

namespace Chat

variable {display : DisplayText} {config : TelegramOperatorConfig} {phone : String}
  {before : Backlog} {s s' : Chat}

structure Batch (s : Chat) (offset : Int) (scanned rest : List BotUpdate) : Prop where
  answered : s.answered = scanned ++ rest
  sorted : rest.Pairwise (·.id < ·.id)
  past : ∀ u ∈ rest, offset ≤ u.id

/-- No update of the backlog with a text for the operator is at or past the offset. -/
structure Inv (config : TelegramOperatorConfig) (before : Backlog) (s : Chat) : Prop where
  unchanged : s.client.config = config
  snapshot : s.client.pc = .snapshot → ∃ later, s.pending = before.updates ++ later
  sorted : s.pending.Pairwise (·.id < ·.id)
  past : ∀ offset, s.client.offset? = some offset → ∀ u ∈ before.updates,
    textOf config u ≠ none → u.id < offset
  scanning : ∀ offset scanned rest, s.client.pc = .scanning offset scanned rest →
    ∃ us vs, scanned = us.map BotUpdate.value ∧ rest = vs.map BotUpdate.value ∧
      s.Batch offset us vs
  assigned : ∀ offset scanned value rest, s.client.pc = .assigned offset scanned value rest →
    ∃ us u vs, scanned = us.map BotUpdate.value ∧ value = u.value ∧
      rest = vs.map BotUpdate.value ∧ s.answered = us ++ u :: vs ∧
      vs.Pairwise (·.id < ·.id) ∧ (∀ v ∈ vs, offset ≤ v.id) ∧
      (u ∈ before.updates → textOf config u = none)
  returned : ∀ text, s.client.pc = .returned (.ok text) →
    ∃ u, s.source = some u ∧ textOf config u = some text ∧ u ∉ before.updates

/-- Every update of the backlog with a text for the operator is in its first hundred. -/
def Covered (config : TelegramOperatorConfig) (before : Backlog) : Prop :=
  ∀ u ∈ before.updates.drop DEFAULT_LIMIT, textOf config u = none

theorem Inv.idle (hi : Inv config before s) (hconfig : s'.client.config = s.client.config)
    (hpending : s'.pending.Pairwise (·.id < ·.id)) (hstart : s'.client.pc ≠ .snapshot)
    (hoffset : ∀ offset, s'.client.offset? = some offset → s.client.offset? = some offset)
    (hscan : ∀ offset scanned rest, s'.client.pc ≠ .scanning offset scanned rest)
    (hassigned : ∀ offset scanned u rest, s'.client.pc ≠ .assigned offset scanned u rest)
    (hreturned : ∀ text, s'.client.pc ≠ .returned (.ok text)) : Inv config before s' where
  unchanged := hconfig.trans hi.unchanged
  snapshot := fun h => absurd h hstart
  sorted := hpending
  past := fun offset h => hi.past offset (hoffset offset h)
  scanning := fun offset scanned rest h => absurd h (hscan offset scanned rest)
  assigned := fun offset scanned u rest h => absurd h (hassigned offset scanned u rest)
  returned := fun text h => absurd h (hreturned text)

theorem inv_arrive {update : BotUpdate} (h : step display before s (.arrive update) = some s')
    (hi : Inv config before s) : Inv config before s' := by
  simp only [step] at h
  split at h
  · rename_i hlater
    cases h
    refine ⟨hi.unchanged, fun hpc => ?_, ?_, hi.past, fun o sc r hpc => ?_, hi.assigned,
      hi.returned⟩
    · obtain ⟨later, hl⟩ := hi.snapshot hpc
      exact ⟨later ++ [update], by simp [hl]⟩
    · refine List.pairwise_append.mpr ⟨hi.sorted, List.pairwise_singleton _ _, ?_⟩
      intro u hu v hv
      rw [List.mem_singleton.mp hv]
      exact hlater u (List.mem_append_right _ hu)
    · obtain ⟨us, vs, hus, hvs, hb⟩ := hi.scanning o sc r hpc
      exact ⟨us, vs, hus, hvs, hb.answered, hb.sorted, hb.past⟩
  · cases h

theorem unconfirmed_sublist (pending : List BotUpdate) (offset : Option Int) :
    (unconfirmed pending offset).Sublist pending := by
  cases offset with
  | none => exact List.Sublist.refl _
  | some offset => exact List.filter_sublist

theorem request_cases {c : RequestText} {timeout : Nat} {offset : Option Int}
    (h : c.request = some (.getUpdates timeout offset)) :
    (c.pc = .snapshot ∧ offset = none) ∨ ∃ o, c.pc = .fetching o ∧ offset = some o := by
  cases hpc : c.pc with
  | fetching o =>
    simp only [RequestText.request, hpc, Option.some.injEq, Request.getUpdates.injEq] at h
    exact .inr ⟨o, rfl, h.2.symm⟩
  | snapshot =>
    simp only [RequestText.request, hpc, Option.some.injEq, Request.getUpdates.injEq] at h
    exact .inl ⟨rfl, h.2.symm⟩
  | _ => simp [RequestText.request, hpc] at h

/-- The snapshot holds every update of the backlog that has a text for the operator. -/
theorem Covered.mem_take (hc : Covered config before) {later : List BotUpdate} {u : BotUpdate}
    (hu : u ∈ before.updates) (ht : textOf config u ≠ none) :
    u ∈ (before.updates ++ later).take DEFAULT_LIMIT := by
  have hsplit : u ∈ before.updates.take DEFAULT_LIMIT ++ before.updates.drop DEFAULT_LIMIT := by
    rw [List.take_append_drop]
    exact hu
  rcases List.mem_append.mp hsplit with hu | hu
  · rw [List.take_append]
    exact List.mem_append_left _ hu
  · exact absurd (hc u hu) ht

theorem inv_answer (hc : Covered config before) (h : step display before s .answer = some s')
    (hi : Inv config before s) : Inv config before s' := by
  simp only [step] at h
  split at h
  · rename_i timeout offset hreq
    obtain ⟨client, hclient, rfl⟩ := Option.map_eq_some_iff.mp h
    have hsorted : (unconfirmed s.pending offset).Pairwise (·.id < ·.id) :=
      hi.sorted.sublist (unconfirmed_sublist s.pending offset)
    rcases request_cases hreq with ⟨hpc, rfl⟩ | ⟨o, hpc, rfl⟩
    · simp only [RequestText.step, hpc, Option.some.injEq] at hclient
      subst hclient
      obtain ⟨later, hl⟩ := hi.snapshot hpc
      obtain ⟨o, hsnap, hpast, -⟩ :=
        snapshotPc_botReply display ((unconfirmed s.pending none).take DEFAULT_LIMIT)
      refine ⟨hi.unchanged, fun h => (by simp [hsnap] at h), hsorted, ?_,
        fun o sc r h => (by simp [hsnap] at h), fun o sc u r h => (by simp [hsnap] at h),
        fun text h => (by simp [hsnap] at h)⟩
      intro offset ho u hu ht
      have hoff : o = offset := by simpa [RequestText.offset?, hsnap] using ho
      have hmem : u ∈ (before.updates ++ later).take DEFAULT_LIMIT := hc.mem_take hu ht
      rw [← hl] at hmem
      exact hoff ▸ hpast u hmem
    · simp only [RequestText.step, hpc, Option.some.injEq] at hclient
      subst hclient
      have hfetch := fetchedPc_botReply display o
        ((unconfirmed s.pending (some o)).take DEFAULT_LIMIT)
      refine ⟨hi.unchanged, fun h => (by simp [hfetch] at h), hsorted, ?_, ?_,
        fun o sc u r h => (by simp [hfetch] at h), fun text h => (by simp [hfetch] at h)⟩
      · intro offset ho
        refine hi.past offset ?_
        simpa [RequestText.offset?, hfetch, hpc] using ho
      · intro offset sc r h
        simp only [RequestText.setPc_pc, hfetch] at h
        cases h
        refine ⟨[], (unconfirmed s.pending (some o)).take DEFAULT_LIMIT, rfl, rfl, rfl, ?_, ?_⟩
        · exact hsorted.sublist (List.take_sublist _ _)
        · intro u hu
          have hu := List.mem_of_mem_take hu
          simp only [unconfirmed, List.mem_filter, decide_eq_true_eq] at hu
          exact hu.2
  · cases h

theorem inv_client {a : RequestTextAction} (h : step display before s (.client a) = some s')
    (hi : Inv config before s) : Inv config before s' := by
  simp only [step] at h
  split at h
  · rename_i hfails
    obtain ⟨client, hclient, rfl⟩ := Option.map_eq_some_iff.mp h
    rcases RequestText.step_cases display hclient with ⟨reply, rfl, hpc, rfl⟩ |
      ⟨reply, offset, rfl, hpc, rfl⟩ | ⟨reply, now, offset, rfl, hpc, -, ⟨error, rfl⟩ | ⟨-, rfl⟩ |
      ⟨-, rfl⟩⟩ | ⟨now, offset, rfl, hpc, -, ⟨-, rfl⟩ | ⟨-, rfl⟩⟩ |
      ⟨offset, scanned, rest, rfl, hpc, rfl⟩ | ⟨offset, scanned, value, rest, rfl, hpc, rfl⟩
    · cases hf : fetchUpdates display reply with
      | ok resp => simp [fails, hf, Except.isOk, Except.toBool] at hfails
      | error error =>
        have hret : RequestText.snapshotPc display reply = .returned (.error error) := by
          simp [RequestText.snapshotPc, hf, Except.bind]
        exact hi.idle rfl hi.sorted (by simp [hret]) (by simp [hret, RequestText.offset?])
          (by simp [hret]) (by simp [hret]) (by simp [hret])
    · cases hf : fetchUpdates display reply with
      | ok resp => simp [fails, hf, Except.isOk, Except.toBool] at hfails
      | error error =>
        have hret : RequestText.fetchedPc display offset reply = .returned (.error error) := by
          simp [RequestText.fetchedPc, hf]
        exact hi.idle rfl hi.sorted (by simp [hret]) (by simp [hret, RequestText.offset?])
          (by simp [hret]) (by simp [hret]) (by simp [hret])
    · exact hi.idle rfl hi.sorted (by simp) (by simp [RequestText.offset?]) (by simp) (by simp)
        (by simp)
    · exact hi.idle rfl hi.sorted (by simp) (by simp [RequestText.offset?]) (by simp) (by simp)
        (by simp)
    · exact hi.idle rfl hi.sorted (by simp) (by simp [RequestText.offset?, hpc]) (by simp) (by simp)
        (by simp)
    · exact hi.idle rfl hi.sorted (by simp) (by simp [RequestText.offset?]) (by simp) (by simp)
        (by simp)
    · exact hi.idle rfl hi.sorted (by simp) (by simp [RequestText.offset?, hpc]) (by simp) (by simp)
        (by simp)
    · obtain ⟨us, vs, rfl, rfl, hb⟩ := hi.scanning offset scanned rest hpc
      cases vs with
      | nil =>
        have hnext : RequestText.nextPc offset (us.map BotUpdate.value) [] = .polling offset := rfl
        exact hi.idle rfl hi.sorted (by simp [hnext]) (by simp [hnext, RequestText.offset?, hpc])
          (by simp [hnext]) (by simp [hnext]) (by simp [hnext])
      | cons v vs =>
        have hnext := nextPc_update offset (us.map BotUpdate.value) (vs.map BotUpdate.value) v
        have hle : offset ≤ v.id := hb.past v List.mem_cons_self
        have hpast := hi.past offset (RequestText.offset?_scanning hpc)
        refine ⟨hi.unchanged, fun h => (by simp [hnext] at h), hi.sorted, fun o ho u hu ht => ?_,
          fun o sc r h => (by simp [hnext] at h), fun o sc value r h => ?_,
          fun text h => (by simp [hnext] at h)⟩
        · have hoff : v.id + 1 = o := by simpa [RequestText.offset?, hnext] using ho
          have hu := hpast u hu ht
          omega
        · simp only [RequestText.setPc_pc, List.map_cons, hnext] at h
          cases h
          obtain ⟨hlater, hsorted⟩ := List.pairwise_cons.mp hb.sorted
          refine ⟨us, v, vs, rfl, rfl, rfl, hb.answered, hsorted, fun w hw => ?_, fun hmem => ?_⟩
          · have hw := hlater w hw
            omega
          · by_contra ht
            have hv := hpast v hmem ht
            omega
    · obtain ⟨us, u, vs, rfl, rfl, rfl, hans, hsorted, hpast, hfresh⟩ :=
        hi.assigned offset scanned value rest hpc
      rcases RequestText.lookPc_cases s.client.config offset (us.map BotUpdate.value) u.value
        (vs.map BotUpdate.value) with ⟨text, htext, hret⟩ | ⟨-, hret⟩
      · rw [hi.unchanged] at htext
        have hsource : s.looked = some u := by simp [looked, hpc, hans]
        refine ⟨hi.unchanged, fun h => (by simp [hret] at h), hi.sorted,
          fun o ho => (by simp [RequestText.offset?, hret] at ho),
          fun o sc r h => (by simp [hret] at h), fun o sc v r h => (by simp [hret] at h),
          fun text' h => ?_⟩
        simp only [RequestText.setPc_pc, hret] at h
        cases h
        refine ⟨u, hsource, htext, fun hmem => ?_⟩
        rw [textOf, htext] at hfresh
        cases hfresh hmem
      · refine ⟨hi.unchanged, fun h => (by simp [hret] at h), hi.sorted, fun o ho => ?_,
          fun o sc r h => ?_, fun o sc v r h => (by simp [hret] at h),
          fun text h => (by simp [hret] at h)⟩
        · refine hi.past o ?_
          rw [RequestText.offset?_assigned hpc]
          simpa [RequestText.offset?, hret] using ho
        · simp only [RequestText.setPc_pc, hret] at h
          cases h
          exact ⟨us ++ [u], vs, by simp, rfl, by simp [hans], hsorted, hpast⟩
  · cases h

theorem inv_start : Inv config before (start config phone before) where
  unchanged := rfl
  snapshot := fun _ => ⟨[], (List.append_nil _).symm⟩
  sorted := before.sorted
  past := fun offset h => by cases h
  scanning := fun offset scanned rest h => by cases h
  assigned := fun offset scanned value rest h => by cases h
  returned := fun text h => by cases h

theorem inv_reachable (hc : Covered config before)
    (hs : (automaton display config phone before).Reachable s) : Inv config before s := by
  refine hs.invariant (fun s h => h ▸ inv_start) fun s a t hstep hi => ?_
  cases a with
  | arrive update =>
    have harrive : step display before s (.arrive update) = some t := hstep
    exact inv_arrive harrive hi
  | answer => exact inv_answer hc hstep hi
  | client a => exact inv_client hstep hi

/-- Without time to wait, or with a deadline that no clock can hold, no updates are asked for after
the snapshot. -/
def Hasty (c : RequestText) : Prop :=
  (c.config.pollTimeout = 0 ∨ INSTANT_END ≤ c.config.pollTimeout) ∧
    match c.pc with
    | .snapshot | .sending _ | .returned (.error _) | .overflowed | .panicked => True
    | .polling _ => c.deadline ≤ c.now
    | _ => False

theorem hasty_step {c c' : RequestText} {a : RequestTextAction}
    (h : c.step display a = some c') (hh : Hasty c) : Hasty c' := by
  obtain ⟨hidle, hpc'⟩ := hh
  rcases RequestText.step_cases display h with ⟨reply, rfl, hpc, rfl⟩ |
    ⟨reply, offset, rfl, hpc, rfl⟩ | ⟨reply, now, offset, rfl, hpc, -, ⟨error, rfl⟩ | ⟨-, rfl⟩ |
    ⟨hend, rfl⟩⟩ | ⟨now, offset, rfl, hpc, hnow, ⟨-, rfl⟩ | ⟨hlt, rfl⟩⟩ |
    ⟨offset, scanned, rest, rfl, hpc, rfl⟩ | ⟨offset, scanned, value, rest, rfl, hpc, rfl⟩
  · refine ⟨hidle, ?_⟩
    rcases snapshotPc_cases display reply with ⟨error, hret⟩ | hret | ⟨offset, hret⟩
    all_goals simp [hret]
  · simp [hpc] at hpc'
  · exact ⟨hidle, trivial⟩
  · exact ⟨hidle, trivial⟩
  · refine ⟨hidle, ?_⟩
    show now + c.config.pollTimeout ≤ now
    omega
  · exact ⟨hidle, trivial⟩
  · simp only [hpc] at hpc'
    omega
  · simp [hpc] at hpc'
  · simp [hpc] at hpc'

theorem hasty_reachable (hidle : config.pollTimeout = 0 ∨ INSTANT_END ≤ config.pollTimeout)
    (hs : (automaton display config phone before).Reachable s) : Hasty s.client := by
  refine hs.invariant (I := fun s => Hasty s.client) (fun s h => ?_) fun s a t hstep hh => ?_
  · rw [show s = start config phone before from h]
    exact ⟨hidle, trivial⟩
  cases a with
  | arrive update =>
    simp only [automaton, step] at hstep
    split at hstep <;> cases hstep
    exact hh
  | answer =>
    simp only [automaton, step] at hstep
    split at hstep
    · obtain ⟨client, hclient, rfl⟩ := Option.map_eq_some_iff.mp hstep
      exact hasty_step hclient hh
    · cases hstep
  | client a =>
    simp only [automaton, step] at hstep
    split at hstep
    · obtain ⟨client, hclient, rfl⟩ := Option.map_eq_some_iff.mp hstep
      exact hasty_step hclient hh
    · cases hstep

def cursor (offset : Int) (us : List BotUpdate) : Int := us.foldl (fun _ u => u.id + 1) offset

theorem cursor_past {us : List BotUpdate} (hs : us.Pairwise (·.id < ·.id)) (offset : Int) :
    ∀ u ∈ us, u.id < cursor offset us := by
  induction us generalizing offset with
  | nil => simp
  | cons v vs ih =>
    obtain ⟨hv, hvs⟩ := List.pairwise_cons.mp hs
    intro u hu
    rcases List.mem_cons.mp hu with rfl | hu
    · cases vs with
      | nil => exact Int.lt_succ _
      | cons w ws =>
        have hw := hv w List.mem_cons_self
        have hc := ih hvs (u.id + 1) w List.mem_cons_self
        exact hw.trans hc
    · exact ih hvs (v.id + 1) u hu

theorem cursor_le {us : List BotUpdate} {offset id : Int} (hoffset : offset ≤ id)
    (hus : ∀ u ∈ us, u.id < id) : cursor offset us ≤ id := by
  induction us generalizing offset with
  | nil => exact hoffset
  | cons v vs ih =>
    exact ih (hus v List.mem_cons_self) fun u hu => hus u (List.mem_cons_of_mem _ hu)

theorem unconfirmed_append {us vs : List BotUpdate} {offset : Int}
    (hus : ∀ u ∈ us, u.id < offset) (hvs : ∀ v ∈ vs, offset ≤ v.id) :
    unconfirmed (us ++ vs) (some offset) = vs := by
  have hleft : us.filter (offset ≤ ·.id) = [] := by
    refine List.filter_eq_nil_iff.mpr fun u hu => ?_
    have hu := hus u hu
    simp only [decide_eq_true_eq]
    omega
  have hright : vs.filter (offset ≤ ·.id) = vs := by
    refine List.filter_eq_self.mpr fun v hv => ?_
    simp only [decide_eq_true_eq]
    exact hvs v hv
  rw [unconfirmed, List.filter_append, hleft, hright, List.nil_append]

/-- The offset after a batch confirms exactly the batch. -/
theorem unconfirmed_cursor {us vs : List BotUpdate} {offset : Int}
    (hs : (us ++ vs).Pairwise (·.id < ·.id)) (hoffset : ∀ v ∈ vs, offset ≤ v.id) :
    unconfirmed (us ++ vs) (some (cursor offset us)) = vs := by
  obtain ⟨hus, -, hcross⟩ := List.pairwise_append.mp hs
  exact unconfirmed_append (cursor_past hus offset) fun v hv =>
    cursor_le (hoffset v hv) fun u hu => hcross u hu v hv

theorem scan_leads (display : DisplayText) (phone : String) (before : Backlog)
    {us vs : List BotUpdate} {offset : Int}
    (hpc : s.client.pc = .scanning offset (us.map BotUpdate.value) (vs.map BotUpdate.value))
    (hans : s.answered = us ++ vs) (hconfig : s.client.config = config) :
    (∃ t, (automaton display config phone before).Leads s t ∧
      t.client = s.client.setPc (.polling (cursor offset vs)) ∧ t.pending = s.pending ∧
      ∀ v ∈ vs, textOf config v = none) ∨
    ∃ t, (automaton display config phone before).Leads s t ∧ ∃ text, ∃ v ∈ vs,
      t.client.pc = .returned (.ok text) ∧ t.source = some v := by
  induction vs generalizing s us offset with
  | nil =>
    refine .inl ⟨{ s with client := s.client.setPc (.polling offset), source := s.looked },
      .single trivial (a := .client .next) ?_, rfl, rfl, by simp⟩
    simp [automaton, step, fails, RequestText.step, hpc, RequestText.nextPc]
  | cons v vs ih =>
    let c := s.client.setPc (.assigned (v.id + 1) (us.map BotUpdate.value) v.value
      (vs.map BotUpdate.value))
    let t : Chat := { s with client := c, source := s.looked }
    have hnext : (automaton display config phone before).step s (.client .next) = some t := by
      simp [automaton, step, fails, RequestText.step, hpc, nextPc_update, t, c]
    have hlooked : t.looked = some v := by simp [looked, t, c, hans]
    rcases RequestText.lookPc_cases config (v.id + 1) (us.map BotUpdate.value) v.value
      (vs.map BotUpdate.value) with ⟨text, htext, hret⟩ | ⟨htext, hret⟩
    · let u : Chat := { t with client := c.setPc (.returned (.ok text)), source := t.looked }
      have hlook : (automaton display config phone before).step t (.client .look) = some u := by
        simp [automaton, step, fails, RequestText.step, t, c, u, hconfig, hret]
      exact .inr ⟨u, .tail (.single trivial hnext) trivial hlook, text, v, List.mem_cons_self, rfl,
        hlooked⟩
    · let u : Chat := { t with
        client := c.setPc (.scanning (v.id + 1) (us.map BotUpdate.value ++ [v.value])
          (vs.map BotUpdate.value))
        source := t.looked }
      have hlook : (automaton display config phone before).step t (.client .look) = some u := by
        simp [automaton, step, fails, RequestText.step, t, c, u, hconfig, hret]
      have htwo : (automaton display config phone before).Leads s u :=
        .tail (.single trivial hnext) trivial hlook
      have hupc : u.client.pc = .scanning (v.id + 1) ((us ++ [v]).map BotUpdate.value)
          (vs.map BotUpdate.value) := by
        simp [u]
      rcases ih hupc (by simp [u, t, hans]) hconfig with ⟨w, hw, hclient, hpend, hnone⟩ |
        ⟨w, hw, text, x, hx, hret⟩
      · refine .inl ⟨w, htwo.trans hw, hclient, hpend, fun x hx => ?_⟩
        rcases List.mem_cons.mp hx with rfl | hx
        · exact htext
        · exact hnone x hx
      · exact .inr ⟨w, htwo.trans hw, text, x, List.mem_cons_of_mem _ hx, hret⟩

/-- From the top of the loop the pending updates are scanned, up to the first text for the
operator. -/
theorem poll_leads (display : DisplayText) (phone : String) (before : Backlog) {offset : Int}
    (hpc : s.client.pc = .polling offset)
    (htime : s.client.now < s.client.deadline) (hconfig : s.client.config = config)
    (hsorted : (unconfirmed s.pending (some offset)).Pairwise (·.id < ·.id))
    (htext : ∃ u ∈ unconfirmed s.pending (some offset), textOf config u ≠ none) :
    ∃ t, (automaton display config phone before).Leads s t ∧
      ∃ text, ∃ u ∈ unconfirmed s.pending (some offset),
        t.client.pc = .returned (.ok text) ∧ t.source = some u := by
  generalize hr : unconfirmed s.pending (some offset) = rest at hsorted htext
  induction hn : rest.length using Nat.strong_induction_on generalizing s offset rest with
  | _ n ih =>
    subst hn
    let batch := rest.take DEFAULT_LIMIT
    let c := { s.client with pc := RequestTextPc.fetching offset }
    let t : Chat := { s with client := c, source := s.looked }
    let u : Chat := { t with
      client := c.setPc (.scanning offset [] (batch.map BotUpdate.value))
      pending := rest
      answered := batch }
    have htop : (automaton display config phone before).step s (.client (.top s.client.now)) =
        some t := by
      have hdead : ¬ s.client.deadline ≤ s.client.now := by omega
      simp [automaton, step, fails, RequestText.step, hpc, hdead, t, c]
    have hanswer : (automaton display config phone before).step t .answer = some u := by
      simp [automaton, step, RequestText.request, stepAnswer, RequestText.step, t, c, u, hr,
        fetchedPc_botReply, batch]
    have htwo : (automaton display config phone before).Leads s u :=
      .tail (.single trivial htop) trivial hanswer
    have hbatch : batch ++ rest.drop DEFAULT_LIMIT = rest := List.take_append_drop _ _
    have hpcu : u.client.pc = .scanning offset (([] : List BotUpdate).map BotUpdate.value)
        (batch.map BotUpdate.value) := rfl
    have hansu : u.answered = [] ++ batch := rfl
    have hconfigu : u.client.config = config := hconfig
    rcases scan_leads display phone before hpcu hansu hconfigu with
      ⟨w, hw, hclient, hpend, hnone⟩ | ⟨w, hw, text, v, hv, hret⟩
    · -- the batch has no text for the operator: the rest of the updates has
      have hleft :
          unconfirmed w.pending (some (cursor offset batch)) = rest.drop DEFAULT_LIMIT := by
        have hpast : ∀ v ∈ rest.drop DEFAULT_LIMIT, offset ≤ v.id := by
          intro v hv
          have hv : v ∈ unconfirmed s.pending (some offset) := hr ▸ List.mem_of_mem_drop hv
          simp only [unconfirmed, List.mem_filter, decide_eq_true_eq] at hv
          exact hv.2
        have hcursor := unconfirmed_cursor (hbatch ▸ hsorted) hpast
        rw [hbatch] at hcursor
        rw [hpend]
        exact hcursor
      obtain ⟨v, hv, hvtext⟩ := htext
      have hvdrop : v ∈ rest.drop DEFAULT_LIMIT := by
        rw [← hbatch] at hv
        rcases List.mem_append.mp hv with hv | hv
        · exact absurd (hnone v hv) hvtext
        · exact hv
      have hlen : (rest.drop DEFAULT_LIMIT).length < rest.length := by
        have hpos := List.length_pos_of_mem hv
        rw [List.length_drop]
        have hlimit : 0 < DEFAULT_LIMIT := by decide
        omega
      have hpcw : w.client.pc = .polling (cursor offset batch) := by rw [hclient]; rfl
      obtain ⟨x, hx, text, y, hy, hret⟩ := ih _ hlen hpcw (by rw [hclient]; exact htime)
        (by rw [hclient]; exact hconfig) (rest.drop DEFAULT_LIMIT) hleft
        (hsorted.sublist (List.drop_sublist _ _)) ⟨v, hvdrop, hvtext⟩ rfl
      exact ⟨x, (htwo.trans hw).trans hx, text, y, List.mem_of_mem_drop hy, hret⟩
    · exact ⟨w, htwo.trans hw, text, v, List.mem_of_mem_take hv, hret⟩

theorem stale_of_uncovered (display : DisplayText) (phone : String)
    (htime : config.pollTimeout ≠ 0) (hend : config.pollTimeout < INSTANT_END)
    (hc : ¬ Covered config before) :
    ∃ s, (automaton display config phone before).Reachable s ∧ Stale before s := by
  let snapshot := before.updates.take DEFAULT_LIMIT
  let rest := before.updates.drop DEFAULT_LIMIT
  obtain ⟨offset, hsnap, hpast, hoffset⟩ := snapshotPc_botReply display snapshot
  let c := (requestSmsCode config phone).setPc (.sending offset)
  let s : Chat := ⟨c, before.updates, snapshot, none⟩
  let t : Chat := ⟨{ c with now := 0, deadline := 0 + config.pollTimeout, pc := .polling offset },
    before.updates, snapshot, none⟩
  have hanswer : (automaton display config phone before).step (start config phone before) .answer =
      some s := by
    have hclient : RequestText.step display (requestSmsCode config phone)
        (.reply (botReply snapshot)) = some c := by
      show some (RequestText.setPc _ (RequestText.snapshotPc display (botReply snapshot))) = some c
      rw [hsnap]
    show stepAnswer display (start config phone before) none = some s
    have hmap : stepAnswer display (start config phone before) none =
        (RequestText.step display (requestSmsCode config phone) (.reply (botReply snapshot))).map
          fun client => ⟨client, before.updates, snapshot, none⟩ := rfl
    rw [hmap, hclient]
    rfl
  have hsent : (automaton display config phone before).step s (.client (.sent (botReply []) 0)) =
      some t := by
    have hsend : replyPayload display (botReply []) =
        .ok (.object [("ok", .bool true), ("result", .array [])]) := rfl
    have hfits : ¬ INSTANT_END ≤ 0 + config.pollTimeout := by omega
    simp only [automaton, step, fails, if_true, RequestText.step, s, c, RequestText.setPc_pc,
      hsend, RequestText.setPc_config]
    exact (congrArg _ (if_neg hfits)).trans rfl
  have hreach : (automaton display config phone before).Reachable t :=
    ⟨start config phone before, rfl, .tail (.single trivial hanswer) trivial hsent⟩
  obtain ⟨u, hu, hutext⟩ : ∃ u ∈ rest, textOf config u ≠ none := by
    by_contra hnone
    refine hc fun u hu => ?_
    by_contra ht
    exact hnone ⟨u, hu, ht⟩
  have hsplit : snapshot ++ rest = before.updates := List.take_append_drop _ _
  have hsorted : (snapshot ++ rest).Pairwise (·.id < ·.id) := hsplit ▸ before.sorted
  have hleft : unconfirmed t.pending (some offset) = rest := by
    have hrest : ∀ v ∈ rest, offset ≤ v.id := by
      intro v hv
      rcases hoffset with ⟨hnil, -⟩ | ⟨w, hw, rfl⟩
      · have hempty : before.updates = [] := by
          rcases List.take_eq_nil_iff.mp hnil with hzero | hempty
          · cases hzero
          · exact hempty
        rw [show rest = [] by simp [rest, hempty]] at hv
        cases hv
      · exact (List.pairwise_append.mp hsorted).2.2 w hw v hv
    show unconfirmed before.updates (some offset) = rest
    rw [← hsplit]
    exact unconfirmed_append hpast hrest
  have hpct : t.client.pc = .polling offset := rfl
  have hconfigt : t.client.config = config := rfl
  have htimet : t.client.now < t.client.deadline := by
    show 0 < 0 + config.pollTimeout
    omega
  obtain ⟨w, hw, text, v, hv, hret, hsource⟩ := poll_leads display phone before hpct htimet hconfigt
    (hleft ▸ (List.pairwise_append.mp hsorted).2.1) ⟨u, hleft ▸ hu, hutext⟩
  rw [hleft] at hv
  exact ⟨w, hreach.path hw, text, v, hret, hsource, List.mem_of_mem_drop hv⟩

/-- The text comes from an update that was not pending before the first call, in every run,
exactly when the snapshot's one page holds every such text, or there is no time to poll, or the
deadline is past every `Instant`. -/
theorem text_not_stale (display : DisplayText) (config : TelegramOperatorConfig) (phone : String)
    (before : Backlog) :
    (∀ s, (automaton display config phone before).Reachable s →
      ∀ text, s.client.pc = .returned (.ok text) →
        ∃ update, s.source = some update ∧ textOf config update = some text ∧
          update ∉ before.updates) ↔
      config.pollTimeout = 0 ∨ INSTANT_END ≤ config.pollTimeout ∨ Covered config before := by
  constructor
  · intro hfresh
    by_contra hnot
    rw [not_or, not_or] at hnot
    obtain ⟨hzero, hend, hc⟩ := hnot
    obtain ⟨s, hs, text, update, hret, hsource, hmem⟩ :=
      stale_of_uncovered display phone hzero (Nat.lt_of_not_le hend) hc
    obtain ⟨v, hv, -, hnew⟩ := hfresh s hs text hret
    rw [hsource, Option.some.injEq] at hv
    exact hnew (hv ▸ hmem)
  · rintro (hzero | hend | hc) s hs text hret
    · have hpc := (hasty_reachable (.inl hzero) hs).2
      simp [hret] at hpc
    · have hpc := (hasty_reachable (.inr hend) hs).2
      simp [hret] at hpc
    · exact (inv_reachable hc hs).returned text hret

/-- A message in chat 42. -/
def chatUpdate (n : Fin 101) : BotUpdate where
  value := .object [("update_id", .int n), ("message", .object
    [("chat", .object [("id", .int 42)]), ("from", .object [("id", .int 2002)]),
      ("text", .string " 12345 ")])]
  id := n
  hasId := rfl
  low := by omega
  high := by omega

def longBacklog : Backlog where
  updates := (List.finRange 101).map chatUpdate
  sorted := by
    refine List.pairwise_map.mpr ((List.pairwise_lt_finRange 101).imp ?_)
    intro m n hmn
    exact Int.ofNat_lt.mpr hmn

/-- With 101 pending updates the text of the last one is returned. -/
theorem stale_text_returned : ∃ display config phone s,
    (automaton display config phone longBacklog).Reachable s ∧ Stale longBacklog s := by
  let config : TelegramOperatorConfig := ⟨"", 1001, 42, 60⟩
  have hlast : longBacklog.updates.drop DEFAULT_LIMIT = [chatUpdate 100] := by
    have hdrop : (List.finRange 101).drop DEFAULT_LIMIT = [100] := by decide
    rw [longBacklog, ← List.map_drop, hdrop]
    rfl
  have hc : ¬ Covered config longBacklog := by
    intro hc
    have htext := hc (chatUpdate 100) (by rw [hlast]; exact List.mem_singleton_self _)
    revert htext
    decide +kernel
  exact ⟨⟨fun _ => "", fun _ => ""⟩, config, "", stale_of_uncovered _ _ (by decide) (by decide) hc⟩

end Chat

end Maxrs.Telegram
