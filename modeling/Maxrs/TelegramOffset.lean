import Mathlib.Data.List.Pairwise
import Maxrs.Telegram
set_option autoImplicit false

/-! The polling offset of `request_text`, set to one past the id that was looked at last, against
the maximum that `next_update_offset` takes. -/
namespace Maxrs.Telegram.RequestText

variable (display : DisplayText)

theorem step_cases {s s' : RequestText} {a : RequestTextAction} (h : step display s a = some s') :
    (∃ reply, a = .reply reply ∧ s.pc = .snapshot ∧ s' = s.setPc (snapshotPc display reply)) ∨
    (∃ reply offset, a = .reply reply ∧ s.pc = .fetching offset ∧
      s' = s.setPc (fetchedPc display offset reply)) ∨
    (∃ reply now offset, a = .sent reply now ∧ s.pc = .sending offset ∧ s.now ≤ now ∧
      ((∃ error, s' = s.setPc (.returned (.error error))) ∨
        (INSTANT_END ≤ now + s.config.pollTimeout ∧ s' = s.setPc .panicked) ∨
        (now + s.config.pollTimeout < INSTANT_END ∧ s' = { s with
          now := now, deadline := now + s.config.pollTimeout, pc := .polling offset })))
    ∨ (∃ now offset, a = .top now ∧ s.pc = .polling offset ∧ s.now ≤ now ∧
      ((s.deadline ≤ now ∧ s' = { s with now := now, pc := .returned (.error timedOut) }) ∨
        (now < s.deadline ∧ s' = { s with now := now, pc := .fetching offset }))) ∨
    (∃ offset scanned rest, a = .next ∧ s.pc = .scanning offset scanned rest ∧
      s' = s.setPc (nextPc offset scanned rest)) ∨
    (∃ offset scanned update rest, a = .look ∧ s.pc = .assigned offset scanned update rest ∧
      s' = s.setPc (lookPc s.config offset scanned update rest)) := by
  cases a with
  | reply reply =>
    simp only [step] at h
    split at h
    · rename_i hpc
      cases h
      exact .inl ⟨reply, rfl, hpc, rfl⟩
    · rename_i offset hpc
      cases h
      exact .inr (.inl ⟨reply, offset, rfl, hpc, rfl⟩)
    · cases h
  | sent reply now =>
    simp only [step] at h
    split at h
    · rename_i offset hpc
      split at h
      · cases h
      · rename_i hnow
        refine .inr (.inr (.inl ⟨reply, now, offset, rfl, hpc, by omega, ?_⟩))
        split at h
        · rename_i error _
          cases h
          exact .inl ⟨error, rfl⟩
        · split at h <;> cases h
          · rename_i hend
            exact .inr (.inl ⟨hend, rfl⟩)
          · rename_i hend
            exact .inr (.inr ⟨by omega, rfl⟩)
    · cases h
  | top now =>
    simp only [step] at h
    split at h
    · rename_i offset hpc
      split at h
      · cases h
      · rename_i hnow
        refine .inr (.inr (.inr (.inl ⟨now, offset, rfl, hpc, by omega, ?_⟩)))
        split at h
        · rename_i hdead
          cases h
          exact .inl ⟨hdead, rfl⟩
        · rename_i hdead
          cases h
          exact .inr ⟨by omega, rfl⟩
    · cases h
  | next =>
    simp only [step] at h
    split at h
    · rename_i offset scanned rest hpc
      cases h
      exact .inr (.inr (.inr (.inr (.inl ⟨offset, scanned, rest, rfl, hpc, rfl⟩))))
    · cases h
  | look =>
    simp only [step] at h
    split at h
    · rename_i offset scanned update rest hpc
      cases h
      exact .inr (.inr (.inr (.inr (.inr ⟨offset, scanned, update, rest, rfl, hpc, rfl⟩))))
    · cases h

/-- The ids that a step looks at: the latest one of the snapshot, or `-1` for the default
offset, and the id of every update that is scanned. -/
def looks (s : RequestText) (a : RequestTextAction) (_ : RequestText) : List Int :=
  match s.pc, a with
  | .snapshot, .reply reply =>
    match fetchUpdates display reply with
    | .ok resp => [(latestId resp).getD (-1)]
    | .error _ => []
  | .scanning _ _ (update :: _), .next => (update.get "update_id").asI64.toList
  | _, _ => []

def seen (s : RequestText) (acts : List RequestTextAction) : List Int :=
  (automaton display).observe (looks display) s acts

def turns (s : RequestText) (acts : List RequestTextAction) : List (RequestText × RequestText) :=
  (automaton display).observe (fun s _ s' => [(s, s')]) s acts

/-- The offset does not overflow or decrease, and at the end of a batch it is past the maximum
of its ids. -/
structure Advances (s s' : RequestText) : Prop where
  computed : s'.pc ≠ .overflowed
  monotone : ∀ offset offset', s.offset? = some offset → s'.offset? = some offset' →
    offset ≤ offset'
  exceeds : ∀ offset scanned, s'.pc = .scanning offset scanned [] →
    ∀ id ∈ updateIds scanned, id < offset
  agrees : ∀ offset scanned latest, s'.pc = .scanning offset scanned [] →
    (updateIds scanned).max? = some latest → offset = latest + 1

/-- The ids come in ascending order, and their successors are `i64`s. -/
structure Ascending (ids : List Int) : Prop where
  sorted : ids.Pairwise (· ≤ ·)
  small : ∀ id ∈ ids, id + 1 < 2 ^ 63

variable {display} {s s' : RequestText} {ids : List Int}

theorem Ascending.nil : Ascending [] := ⟨.nil, fun _ h => by cases h⟩

theorem Ascending.left {js : List Int} (h : Ascending (ids ++ js)) : Ascending ids :=
  ⟨(List.pairwise_append.mp h.sorted).1, fun id hid => h.small id (List.mem_append_left _ hid)⟩

theorem Ascending.last (h : Ascending ids) {last : Int} (hlast : ids.getLast? = some last) :
    ∀ id ∈ ids, id ≤ last := by
  obtain ⟨init, rfl⟩ := List.getLast?_eq_some_iff.mp hlast
  intro id hid
  rcases List.mem_append.mp hid with hid | hid
  · exact (List.pairwise_append.mp h.sorted).2.2 id hid last (List.mem_singleton_self _)
  · rw [List.mem_singleton.mp hid]

theorem ascending_snoc (h : Ascending ids) {last id : Int} (hlast : ids.getLast? = some last) :
    Ascending (ids ++ [id]) ↔ last ≤ id ∧ id + 1 < 2 ^ 63 := by
  constructor
  · intro hsnoc
    have hmem : last ∈ ids := List.mem_of_getLast? hlast
    exact ⟨(List.pairwise_append.mp hsnoc.sorted).2.2 last hmem id (List.mem_singleton_self _),
      hsnoc.small id (List.mem_append_right _ (List.mem_singleton_self _))⟩
  · rintro ⟨hle, hsmall⟩
    refine ⟨List.pairwise_append.mpr ⟨h.sorted, List.pairwise_singleton _ _, ?_⟩, ?_⟩
    · intro j hj k hk
      rw [List.mem_singleton.mp hk]
      exact (h.last hlast j hj).trans hle
    · intro j hj
      rcases List.mem_append.mp hj with hj | hj
      · exact h.small j hj
      · rw [List.mem_singleton.mp hj]
        exact hsmall

structure Tracked (ids : List Int) (s : RequestText) : Prop where
  start : s.pc = .snapshot → ids = []
  cursor : ∀ offset, s.offset? = some offset → ids.getLast? = some (offset - 1)
  scanning : ∀ offset scanned rest, s.pc = .scanning offset scanned rest →
    ∃ before, ids = before ++ updateIds scanned
  assigned : ∀ offset scanned update rest, s.pc = .assigned offset scanned update rest →
    ∃ before, ids = before ++ updateIds (scanned ++ [update])

theorem ensureTelegramSuccess_ok {status : Nat} {resp : Value}
    (h : ensureTelegramSuccess display status resp = .ok ()) :
    ensureTelegramSuccess display OK resp = .ok () := by
  cases hok : (resp.get "ok").asBool.getD false with
  | true => simp [ensureTelegramSuccess, ensureTelegramHttpStatus, OK, REQUEST_TIMEOUT,
      TOO_MANY_REQUESTS, isServerErrorStatus, hok]
  | false =>
    cases hs : ensureTelegramHttpStatus display status with
    | error error => simp [ensureTelegramSuccess, hs, bind, Except.bind] at h
    | ok _ =>
      simp only [ensureTelegramSuccess, hs, hok, bind, Except.bind, Bool.false_eq_true, if_false,
        throw, throwThe, MonadExceptOf.throw] at h
      split at h <;> cases h

theorem fetchUpdates_ok {reply : Reply} {resp : Value}
    (h : fetchUpdates display reply = .ok resp) :
    ensureTelegramSuccess display OK resp = .ok () := by
  rcases reply with error | ⟨status, body⟩
  · cases h
  · cases hs : ensureTelegramHttpStatus display status with
    | error error => simp [fetchUpdates, replyPayload, hs, bind, Except.bind] at h
    | ok _ =>
      rcases body with error | payload
      · simp [fetchUpdates, replyPayload, hs, bind, Except.bind, Except.mapError] at h
      · cases hp : ensureTelegramSuccess display status payload with
        | error error =>
          simp [fetchUpdates, replyPayload, hs, hp, bind, Except.bind, Except.mapError] at h
        | ok _ =>
          have hpay : payload = resp := by
            simpa [fetchUpdates, replyPayload, hs, hp, bind, Except.bind, Except.mapError,
              pure, Except.pure] using h
          exact hpay ▸ ensureTelegramSuccess_ok hp

theorem nextUpdateOffset_eq {resp : Value}
    (h : ensureTelegramSuccess display OK resp = .ok ()) :
    nextUpdateOffset display resp = .ok (checkedI64 ((latestId resp).getD (-1) + 1)) := by
  cases hl : latestId resp with
  | none =>
    have hzero : checkedI64 0 = some 0 := rfl
    simp [nextUpdateOffset, h, hl, bind, Except.bind, pure, Except.pure, hzero]
  | some id => simp [nextUpdateOffset, h, hl, bind, Except.bind, pure, Except.pure]

theorem snapshotPc_ok {reply : Reply} {resp : Value}
    (h : fetchUpdates display reply = .ok resp) :
    snapshotPc display reply = match checkedI64 ((latestId resp).getD (-1) + 1) with
      | some offset => .sending offset
      | none => .overflowed := by
  simp only [snapshotPc, h, Except.bind, nextUpdateOffset_eq (fetchUpdates_ok h)]
  cases checkedI64 ((latestId resp).getD (-1) + 1) <;> rfl

theorem checkedI64_succ {id : Int} (h : Value.fitsI64 id) :
    (id + 1 < 2 ^ 63 ∧ checkedI64 (id + 1) = some (id + 1)) ∨
      (¬ id + 1 < 2 ^ 63 ∧ checkedI64 (id + 1) = none) := by
  simp only [Value.fitsI64, Bool.and_eq_true, decide_eq_true_eq] at h
  by_cases hlt : id + 1 < 2 ^ 63
  · have hfit : Value.fitsI64 (id + 1) = true := by
      simp only [Value.fitsI64, Bool.and_eq_true, decide_eq_true_eq]
      omega
    exact .inl ⟨hlt, by simp [checkedI64, hfit]⟩
  · have hfit : Value.fitsI64 (id + 1) = false := by
      simp only [Value.fitsI64, Bool.and_eq_false_iff, decide_eq_false_iff_not]
      omega
    exact .inr ⟨hlt, by simp [checkedI64, hfit]⟩

theorem latest_fits (resp : Value) : Value.fitsI64 ((latestId resp).getD (-1)) := by
  cases h : latestId resp with
  | none => rfl
  | some id => exact latestId_fits h

theorem nextPc_cons (offset : Int) (scanned : List Value) (update : Value) (rest : List Value) :
    ((update.get "update_id").asI64 = none ∧
      nextPc offset scanned (update :: rest) = .assigned offset scanned update rest) ∨
    (∃ id, (update.get "update_id").asI64 = some id ∧ id + 1 < 2 ^ 63 ∧
      nextPc offset scanned (update :: rest) = .assigned (id + 1) scanned update rest) ∨
    (∃ id, (update.get "update_id").asI64 = some id ∧ ¬ id + 1 < 2 ^ 63 ∧
      nextPc offset scanned (update :: rest) = .overflowed) := by
  cases h : (update.get "update_id").asI64 with
  | none => exact .inl ⟨rfl, by simp [nextPc, h]⟩
  | some id =>
    rcases checkedI64_succ (Value.asI64_fits h) with ⟨hlt, hc⟩ | ⟨hge, hc⟩
    · exact .inr (.inl ⟨id, rfl, hlt, by simp [nextPc, h, hc]⟩)
    · exact .inr (.inr ⟨id, rfl, hge, by simp [nextPc, h, hc]⟩)

theorem lookPc_cases (config : TelegramOperatorConfig) (offset : Int) (scanned : List Value)
    (update : Value) (rest : List Value) :
    (∃ text, operatorTextFromUpdate update config.chatId config.botUserId = some text ∧
      lookPc config offset scanned update rest = .returned (.ok text)) ∨
    (operatorTextFromUpdate update config.chatId config.botUserId = none ∧
      lookPc config offset scanned update rest = .scanning offset (scanned ++ [update]) rest) := by
  cases h : operatorTextFromUpdate update config.chatId config.botUserId with
  | some text => exact .inl ⟨text, rfl, by simp [lookPc, h]⟩
  | none => exact .inr ⟨rfl, by simp [lookPc, h]⟩

theorem fetchedPc_cases (display : DisplayText) (offset : Int) (reply : Reply) :
    (∃ error, fetchedPc display offset reply = .returned (.error error)) ∨
    fetchedPc display offset reply = .polling offset ∨
    ∃ updates, fetchedPc display offset reply = .scanning offset [] updates := by
  simp only [fetchedPc]
  split
  · rename_i error _
    exact .inl ⟨error, rfl⟩
  · split
    · rename_i updates _
      exact .inr (.inr ⟨updates, rfl⟩)
    · exact .inr (.inl rfl)

theorem offset?_scanning {offset : Int} {scanned rest : List Value}
    (h : s.pc = .scanning offset scanned rest) : s.offset? = some offset := by
  simp [offset?, h]

theorem offset?_assigned {offset : Int} {scanned rest : List Value} {update : Value}
    (h : s.pc = .assigned offset scanned update rest) : s.offset? = some offset := by
  simp [offset?, h]

theorem request_offset {timeout : Nat} {offset : Int}
    (h : s.request = some (.getUpdates timeout (some offset))) : s.offset? = some offset := by
  cases hpc : s.pc <;> simp_all [request, offset?]

theorem Tracked.ended (hstart : s.pc ≠ .snapshot) (hoffset : s.offset? = none) :
    Tracked ids s := by
  refine ⟨fun h => absurd h hstart, fun offset h => ?_, fun offset scanned rest h => ?_,
    fun offset scanned update rest h => ?_⟩
  · rw [hoffset] at h
    cases h
  · rw [offset?_scanning h] at hoffset
    cases hoffset
  · rw [offset?_assigned h] at hoffset
    cases hoffset

theorem Tracked.keep {offset : Int} (hs : s.offset? = some offset) (ht : Tracked ids s)
    (hpc : s'.pc = .polling offset ∨ s'.pc = .fetching offset ∨
      ∃ updates, s'.pc = .scanning offset [] updates) : Tracked ids s' := by
  have hlast := ht.cursor offset hs
  rcases hpc with hpc | hpc | ⟨updates, hpc⟩
  · exact ⟨fun h => (by simp [hpc] at h), fun o h => (by simp_all [offset?]),
      fun o scanned rest h => (by simp [hpc] at h), fun o scanned u rest h => (by simp [hpc] at h)⟩
  · exact ⟨fun h => (by simp [hpc] at h), fun o h => (by simp_all [offset?]),
      fun o scanned rest h => (by simp [hpc] at h), fun o scanned u rest h => (by simp [hpc] at h)⟩
  · refine ⟨fun h => (by simp [hpc] at h), fun o h => (by simp_all [offset?]), ?_,
      fun o scanned u rest h => (by simp [hpc] at h)⟩
    intro o scanned rest h
    rw [hpc] at h
    cases h
    exact ⟨ids, by simp [updateIds]⟩

theorem Tracked.assign {id : Int} {scanned rest : List Value} {update : Value} {before : List Int}
    (hpc : s'.pc = .assigned (id + 1) scanned update rest)
    (hid : (update.get "update_id").asI64 = some id) (hids : ids = before ++ updateIds scanned) :
    Tracked (ids ++ [id]) s' := by
  refine ⟨fun h => (by simp [hpc] at h), fun o h => ?_,
    fun o scanned rest h => (by simp [hpc] at h),
    fun o scanned' u rest' h => ?_⟩
  · rw [offset?_assigned hpc, Option.some.injEq] at h
    rw [List.getLast?_concat, ← h, Int.add_sub_cancel]
  · rw [hpc] at h
    cases h
    exact ⟨before, by rw [hids, updateIds_append, updateIds_singleton, hid, List.append_assoc]; rfl⟩

theorem tracked_step {a : RequestTextAction} (h : step display s a = some s')
    (ht : Tracked ids s) : Tracked (ids ++ looks display s a s') s' := by
  rcases step_cases display h with ⟨reply, rfl, hpc, rfl⟩ | ⟨reply, offset, rfl, hpc, rfl⟩ |
    ⟨reply, now, offset, rfl, hpc, -, ⟨error, rfl⟩ | ⟨-, rfl⟩ | ⟨-, rfl⟩⟩ |
    ⟨now, offset, rfl, hpc, -, ⟨-, rfl⟩ | ⟨-, rfl⟩⟩ | ⟨offset, scanned, rest, rfl, hpc, rfl⟩ |
    ⟨offset, scanned, update, rest, rfl, hpc, rfl⟩
  · cases hf : fetchUpdates display reply with
    | error error =>
      have hret : snapshotPc display reply = .returned (.error error) := by
        simp [snapshotPc, hf, Except.bind]
      exact .ended (by simp [hret]) (by simp [hret, offset?])
    | ok resp =>
      have hsnap := snapshotPc_ok hf
      rcases checkedI64_succ (latest_fits resp) with ⟨-, hc⟩ | ⟨-, hc⟩
      · simp only [hc] at hsnap
        refine ⟨fun h => (by simp [hsnap] at h), fun o h => ?_,
          fun o sc r h => (by simp [hsnap] at h),
          fun o sc u r h => (by simp [hsnap] at h)⟩
        simp only [offset?, setPc_pc, hsnap, Option.some.injEq] at h
        simp [looks, hpc, hf, ht.start hpc, ← h]
      · simp only [hc] at hsnap
        exact .ended (by simp [hsnap]) (by simp [hsnap, offset?])
  · have hnone : looks display s (.reply reply)
        (s.setPc (fetchedPc display offset reply)) = [] := by
      simp [looks, hpc]
    rw [hnone, List.append_nil]
    rcases fetchedPc_cases display offset reply with ⟨error, hret⟩ | hret |
      ⟨updates, hret⟩
    · exact .ended (by simp [hret]) (by simp [hret, offset?])
    · exact ht.keep (by simp [offset?, hpc]) (.inl hret)
    · exact ht.keep (by simp [offset?, hpc]) (.inr (.inr ⟨updates, hret⟩))
  · exact .ended (by simp) (by simp [offset?])
  · exact .ended (by simp) (by simp [offset?])
  · have hnone : looks display s (.sent reply now) { s with
        now := now, deadline := now + s.config.pollTimeout, pc := .polling offset } = [] := by
      simp [looks, hpc]
    rw [hnone, List.append_nil]
    exact ht.keep (by simp [offset?, hpc]) (.inl rfl)
  · exact .ended (by simp) (by simp [offset?])
  · have hnone : looks display s (.top now) { s with now := now, pc := .fetching offset } = [] := by
      simp [looks, hpc]
    rw [hnone, List.append_nil]
    exact ht.keep (by simp [offset?, hpc]) (.inr (.inl rfl))
  · cases rest with
    | nil =>
      have hnone : looks display s .next (s.setPc (nextPc offset scanned [])) = [] := by
        simp [looks, hpc]
      rw [hnone, List.append_nil]
      exact ht.keep (offset?_scanning hpc) (.inl rfl)
    | cons update rest =>
      obtain ⟨before, hids⟩ := ht.scanning offset scanned (update :: rest) hpc
      rcases nextPc_cons offset scanned update rest with ⟨hid, hnext⟩ | ⟨id, hid, -, hnext⟩ |
        ⟨id, hid, -, hnext⟩
      · have hnone : looks display s .next
            (s.setPc (nextPc offset scanned (update :: rest))) = [] := by
          simp [looks, hpc, hid]
        rw [hnone, List.append_nil, hnext]
        refine ⟨fun h => (by simp at h), fun o h => ?_, fun o sc r h => (by simp at h),
          fun o sc u r h => ?_⟩
        · exact ht.cursor o (by simpa [offset?, hpc] using h)
        · cases h
          exact ⟨before, by rw [updateIds_append, updateIds_singleton, hid, hids]; simp⟩
      · have hone : looks display s .next
            (s.setPc (nextPc offset scanned (update :: rest))) = [id] := by
          simp [looks, hpc, hid]
        rw [hone]
        exact .assign hnext hid hids
      · exact .ended (by simp [hnext]) (by simp [hnext, offset?])
  · have hnone : looks display s .look
        (s.setPc (lookPc s.config offset scanned update rest)) = [] := by
      simp [looks, hpc]
    rw [hnone, List.append_nil]
    rcases lookPc_cases s.config offset scanned update rest with ⟨text, -, hret⟩ | ⟨-, hret⟩
    · exact .ended (by simp [hret]) (by simp [hret, offset?])
    · refine ⟨fun h => (by simp [hret] at h), fun o h => ?_, fun o sc r h => ?_,
        fun o sc u r h => (by simp [hret] at h)⟩
      · refine ht.cursor o ?_
        rw [offset?_assigned hpc]
        simpa [offset?, hret] using h
      · simp only [setPc_pc, hret] at h
        cases h
        exact ht.assigned offset scanned update rest hpc

theorem looks_cases {a : RequestTextAction} (h : step display s a = some s') :
    (looks display s a s' = [] ∧ s'.pc ≠ .overflowed ∧
      ∀ o o', s.offset? = some o → s'.offset? = some o' → o = o') ∨
    ∃ id, looks display s a s' = [id] ∧ (s.pc = .snapshot ∨ ∃ o, s.offset? = some o) ∧
      ((id + 1 < 2 ^ 63 ∧ s'.pc ≠ .overflowed ∧ s'.offset? = some (id + 1)) ∨
        (¬ id + 1 < 2 ^ 63 ∧ s'.pc = .overflowed)) := by
  rcases step_cases display h with ⟨reply, rfl, hpc, rfl⟩ | ⟨reply, offset, rfl, hpc, rfl⟩ |
    ⟨reply, now, offset, rfl, hpc, -, ⟨error, rfl⟩ | ⟨-, rfl⟩ | ⟨-, rfl⟩⟩ |
    ⟨now, offset, rfl, hpc, -, ⟨-, rfl⟩ | ⟨-, rfl⟩⟩ | ⟨offset, scanned, rest, rfl, hpc, rfl⟩ |
    ⟨offset, scanned, update, rest, rfl, hpc, rfl⟩
  · cases hf : fetchUpdates display reply with
    | error error => exact .inl (by simp [looks, hpc, hf, snapshotPc, Except.bind, offset?])
    | ok resp =>
      have hsnap := snapshotPc_ok hf
      refine .inr ⟨(latestId resp).getD (-1), by simp [looks, hpc, hf], .inl hpc, ?_⟩
      rcases checkedI64_succ (latest_fits resp) with ⟨hlt, hc⟩ | ⟨hge, hc⟩
      · simp only [hc] at hsnap
        exact .inl ⟨hlt, by simp [hsnap], by simp [hsnap, offset?]⟩
      · simp only [hc] at hsnap
        exact .inr ⟨hge, hsnap⟩
  · rcases fetchedPc_cases display offset reply with ⟨error, hret⟩ | hret |
      ⟨updates, hret⟩
    all_goals exact .inl (by simp [looks, hpc, hret, offset?])
  · exact .inl (by simp [looks, hpc, offset?])
  · exact .inl (by simp [looks, hpc, offset?])
  · exact .inl (by simp [looks, hpc, offset?])
  · exact .inl (by simp [looks, hpc, offset?])
  · exact .inl (by simp [looks, hpc, offset?])
  · cases rest with
    | nil => exact .inl (by simp [looks, hpc, nextPc, offset?])
    | cons update rest =>
      rcases nextPc_cons offset scanned update rest with ⟨hid, hnext⟩ | ⟨id, hid, hlt, hnext⟩ |
        ⟨id, hid, hge, hnext⟩
      · exact .inl (by simp [looks, hpc, hid, hnext, offset?])
      · exact .inr ⟨id, by simp [looks, hpc, hid], .inr ⟨offset, offset?_scanning hpc⟩,
          .inl ⟨hlt, by simp [hnext], by simp [hnext, offset?]⟩⟩
      · exact .inr ⟨id, by simp [looks, hpc, hid], .inr ⟨offset, offset?_scanning hpc⟩,
          .inr ⟨hge, hnext⟩⟩
  · rcases lookPc_cases s.config offset scanned update rest with ⟨text, -, hret⟩ | ⟨-, hret⟩
    all_goals exact .inl (by simp [looks, hpc, hret, offset?])

theorem Advances.of_ascending (ht : Tracked ids s') (ha : Ascending ids)
    (hcomputed : s'.pc ≠ .overflowed)
    (hmono : ∀ o o', s.offset? = some o → s'.offset? = some o' → o ≤ o') : Advances s s' := by
  have hexceeds : ∀ offset scanned, s'.pc = .scanning offset scanned [] →
      ∀ id ∈ updateIds scanned, id < offset := by
    intro offset scanned hpc id hid
    obtain ⟨before, hids⟩ := ht.scanning offset scanned [] hpc
    have hle : id ≤ offset - 1 := ha.last (ht.cursor offset (offset?_scanning hpc)) id
      (hids ▸ List.mem_append_right _ hid)
    omega
  refine ⟨hcomputed, hmono, hexceeds, ?_⟩
  intro offset scanned latest hpc hmax
  obtain ⟨before, hids⟩ := ht.scanning offset scanned [] hpc
  have hlatest := List.max?_eq_some_iff.mp hmax
  have hne : updateIds scanned ≠ [] := List.ne_nil_of_mem hlatest.1
  have hlast : (updateIds scanned).getLast? = some (offset - 1) := by
    have hcursor := ht.cursor offset (offset?_scanning hpc)
    rw [hids, List.getLast?_append] at hcursor
    cases h : (updateIds scanned).getLast? with
    | none => exact absurd (List.getLast?_eq_none_iff.mp h) hne
    | some last => simpa [h] using hcursor
  have hup : offset - 1 ≤ latest := hlatest.2 _ (List.mem_of_getLast? hlast)
  have hdown : latest < offset := hexceeds offset scanned hpc latest hlatest.1
  omega

theorem advances_step {a : RequestTextAction} (h : step display s a = some s')
    (ht : Tracked ids s) (ha : Ascending ids) :
    Advances s s' ↔ Ascending (ids ++ looks display s a s') := by
  have ht' := tracked_step h ht
  rcases looks_cases h with ⟨hl, hpc, hsame⟩ | ⟨id, hl, hfrom, hto⟩
  · rw [hl, List.append_nil] at ht' ⊢
    exact ⟨fun _ => ha, fun _ => .of_ascending ht' ha hpc fun o o' ho ho' => (hsame o o' ho ho').le⟩
  · rw [hl] at ht' ⊢
    constructor
    · intro hadv
      rcases hto with ⟨hlt, -, ho'⟩ | ⟨-, hover⟩
      · rcases hfrom with hsnap | ⟨o, ho⟩
        · rw [ht.start hsnap]
          exact ⟨List.pairwise_singleton _ _, fun j hj => List.mem_singleton.mp hj ▸ hlt⟩
        · refine (ascending_snoc ha (ht.cursor o ho)).mpr ⟨?_, hlt⟩
          have hle := hadv.monotone o (id + 1) ho ho'
          omega
      · exact absurd hover hadv.computed
    · intro hasc
      have hsmall := hasc.small id (List.mem_append_right _ (List.mem_singleton_self _))
      rcases hto with ⟨-, hpc, ho'⟩ | ⟨hge, -⟩
      · refine .of_ascending ht' hasc hpc fun o p ho hp => ?_
        rw [ho', Option.some.injEq] at hp
        have hle := ((ascending_snoc ha (ht.cursor o ho)).mp hasc).1
        omega
      · exact absurd hsmall hge

theorem run_tracked {config : TelegramOperatorConfig} {phone : String}
    {acts : List RequestTextAction}
    (h : (automaton display).exec (requestSmsCode config phone) acts = some s) :
    ((∀ turn ∈ turns display (requestSmsCode config phone) acts, Advances turn.1 turn.2) ↔
      Ascending (seen display (requestSmsCode config phone) acts)) ∧
    Tracked (seen display (requestSmsCode config phone) acts) s := by
  let start := requestSmsCode config phone
  refine Automaton.exec_invariant (M := automaton display) (I := fun acts s =>
    ((∀ turn ∈ turns display start acts, Advances turn.1 turn.2) ↔
      Ascending (seen display start acts)) ∧ Tracked (seen display start acts) s) h ?_ ?_
  · refine ⟨⟨fun _ => .nil, fun _ turn hturn => by cases hturn⟩, fun _ => rfl, ?_, ?_, ?_⟩
    · intro o ho
      cases ho
    · intro o sc r hpc
      cases hpc
    · intro o sc u r hpc
      cases hpc
  · intro as a t u hexec hstep ⟨hiff, ht⟩
    have hseen : seen display start (as ++ [a]) = seen display start as ++ looks display t a u :=
      Automaton.observe_snoc hexec hstep
    have hturns : turns display start (as ++ [a]) = turns display start as ++ [(t, u)] :=
      Automaton.observe_snoc hexec hstep
    rw [hseen, hturns]
    refine ⟨⟨fun hadv => ?_, fun hasc => ?_⟩, tracked_step hstep ht⟩
    · have hbefore := hiff.mp fun turn hturn => hadv turn (List.mem_append_left _ hturn)
      exact (advances_step hstep ht hbefore).mp
        (hadv (t, u) (List.mem_append_right _ (List.mem_singleton_self _)))
    · intro turn hturn
      rcases List.mem_append.mp hturn with hturn | hturn
      · exact hiff.mpr hasc.left turn hturn
      · rw [List.mem_singleton.mp hturn]
        exact (advances_step hstep ht hasc.left).mpr hasc

/-- The offset only advances, past the maximum of every batch, and no update is requested again,
exactly when the ids come in ascending order and below the largest `i64`. -/
theorem offset_advances (config : TelegramOperatorConfig) (phone : String)
    (acts : List RequestTextAction) (s : RequestText)
    (h : (automaton display).exec (requestSmsCode config phone) acts = some s) :
    ((∀ turn ∈ turns display (requestSmsCode config phone) acts, Advances turn.1 turn.2) ∧
      ∀ timeout offset, s.request = some (.getUpdates timeout (some offset)) →
        ∀ id ∈ seen display (requestSmsCode config phone) acts, id < offset) ↔
      Ascending (seen display (requestSmsCode config phone) acts) := by
  obtain ⟨hiff, ht⟩ := run_tracked h
  refine ⟨fun hadv => hiff.mp hadv.1, fun hasc => ⟨hiff.mpr hasc, ?_⟩⟩
  intro timeout offset hrequest id hid
  have hlast := hasc.last (ht.cursor offset (request_offset hrequest)) id hid
  omega

/-- An empty snapshot, then one batch of two updates, scanned to its end. -/
def twoUpdates (first second : Int) : List RequestTextAction :=
  let reply (updates : List Value) : Reply :=
    .ok (OK, .ok (.object [("ok", .bool true), ("result", .array updates)]))
  let update (id : Int) : Value := .object [("update_id", .int id)]
  [.reply (reply []), .sent (reply []) 0, .top 0, .reply (reply [update first, update second]),
    .next, .look, .next, .look]

theorem offset_advances_two : ∃ display config phone s,
    (automaton display).exec (requestSmsCode config phone) (twoUpdates 3 5) = some s ∧
      ∀ turn ∈ turns display (requestSmsCode config phone) (twoUpdates 3 5),
        Advances turn.1 turn.2 := by
  let display : DisplayText := ⟨fun _ => "", fun _ => ""⟩
  let config : TelegramOperatorConfig := ⟨"", 1001, 42, 60⟩
  have hrun : (automaton display).exec (requestSmsCode config "") (twoUpdates 3 5) =
    some (((automaton display).exec (requestSmsCode config "") (twoUpdates 3 5)).get rfl) := rfl
  have hseen : seen display (requestSmsCode config "") (twoUpdates 3 5) = [-1, 3, 5] := rfl
  have hasc : Ascending (seen display (requestSmsCode config "") (twoUpdates 3 5)) := by
    rw [hseen]
    exact ⟨by simp, by simp⟩
  exact ⟨display, config, "", _, hrun, ((offset_advances config "" _ _ hrun).mpr hasc).1⟩

/-- With the ids 5 and 3 the offset goes back from 6 to 4. -/
theorem offset_goes_back : ∃ display config phone s,
    (automaton display).exec (requestSmsCode config phone) (twoUpdates 5 3) = some s ∧
      ¬ ∀ turn ∈ turns display (requestSmsCode config phone) (twoUpdates 5 3),
        Advances turn.1 turn.2 := by
  let display : DisplayText := ⟨fun _ => "", fun _ => ""⟩
  let config : TelegramOperatorConfig := ⟨"", 1001, 42, 60⟩
  have hrun : (automaton display).exec (requestSmsCode config "") (twoUpdates 5 3) =
    some (((automaton display).exec (requestSmsCode config "") (twoUpdates 5 3)).get rfl) := rfl
  have hseen : seen display (requestSmsCode config "") (twoUpdates 5 3) = [-1, 5, 3] := rfl
  refine ⟨display, config, "", _, hrun, fun hadv => ?_⟩
  have hasc := (run_tracked hrun).1.mp hadv
  rw [hseen] at hasc
  simpa using hasc.sorted

end Maxrs.Telegram.RequestText
