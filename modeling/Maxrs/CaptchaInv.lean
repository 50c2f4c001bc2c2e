import Maxrs.CaptchaStep
set_option autoImplicit false

/-! Who owns the sender of a challenge: the map, one callback, or nobody any more. -/
namespace Maxrs

def SolveAt.inserted : SolveAt → Option Challenge
  | .inserting _ => none
  | p => p.challenge

theorem SolveAt.challenge_of_inserted {p : SolveAt} {c : Challenge} (h : p.inserted = some c) :
    p.challenge = some c := by
  cases p <;> simp_all [inserted]

namespace CaptchaWorld

variable {env : CaptchaEnv} {w v : CaptchaWorld} {n m : SolveId} {k : CallbackId}

/-- The challenge of call `n` is in the map's past, and has the id `id`. -/
def Inserted (w : CaptchaWorld) (n : SolveId) (id : String) : Prop :=
  ∃ c, (w.solves n).inserted = some c ∧ c.id = id

structure Inv (w : CaptchaWorld) : Prop where
  drawn : ∀ {n c}, (w.solves n).challenge = some c → w.drawn c.id = true
  unique : ∀ {n m c d}, (w.solves n).challenge = some c → (w.solves m).challenge = some d →
    c.id = d.id → n = m
  entry : ∀ {id p}, w.pending id = some p → ∃ c, (w.solves p.tx).inserted = some c ∧ c.id = id ∧
    c.challengeStartedAt = p.createdAt ∧ w.held p.tx = false ∧ w.sent p.tx = none
  sending : ∀ {k cb n}, w.callbacks k = .sending cb n → w.Inserted n cb.challengeId ∧
    w.pending cb.challengeId = none ∧ w.held n = true ∧ w.sent n = none
  holder : ∀ {k k' cb cb' n}, w.callbacks k = .sending cb n → w.callbacks k' = .sending cb' n →
    k = k'
  held : ∀ {n}, w.held n = true → ∃ k cb, w.callbacks k = .sending cb n
  sent : ∀ {n cb}, w.sent n = some cb → w.Inserted n cb.challengeId ∧
    w.pending cb.challengeId = none ∧ w.held n = false ∧ ∃ k, w.callbacks k = .accepted cb
  accepted : ∀ {k cb}, w.callbacks k = .accepted cb → ∃ n, w.sent n = some cb
  once : ∀ {k k' cb cb'}, w.callbacks k = .accepted cb → w.callbacks k' = .accepted cb' →
    cb.challengeId = cb'.challengeId → k = k'
  closed : ∀ {n c taken r}, w.solves n = .returned (some c) taken r → w.pending c.id = none
  taken : ∀ {n c cb r}, w.solves n = .returned c (some cb) r →
    (∃ d, c = some d ∧ d.id = cb.challengeId) ∧ w.sent n = some cb ∧ r = cb.outcome
  failed : ∀ {n c r}, w.solves n = .returned c none r → ∃ e, r = .error e

theorem inv_new : Inv .new where
  drawn h := by cases h
  unique h := by cases h
  entry h := by cases h
  sending h := by cases h
  holder h := by cases h
  held h := by cases h
  sent h := by cases h
  accepted h := by cases h
  once h := by cases h
  closed h := by cases h
  taken h := by cases h
  failed h := by cases h

theorem Inv.shrink (h : Inv w) {pending : String → Option PendingChallenge}
    (hp : ∀ {id p}, pending id = some p → w.pending id = some p) :
    Inv { w with pending := pending } := by
  have hnone : ∀ {id}, w.pending id = none → pending id = none := by
    intro id hid
    cases hc : pending id with
    | none => rfl
    | some p => rw [hp hc] at hid; cases hid
  exact {
    drawn := h.drawn
    unique := h.unique
    entry := fun he => h.entry (hp he)
    sending := fun he => ⟨(h.sending he).1, hnone (h.sending he).2.1, (h.sending he).2.2⟩
    holder := h.holder
    held := h.held
    sent := fun he => ⟨(h.sent he).1, hnone (h.sent he).2.1, (h.sent he).2.2⟩
    accepted := h.accepted
    once := h.once
    closed := fun he => hnone (h.closed he)
    taken := h.taken
    failed := h.failed }

theorem cleanupExpired_pending {id : String} {p : PendingChallenge} :
    w.cleanupExpired.pending id = some p ↔ w.pending id = some p ∧ w.expired p = false := by
  simp [cleanupExpired, Option.filter_eq_some_iff]

theorem Inv.cleanupExpired (h : Inv w) : Inv w.cleanupExpired :=
  h.shrink fun hp => (cleanupExpired_pending.mp hp).1

theorem remove_pending {id id' : String} {p : PendingChallenge} :
    (w.remove id).pending id' = some p ↔ w.pending id' = some p ∧ id' ≠ id := by
  by_cases hid : id' = id
  · subst hid
    simp [remove]
  · simp [remove, hid]

theorem Inv.remove (h : Inv w) (id : String) : Inv (w.remove id) :=
  h.shrink fun hp => (remove_pending.mp hp).1

@[simp] theorem setSolve_self (p : SolveAt) : (w.setSolve n p).solves n = p := by
  simp [setSolve]

theorem setSolve_ne (p : SolveAt) (hne : m ≠ n) : (w.setSolve n p).solves m = w.solves m := by
  simp [setSolve, hne]

theorem setSolve_cases {p q : SolveAt} (h : (w.setSolve n p).solves m = q) :
    (m = n ∧ q = p) ∨ (m ≠ n ∧ w.solves m = q) := by
  by_cases hm : m = n
  · subst hm
    exact .inl ⟨rfl, by simpa using h.symm⟩
  · exact .inr ⟨hm, by rwa [setSolve_ne p hm] at h⟩

theorem setCallback_cases {k' : CallbackId} {p q : CallbackAt}
    (h : (w.setCallback k p).callbacks k' = q) :
    (k' = k ∧ q = p) ∨ (k' ≠ k ∧ w.callbacks k' = q) := by
  by_cases hk : k' = k
  · subst hk
    exact .inl ⟨rfl, by simpa [setCallback] using h.symm⟩
  · exact .inr ⟨hk, by simpa [setCallback, hk] using h⟩

theorem setCallback_iff {k' : CallbackId} {p q : CallbackAt} (hp : p ≠ q)
    (hold : w.callbacks k ≠ q) :
    (w.setCallback k p).callbacks k' = q ↔ w.callbacks k' = q := by
  by_cases hk : k' = k
  · subst hk
    simp [setCallback, hp, hold]
  · simp [setCallback, hk]

@[simp] theorem remove_self (id : String) : (w.remove id).pending id = none :=
  Function.update_self ..

theorem Inv.setSolve (h : Inv w) {p : SolveAt} (hc : p.challenge = (w.solves n).challenge)
    (hi : ∀ c, (w.solves n).inserted = some c → p.inserted = some c)
    (hclosed : ∀ c taken r, p = .returned (some c) taken r → w.pending c.id = none)
    (htaken : ∀ c cb r, p = .returned c (some cb) r →
      (∃ d, c = some d ∧ d.id = cb.challengeId) ∧ w.sent n = some cb ∧ r = cb.outcome)
    (hfailed : ∀ c r, p = .returned c none r → ∃ e, r = .error e) : Inv (w.setSolve n p) := by
  have hchallenge : ∀ m, ((w.setSolve n p).solves m).challenge = (w.solves m).challenge := by
    intro m
    by_cases hm : m = n
    · subst hm
      rw [setSolve_self, hc]
    · rw [setSolve_ne p hm]
  have hinserted : ∀ {m c}, (w.solves m).inserted = some c →
      ((w.setSolve n p).solves m).inserted = some c := by
    intro m c hm
    by_cases he : m = n
    · subst he
      rw [setSolve_self]
      exact hi c hm
    · rwa [setSolve_ne p he]
  have hins : ∀ {m id}, w.Inserted m id → (w.setSolve n p).Inserted m id := by
    rintro m id ⟨c, hm, hid⟩
    exact ⟨c, hinserted hm, hid⟩
  exact {
    drawn := fun hm => h.drawn (hchallenge _ ▸ hm)
    unique := fun hm hm' => h.unique (hchallenge _ ▸ hm) (hchallenge _ ▸ hm')
    entry := fun he => by
      obtain ⟨c, hc, hrest⟩ := h.entry he
      exact ⟨c, hinserted hc, hrest⟩
    sending := fun he => ⟨hins (h.sending he).1, (h.sending he).2⟩
    holder := h.holder
    held := h.held
    sent := fun he => ⟨hins (h.sent he).1, (h.sent he).2⟩
    accepted := h.accepted
    once := h.once
    closed := fun he => by
      rcases setSolve_cases he with ⟨-, hp⟩ | ⟨-, hm⟩
      · exact hclosed _ _ _ hp.symm
      · exact h.closed hm
    taken := fun he => by
      rcases setSolve_cases he with ⟨rfl, hp⟩ | ⟨-, hm⟩
      · exact htaken _ _ _ hp.symm
      · exact h.taken hm
    failed := fun he => by
      rcases setSolve_cases he with ⟨-, hp⟩ | ⟨-, hm⟩
      · exact hfailed _ _ hp.symm
      · exact h.failed hm }

theorem Inv.move (h : Inv w) {p : SolveAt} (hc : p.challenge = (w.solves n).challenge)
    (hi : ∀ c, (w.solves n).inserted = some c → p.inserted = some c)
    (hp : ∀ c taken r, p ≠ .returned c taken r) : Inv (w.setSolve n p) :=
  h.setSolve hc hi (fun _ _ _ he => absurd he (hp _ _ _)) (fun _ _ _ he => absurd he (hp _ _ _))
    (fun _ _ he => absurd he (hp _ _ _))

theorem Inv.draw (h : Inv w) {c : Challenge} (hnew : w.drawn c.id = false)
    (hn : (w.solves n).challenge = none) :
    Inv { w.setSolve n (.inserting c) with drawn := Function.update w.drawn c.id true } := by
  have hno : ∀ {m d}, (w.solves m).challenge = some d → d.id ≠ c.id := by
    intro m d hm he
    have hd := h.drawn hm
    rw [he, hnew] at hd
    cases hd
  have hother : ∀ {m d}, (w.solves m).challenge = some d → m ≠ n := by
    rintro m d hm rfl
    rw [hn] at hm
    cases hm
  have hins : ∀ {m d}, (w.solves m).inserted = some d →
      ((w.setSolve n (.inserting c)).solves m).inserted = some d := by
    intro m d hm
    rwa [setSolve_ne _ (hother (SolveAt.challenge_of_inserted hm))]
  have hcase : ∀ {m d}, ((w.setSolve n (.inserting c)).solves m).challenge = some d →
      (m = n ∧ d = c) ∨ (w.solves m).challenge = some d := by
    intro m d hm
    by_cases he : m = n
    · subst he
      rw [setSolve_self] at hm
      cases hm
      exact .inl ⟨rfl, rfl⟩
    · rw [setSolve_ne _ he] at hm
      exact .inr hm
  exact {
    drawn := fun {m d} hm => by
      rcases hcase hm with ⟨-, rfl⟩ | hold
      · exact Function.update_self ..
      · exact (Function.update_of_ne (hno hold) ..).trans (h.drawn hold)
    unique := fun {m m' d d'} hm hm' hid => by
      rcases hcase hm with ⟨rfl, rfl⟩ | ho
      · rcases hcase hm' with ⟨rfl, rfl⟩ | ho'
        · rfl
        · exact absurd hid.symm (hno ho')
      · rcases hcase hm' with ⟨rfl, rfl⟩ | ho'
        · exact absurd hid (hno ho)
        · exact h.unique ho ho' hid
    entry := fun he => by
      obtain ⟨d, hd, hrest⟩ := h.entry he
      exact ⟨d, hins hd, hrest⟩
    sending := fun he => by
      obtain ⟨⟨d, hd, hid⟩, hrest⟩ := h.sending he
      exact ⟨⟨d, hins hd, hid⟩, hrest⟩
    holder := h.holder
    held := h.held
    sent := fun he => by
      obtain ⟨⟨d, hd, hid⟩, hrest⟩ := h.sent he
      exact ⟨⟨d, hins hd, hid⟩, hrest⟩
    accepted := h.accepted
    once := h.once
    closed := fun he => by
      rcases setSolve_cases he with ⟨-, hp⟩ | ⟨-, hm⟩
      · cases hp
      · exact h.closed hm
    taken := fun he => by
      rcases setSolve_cases he with ⟨-, hp⟩ | ⟨-, hm⟩
      · cases hp
      · exact h.taken hm
    failed := fun he => by
      rcases setSolve_cases he with ⟨-, hp⟩ | ⟨-, hm⟩
      · cases hp
      · exact h.failed hm }

theorem Inv.unknown {c : Challenge} (h : Inv w) (hn : w.solves n = .inserting c) :
    w.pending c.id = none ∧ w.held n = false ∧ w.sent n = none := by
  have hch : (w.solves n).challenge = some c := by rw [hn]; rfl
  have hni : ¬ ∃ d, (w.solves n).inserted = some d := by
    rintro ⟨d, hd⟩
    rw [hn] at hd
    cases hd
  refine ⟨?_, ?_, ?_⟩
  · cases hp : w.pending c.id with
    | none => rfl
    | some p =>
      obtain ⟨d, hd, hid, -⟩ := h.entry hp
      have hnm := h.unique hch (SolveAt.challenge_of_inserted hd) hid.symm
      exact absurd ⟨d, hnm ▸ hd⟩ hni
  · cases hh : w.held n with
    | false => rfl
    | true =>
      obtain ⟨k, cb, hk⟩ := h.held hh
      obtain ⟨⟨d, hd, -⟩, -⟩ := h.sending hk
      exact absurd ⟨d, hd⟩ hni
  · cases hs : w.sent n with
    | none => rfl
    | some cb =>
      obtain ⟨⟨d, hd, -⟩, -⟩ := h.sent hs
      exact absurd ⟨d, hd⟩ hni

theorem Inv.insert {c : Challenge} {deadline : Nat} (h : Inv w) (hn : w.solves n = .inserting c) :
    Inv { w.setSolve n (.requesting c deadline) with
      pending := Function.update w.pending c.id
        (some { createdAt := c.challengeStartedAt, tx := n }) } := by
  obtain ⟨-, hheld, hsent⟩ := h.unknown hn
  have hch : (w.solves n).challenge = some c := by rw [hn]; rfl
  have hm : Inv (w.setSolve n (.requesting c deadline)) := by
    refine h.move (by rw [hn]; rfl) (fun d hd => ?_) (fun _ _ _ => by simp)
    rw [hn] at hd
    cases hd
  have hni : ∀ {m d}, (w.solves m).inserted = some d → d.id ≠ c.id := by
    intro m d hd he
    have hnm := h.unique (SolveAt.challenge_of_inserted hd) hch he
    rw [hnm, hn] at hd
    cases hd
  have hkeep : ∀ {m id}, w.Inserted m id → w.pending id = none →
      Function.update w.pending c.id (some { createdAt := c.challengeStartedAt, tx := n }) id =
        none := by
    rintro m id ⟨d, hd, rfl⟩ hp
    rw [Function.update_of_ne (hni hd), hp]
  exact {
    drawn := hm.drawn
    unique := hm.unique
    entry := fun {id p} he => by
      by_cases hid : id = c.id
      · subst hid
        have hp := (Function.update_self ..).symm.trans he
        cases hp
        refine ⟨c, ?_, rfl, rfl, hheld, hsent⟩
        exact congrArg SolveAt.inserted (setSolve_self _)
      · exact hm.entry ((Function.update_of_ne hid ..).symm.trans he)
    sending := fun he => ⟨(hm.sending he).1, hkeep (h.sending he).1 (h.sending he).2.1,
      (hm.sending he).2.2⟩
    holder := hm.holder
    held := hm.held
    sent := fun he => ⟨(hm.sent he).1, hkeep (h.sent he).1 (h.sent he).2.1, (hm.sent he).2.2⟩
    accepted := hm.accepted
    once := hm.once
    closed := fun {m d taken r} he => by
      rcases setSolve_cases he with ⟨-, hp⟩ | ⟨-, hm'⟩
      · cases hp
      · exact hkeep ⟨d, by rw [hm']; rfl, rfl⟩ (h.closed hm')
    taken := hm.taken
    failed := hm.failed }

theorem Inv.setCallback (h : Inv w) {p : CallbackAt}
    (hold : ∀ cb tx, w.callbacks k ≠ .sending cb tx) (holda : ∀ cb, w.callbacks k ≠ .accepted cb)
    (hp : ∀ cb tx, p ≠ .sending cb tx) (hpa : ∀ cb, p ≠ .accepted cb) :
    Inv (w.setCallback k p) := by
  have hsend : ∀ {k' cb tx}, (w.setCallback k p).callbacks k' = .sending cb tx ↔
      w.callbacks k' = .sending cb tx := setCallback_iff (hp _ _) (hold _ _)
  have hacc : ∀ {k' cb}, (w.setCallback k p).callbacks k' = .accepted cb ↔
      w.callbacks k' = .accepted cb := setCallback_iff (hpa _) (holda _)
  exact {
    drawn := h.drawn
    unique := h.unique
    entry := h.entry
    sending := fun he => h.sending (hsend.mp he)
    holder := fun he he' => h.holder (hsend.mp he) (hsend.mp he')
    held := fun he => by
      obtain ⟨k', cb, hk⟩ := h.held he
      exact ⟨k', cb, hsend.mpr hk⟩
    sent := fun he => by
      obtain ⟨hi, hn, hh, k', hk⟩ := h.sent he
      exact ⟨hi, hn, hh, k', hacc.mpr hk⟩
    accepted := fun he => h.accepted (hacc.mp he)
    once := fun he he' => h.once (hacc.mp he) (hacc.mp he')
    closed := h.closed
    taken := h.taken
    failed := h.failed }

theorem Inv.claim (h : Inv w) {cb : CaptchaCallback} {p : PendingChallenge}
    (hk : w.callbacks k = .removing cb) (hp : w.pending cb.challengeId = some p) :
    Inv { (w.remove cb.challengeId).setCallback k (.sending cb p.tx) with
      held := Function.update w.held p.tx true } := by
  obtain ⟨c, hc, hid, -, hheld, hsent⟩ := h.entry hp
  have hr := h.remove cb.challengeId
  have hnobody : ∀ {k' cb'}, w.callbacks k' ≠ .sending cb' p.tx := by
    intro k' cb' hk'
    cases hheld.symm.trans (h.sending hk').2.2.1
  exact {
    drawn := hr.drawn
    unique := hr.unique
    entry := fun {id q} he => by
      obtain ⟨hq, hidne⟩ := remove_pending.mp he
      obtain ⟨d, hd, hdid, hcreated, hqheld, hqsent⟩ := h.entry hq
      have htx : q.tx ≠ p.tx := by
        intro heq
        rw [heq, hc] at hd
        cases hd
        exact hidne (hdid.symm.trans hid)
      exact ⟨d, hd, hdid, hcreated, (Function.update_of_ne htx ..).trans hqheld, hqsent⟩
    sending := fun {k' cb' m} he => by
      rcases setCallback_cases he with ⟨-, hp'⟩ | ⟨-, hk'⟩
      · cases hp'
        exact ⟨⟨c, hc, hid⟩, remove_self _, Function.update_self .., hsent⟩
      · have hm : m ≠ p.tx := by
          rintro rfl
          exact hnobody hk'
        obtain ⟨hi, hn, hh, hs⟩ := hr.sending hk'
        exact ⟨hi, hn, (Function.update_of_ne hm ..).trans hh, hs⟩
    holder := fun {k₁ k₂ cb₁ cb₂ m} he he' => by
      rcases setCallback_cases he with ⟨rfl, hp₁⟩ | ⟨-, hk₁⟩
      · rcases setCallback_cases he' with ⟨rfl, -⟩ | ⟨-, hk₂⟩
        · rfl
        · cases hp₁
          exact absurd hk₂ hnobody
      · rcases setCallback_cases he' with ⟨-, hp₂⟩ | ⟨-, hk₂⟩
        · cases hp₂
          exact absurd hk₁ hnobody
        · exact h.holder hk₁ hk₂
    held := fun {m} he => by
      by_cases hm : m = p.tx
      · subst hm
        exact ⟨k, cb, by simp [CaptchaWorld.setCallback]⟩
      · obtain ⟨k', cb', hk'⟩ := h.held ((Function.update_of_ne hm ..).symm.trans he)
        refine ⟨k', cb', ?_⟩
        have hkk : k' ≠ k := by
          rintro rfl
          rw [hk] at hk'
          cases hk'
        exact (Function.update_of_ne hkk ..).trans hk'
    sent := fun {m cb'} he => by
      obtain ⟨hi, hn, hh, k', hk'⟩ := hr.sent he
      have hm : m ≠ p.tx := by
        rintro rfl
        cases hsent.symm.trans he
      have hkk : k' ≠ k := by
        rintro rfl
        cases hk.symm.trans hk'
      exact ⟨hi, hn, (Function.update_of_ne hm ..).trans hh, k',
        (Function.update_of_ne hkk ..).trans hk'⟩
    accepted := fun he => by
      rcases setCallback_cases he with ⟨-, hp'⟩ | ⟨-, hk'⟩
      · cases hp'
      · exact h.accepted hk'
    once := fun he he' => by
      rcases setCallback_cases he with ⟨-, hp₁⟩ | ⟨-, hk₁⟩
      · cases hp₁
      · rcases setCallback_cases he' with ⟨-, hp₂⟩ | ⟨-, hk₂⟩
        · cases hp₂
        · exact h.once hk₁ hk₂
    closed := hr.closed
    taken := hr.taken
    failed := hr.failed }

theorem Inv.release (h : Inv w) {cb : CaptchaCallback} {p : CallbackAt}
    (hk : w.callbacks k = .sending cb n) (hp : ∀ cb' tx, p ≠ .sending cb' tx)
    (hpa : ∀ cb', p ≠ .accepted cb') :
    Inv { w.setCallback k p with held := Function.update w.held n false } := by
  have hother : ∀ {k' cb' m}, (w.setCallback k p).callbacks k' = .sending cb' m →
      k' ≠ k ∧ w.callbacks k' = .sending cb' m := by
    intro k' cb' m he
    rcases setCallback_cases he with ⟨-, hp'⟩ | hk'
    · exact absurd hp'.symm (hp _ _)
    · exact hk'
  have hacc : ∀ {k' cb'}, (w.setCallback k p).callbacks k' = .accepted cb' ↔
      w.callbacks k' = .accepted cb' :=
    setCallback_iff (hpa _) (by simp [hk, CallbackAt.accepted])
  exact {
    drawn := h.drawn
    unique := h.unique
    entry := fun {id q} he => by
      obtain ⟨d, hd, hdid, hcreated, hqheld, hqsent⟩ := h.entry he
      refine ⟨d, hd, hdid, hcreated, ?_, hqsent⟩
      by_cases htx : q.tx = n
      · rw [htx]
        exact Function.update_self ..
      · exact (Function.update_of_ne htx ..).trans hqheld
    sending := fun {k' cb' m} he => by
      obtain ⟨hkk, hk'⟩ := hother he
      have hm : m ≠ n := by
        rintro rfl
        exact hkk (h.holder hk' hk)
      obtain ⟨hi, hn, hh, hs⟩ := h.sending hk'
      exact ⟨hi, hn, (Function.update_of_ne hm ..).trans hh, hs⟩
    holder := fun he he' => h.holder (hother he).2 (hother he').2
    held := fun {m} he => by
      by_cases hm : m = n
      · subst hm
        cases (Function.update_self ..).symm.trans he
      · obtain ⟨k', cb', hk'⟩ := h.held ((Function.update_of_ne hm ..).symm.trans he)
        refine ⟨k', cb', ?_⟩
        have hkk : k' ≠ k := by
          rintro rfl
          rw [hk] at hk'
          cases hk'
          exact hm rfl
        exact (Function.update_of_ne hkk ..).trans hk'
    sent := fun {m cb'} he => by
      obtain ⟨hi, hn, hh, k', hk'⟩ := h.sent he
      refine ⟨hi, hn, ?_, k', hacc.mpr hk'⟩
      by_cases hm : m = n
      · rw [hm]
        exact Function.update_self ..
      · exact (Function.update_of_ne hm ..).trans hh
    accepted := fun he => h.accepted (hacc.mp he)
    once := fun he he' => h.once (hacc.mp he) (hacc.mp he')
    closed := h.closed
    taken := h.taken
    failed := h.failed }

theorem Inv.deliver (h : Inv w) {cb : CaptchaCallback} (hk : w.callbacks k = .sending cb n)
    (hrx : (w.solves n).receiving = true) :
    Inv { w.setCallback k (.accepted cb) with
      held := Function.update w.held n false
      sent := Function.update w.sent n (some cb) } := by
  obtain ⟨hins, hnone, hheld, hsent⟩ := h.sending hk
  have hfirst : ∀ {k' cb'}, w.callbacks k' = .accepted cb' →
      cb'.challengeId ≠ cb.challengeId := by
    intro k' cb' hk' hid
    obtain ⟨m, hm⟩ := h.accepted hk'
    obtain ⟨⟨d, hd, hdid⟩, -⟩ := h.sent hm
    obtain ⟨c, hc, hcid⟩ := hins
    have hmn := h.unique (SolveAt.challenge_of_inserted hd) (SolveAt.challenge_of_inserted hc)
      (hdid.trans (hid.trans hcid.symm))
    rw [hmn, hsent] at hm
    cases hm
  have hother : ∀ {k' cb' m}, (w.setCallback k (.accepted cb)).callbacks k' = .sending cb' m →
      k' ≠ k ∧ w.callbacks k' = .sending cb' m := by
    intro k' cb' m he
    rcases setCallback_cases he with ⟨-, hp'⟩ | hk'
    · cases hp'
    · exact hk'
  exact {
    drawn := h.drawn
    unique := h.unique
    entry := fun {id q} he => by
      obtain ⟨d, hd, hdid, hcreated, hqheld, hqsent⟩ := h.entry he
      have htx : q.tx ≠ n := by
        intro heq
        rw [heq, hheld] at hqheld
        cases hqheld
      exact ⟨d, hd, hdid, hcreated, (Function.update_of_ne htx ..).trans hqheld,
        (Function.update_of_ne htx ..).trans hqsent⟩
    sending := fun {k' cb' m} he => by
      obtain ⟨hkk, hk'⟩ := hother he
      have hm : m ≠ n := by
        rintro rfl
        exact hkk (h.holder hk' hk)
      obtain ⟨hi, hn, hh, hs⟩ := h.sending hk'
      exact ⟨hi, hn, (Function.update_of_ne hm ..).trans hh,
        (Function.update_of_ne hm ..).trans hs⟩
    holder := fun he he' => h.holder (hother he).2 (hother he').2
    held := fun {m} he => by
      by_cases hm : m = n
      · subst hm
        cases (Function.update_self ..).symm.trans he
      · obtain ⟨k', cb', hk'⟩ := h.held ((Function.update_of_ne hm ..).symm.trans he)
        refine ⟨k', cb', ?_⟩
        have hkk : k' ≠ k := by
          rintro rfl
          rw [hk] at hk'
          cases hk'
          exact hm rfl
        exact (Function.update_of_ne hkk ..).trans hk'
    sent := fun {m cb'} he => by
      by_cases hm : m = n
      · subst hm
        cases (Function.update_self ..).symm.trans he
        exact ⟨hins, hnone, Function.update_self .., k, by simp [CaptchaWorld.setCallback]⟩
      · obtain ⟨hi, hn, hh, k', hk'⟩ := h.sent ((Function.update_of_ne hm ..).symm.trans he)
        have hkk : k' ≠ k := by
          rintro rfl
          rw [hk] at hk'
          cases hk'
        exact ⟨hi, hn, (Function.update_of_ne hm ..).trans hh, k',
          (Function.update_of_ne hkk ..).trans hk'⟩
    accepted := fun {k' cb'} he => by
      rcases setCallback_cases he with ⟨-, hp'⟩ | ⟨-, hk'⟩
      · cases hp'
        exact ⟨n, Function.update_self ..⟩
      · obtain ⟨m, hm⟩ := h.accepted hk'
        have hmn : m ≠ n := by
          rintro rfl
          rw [hsent] at hm
          cases hm
        exact ⟨m, (Function.update_of_ne hmn ..).trans hm⟩
    once := fun he he' hid => by
      rcases setCallback_cases he with ⟨rfl, hp₁⟩ | ⟨-, hk₁⟩
      · rcases setCallback_cases he' with ⟨rfl, -⟩ | ⟨-, hk₂⟩
        · rfl
        · cases hp₁
          exact absurd hid.symm (hfirst hk₂)
      · rcases setCallback_cases he' with ⟨-, hp₂⟩ | ⟨-, hk₂⟩
        · cases hp₂
          exact absurd hid (hfirst hk₁)
        · exact h.once hk₁ hk₂ hid
    closed := h.closed
    taken := fun {m c cb' r} he => by
      obtain ⟨hid, hs, hr⟩ := h.taken he
      have hm : m ≠ n := by
        rintro rfl
        rw [hsent] at hs
        cases hs
      exact ⟨hid, (Function.update_of_ne hm ..).trans hs, hr⟩
    failed := h.failed }

theorem Inv.closed_of_sender {c : Challenge} (h : Inv w) (hc : (w.solves n).inserted = some c)
    (htx : w.sender n c.id = false) : w.pending c.id = none := by
  simp only [sender, Bool.or_eq_false_iff] at htx
  cases hp : w.pending c.id with
  | none => rfl
  | some p =>
    obtain ⟨d, hd, hid, -⟩ := h.entry hp
    have hm := h.unique (SolveAt.challenge_of_inserted hd) (SolveAt.challenge_of_inserted hc) hid
    have := htx.2
    simp [hp, hm] at this

theorem Inv.solveStep {s : SolveStep} (h : Inv w) (ht : SolveTurn env w n s v)
    (hfresh : FreshIds w (.solve n s)) : Inv v := by
  cases ht with
  | start hat =>
    exact h.move (by rw [hat]; rfl) (by rw [hat]; simp [SolveAt.inserted, SolveAt.challenge])
      (by simp)
  | disabled hat =>
    refine h.cleanupExpired.setSolve ?_ ?_ ?_ ?_ ?_
    · show none = (w.solves n).challenge
      rw [hat]
      rfl
    · intro c hc
      have hc' : (w.solves n).inserted = some c := hc
      rw [hat] at hc'
      cases hc'
    · simp
    · simp
    · rintro c r he
      cases he
      exact ⟨_, rfl⟩
  | draw hat hurl c hid =>
    subst hid
    have hn : (w.solves n).challenge = none := by rw [hat]; rfl
    exact h.cleanupExpired.draw (hfresh _ _ rfl) hn
  | insert hat => exact h.insert hat
  | succeeded hat | empty hat | sleep hat | failed hat | requestTimeout hat | elapsed hat =>
    exact h.move (by rw [hat]; rfl) (by rw [hat]; exact fun _ hd => hd) (by simp)
  | take hat hsent =>
    obtain ⟨⟨d, hd, hid⟩, hnone, -⟩ := h.sent hsent
    rw [hat] at hd
    cases hd
    refine h.setSolve (by rw [hat]; rfl) (by rw [hat]; exact fun _ hd => hd) ?_ ?_ (by simp)
    · rintro c' taken r he
      cases he
      exact hid ▸ hnone
    · rintro c' cb' r he
      cases he
      exact ⟨⟨_, rfl, hid⟩, hsent, rfl⟩
  | closed hat hsent htx =>
    refine h.setSolve (by rw [hat]; rfl) (by rw [hat]; exact fun _ hd => hd) ?_ (by simp) ?_
    · rintro c' taken r he
      cases he
      exact h.closed_of_sender (by rw [hat]; rfl) htx
    · rintro c' r he
      cases he
      exact ⟨_, rfl⟩
  | @remove c err rx hat =>
    have hat' : (w.remove c.id).solves n = .removing c err rx := hat
    refine (h.remove c.id).setSolve (by rw [hat']; rfl) (by rw [hat']; exact fun _ hd => hd) ?_
      (by simp) ?_
    · rintro c' taken r he
      cases he
      exact Function.update_self ..
    · rintro c' r he
      cases he
      exact ⟨_, rfl⟩
  | drop => exact h.move rfl (fun c hc => SolveAt.challenge_of_inserted hc) (by simp)

theorem Inv.callbackStep {s : CallbackStep} (h : Inv w) (ht : CallbackTurn env w k s v) :
    Inv v := by
  cases ht with
  | refused hat | unread hat | start hat | unknown hat =>
    exact h.setCallback (by simp [hat]) (by simp [hat, CallbackAt.accepted]) (by simp)
      (by simp [CallbackAt.accepted])
  | @cleanup cb hat =>
    have hat' : w.cleanupExpired.callbacks k = .cleaning cb := hat
    exact h.cleanupExpired.setCallback (by simp [hat']) (by simp [hat', CallbackAt.accepted])
      (by simp) (by simp [CallbackAt.accepted])
  | remove hat hp => exact h.claim hat hp
  | send hat hrx => exact h.deliver hat hrx
  | unsent hat => exact h.release hat (by simp) (by simp [CallbackAt.accepted])
  | drop hat =>
    rcases hat with hat | hat <;>
      exact h.setCallback (by simp [hat]) (by simp [hat, CallbackAt.accepted]) (by simp)
        (by simp [CallbackAt.accepted])

theorem Inv.tick (h : Inv w) (d : Nat) : Inv { w with now := w.now + d } where
  drawn := h.drawn
  unique := h.unique
  entry := h.entry
  sending := h.sending
  holder := h.holder
  held := h.held
  sent := h.sent
  accepted := h.accepted
  once := h.once
  closed := h.closed
  taken := h.taken
  failed := h.failed

theorem Inv.step {act : CaptchaAct} (h : Inv w) (hfresh : FreshIds w act)
    (hs : (captcha env).step w act = some v) : Inv v := by
  cases act with
  | tick d =>
    cases hs
    exact h.tick d
  | solve n s => exact h.solveStep (solveStep_turn hs) hfresh
  | callback k s => exact h.callbackStep (callbackStep_turn hs)

theorem inv_of_reachable (h : (captcha env).ReachableBy FreshIds w) : Inv w :=
  h.invariant (by rintro s rfl; exact inv_new) fun _ _ _ hok hs hi => hi.step hok hs

end CaptchaWorld

end Maxrs
