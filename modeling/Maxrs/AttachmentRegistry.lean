import Mathlib.Tactic.Ring
set_option autoImplicit false

/-! `attachment_registry.rs`. Registrations are numbered; the number is the `identity` that
`Arc::ptr_eq` compares. -/
namespace Maxrs

abbrev WaiterId := Nat

structure AttachmentWaiter where
  fileId : Int
  identity : WaiterId

structure AttachmentRegistry where
  waiters : Int → Option WaiterId
  registered : Nat
  /-- The waiters whose `completion` was sent. -/
  completed : WaiterId → Bool

namespace AttachmentRegistry

def new : AttachmentRegistry where
  waiters := fun _ => none
  registered := 0
  completed := fun _ => false

def register (r : AttachmentRegistry) (fileId : Int) :
    AttachmentRegistry × Option AttachmentWaiter :=
  match r.waiters fileId with
  | some _ => (r, none)
  | none =>
    ({ r with
        waiters := Function.update r.waiters fileId (some r.registered)
        registered := r.registered + 1 },
      some { fileId := fileId, identity := r.registered })

def complete (r : AttachmentRegistry) (fileId : Int) : AttachmentRegistry :=
  match r.waiters fileId with
  | some w => { r with
      waiters := Function.update r.waiters fileId none
      completed := Function.update r.completed w true }
  | none => r

/-- `Drop for AttachmentWaiter`. -/
def dropWaiter (r : AttachmentRegistry) (w : AttachmentWaiter) : AttachmentRegistry :=
  if r.waiters w.fileId = some w.identity then
    { r with waiters := Function.update r.waiters w.fileId none }
  else r

theorem register_cases (r : AttachmentRegistry) (fileId : Int) :
    (r.register fileId = (r, none) ∧ ∃ w, r.waiters fileId = some w) ∨
    (r.waiters fileId = none ∧ r.register fileId =
      ({ r with
          waiters := Function.update r.waiters fileId (some r.registered)
          registered := r.registered + 1 },
        some { fileId := fileId, identity := r.registered })) := by
  unfold register
  split
  · exact .inl ⟨rfl, _, by assumption⟩
  · exact .inr ⟨by assumption, rfl⟩

@[simp] theorem complete_waiters (r : AttachmentRegistry) (fileId g : Int) :
    (r.complete fileId).waiters g = if g = fileId then none else r.waiters g := by
  unfold complete
  split
  · by_cases hg : g = fileId <;> simp [hg]
  · rename_i hn
    by_cases hg : g = fileId
    · simp [hg, hn]
    · simp [hg]

@[simp] theorem complete_completed (r : AttachmentRegistry) (fileId : Int) (w : WaiterId) :
    (r.complete fileId).completed w =
      (r.completed w || decide (r.waiters fileId = some w)) := by
  unfold complete
  split
  · rename_i v hv
    by_cases hw : w = v
    · simp [hw, hv]
    · simp [Function.update_of_ne hw, hv, Ne.symm hw]
  · simp [*]

@[simp] theorem complete_registered (r : AttachmentRegistry) (fileId : Int) :
    (r.complete fileId).registered = r.registered := by
  unfold complete
  split <;> rfl

@[simp] theorem dropWaiter_waiters (r : AttachmentRegistry) (w : AttachmentWaiter) (g : Int) :
    (r.dropWaiter w).waiters g =
      if g = w.fileId ∧ r.waiters g = some w.identity then none else r.waiters g := by
  unfold dropWaiter
  by_cases hg : g = w.fileId
  · subst hg
    by_cases hw : r.waiters w.fileId = some w.identity <;> simp [hw]
  · split <;> simp [hg]

@[simp] theorem dropWaiter_completed (r : AttachmentRegistry) (w : AttachmentWaiter) :
    (r.dropWaiter w).completed = r.completed := by
  unfold dropWaiter
  split <;> rfl

@[simp] theorem dropWaiter_registered (r : AttachmentRegistry) (w : AttachmentWaiter) :
    (r.dropWaiter w).registered = r.registered := by
  unfold dropWaiter
  split <;> rfl

/-- An identity waits under at most one file, and not once it is completed. -/
structure Sound (r : AttachmentRegistry) : Prop where
  fresh : ∀ g w, r.waiters g = some w → w < r.registered
  single : ∀ g g' w, r.waiters g = some w → r.waiters g' = some w → g = g'
  pending : ∀ g w, r.waiters g = some w → r.completed w = false
  known : ∀ w, r.completed w = true → w < r.registered

theorem sound_new : new.Sound := ⟨by simp [new], by simp [new], by simp [new], by simp [new]⟩

theorem Sound.register {r : AttachmentRegistry} (h : r.Sound) (fileId : Int) :
    (r.register fileId).1.Sound := by
  rcases r.register_cases fileId with ⟨he, -⟩ | ⟨-, he⟩
  · rw [he]
    exact h
  · rw [he]
    have hnew : ∀ g w, Function.update r.waiters fileId (some r.registered) g = some w →
        (g = fileId ∧ w = r.registered) ∨ (g ≠ fileId ∧ r.waiters g = some w) := by
      intro g w hg
      by_cases hf : g = fileId
      · rw [hf, Function.update_self] at hg
        exact .inl ⟨hf, (Option.some.inj hg).symm⟩
      · rw [Function.update_of_ne hf] at hg
        exact .inr ⟨hf, hg⟩
    refine ⟨fun g w hg => ?_, fun g g' w hg hg' => ?_, fun g w hg => ?_, fun w hw => ?_⟩
    · rcases hnew g w hg with ⟨-, rfl⟩ | ⟨-, hg⟩
      · exact Nat.lt_succ_self _
      · exact Nat.lt_succ_of_lt (h.fresh g w hg)
    · rcases hnew g w hg with ⟨hf, hw⟩ | ⟨-, hg⟩ <;>
        rcases hnew g' w hg' with ⟨hf', hw'⟩ | ⟨-, hg'⟩
      · rw [hf, hf']
      · exact absurd (h.fresh g' w hg') (hw ▸ Nat.lt_irrefl _)
      · exact absurd (h.fresh g w hg) (hw' ▸ Nat.lt_irrefl _)
      · exact h.single g g' w hg hg'
    · rcases hnew g w hg with ⟨-, rfl⟩ | ⟨-, hg⟩
      · exact Bool.eq_false_iff.mpr fun hc => Nat.lt_irrefl _ (h.known _ hc)
      · exact h.pending g w hg
    · exact Nat.lt_succ_of_lt (h.known w hw)

theorem Sound.complete {r : AttachmentRegistry} (h : r.Sound) (fileId : Int) :
    (r.complete fileId).Sound := by
  refine ⟨fun g w hg => ?_, fun g g' w hg hg' => ?_, fun g w hg => ?_, fun w hw => ?_⟩
  · simp only [complete_waiters] at hg
    split at hg
    · cases hg
    · simpa using h.fresh g w hg
  · simp only [complete_waiters] at hg hg'
    split at hg
    · cases hg
    · split at hg'
      · cases hg'
      · exact h.single g g' w hg hg'
  · simp only [complete_waiters] at hg
    split at hg
    · cases hg
    · rename_i hne
      simp only [complete_completed, h.pending g w hg, Bool.false_or, decide_eq_false_iff_not]
      exact fun hf => hne (h.single g fileId w hg hf)
  · simp only [complete_completed, Bool.or_eq_true, decide_eq_true_eq] at hw
    rw [complete_registered]
    exact hw.elim (h.known w) (h.fresh fileId w)

theorem Sound.dropWaiter {r : AttachmentRegistry} (h : r.Sound) (v : AttachmentWaiter) :
    (r.dropWaiter v).Sound := by
  have old : ∀ {g w}, (r.dropWaiter v).waiters g = some w → r.waiters g = some w := by
    intro g w hg
    rw [dropWaiter_waiters] at hg
    split at hg
    · cases hg
    · exact hg
  refine ⟨fun g w hg => ?_, fun g g' w hg hg' => h.single g g' w (old hg) (old hg'),
    fun g w hg => ?_, fun w hw => ?_⟩
  · rw [dropWaiter_registered]
    exact h.fresh g w (old hg)
  · rw [dropWaiter_completed]
    exact h.pending g w (old hg)
  · rw [dropWaiter_registered]
    exact h.known w (by simpa using hw)

end AttachmentRegistry

end Maxrs
