import Mathlib.Logic.Function.Basic
set_option autoImplicit false

/-! A lock with at most one owner, against the users who stand in its critical section. -/

namespace Lock

variable {α : Type} {lock lock' : Option α} {holds holds' : α → Bool}

/-- Those who stand in the critical section are the owner of the lock. -/
def Agrees (lock : Option α) (holds : α → Bool) : Prop := ∀ a, holds a = true ↔ lock = some a

/-- What one user can do in one step; the flags say where it stands before and after. -/
inductive Turn (me : α) (before after : Bool) (lock lock' : Option α) : Prop where
  | keep : after = before → lock' = lock → Turn me before after lock lock'
  | acquire : lock = none → after = true → lock' = some me → Turn me before after lock lock'
  | release : before = true → after = false → lock' = none → Turn me before after lock lock'

theorem agrees_none (h : ∀ a, holds a = false) : Agrees none holds := by simp [Agrees, h]

theorem Agrees.free (h : Agrees none holds) (a : α) : holds a = false :=
  Bool.eq_false_iff.mpr fun ha => by simpa using (h a).mp ha

theorem Agrees.unique {a b : α} (h : Agrees lock holds) (ha : holds a = true)
    (hb : holds b = true) : a = b := Option.some.inj (((h a).mp ha).symm.trans ((h b).mp hb))

theorem Agrees.congr (h : Agrees lock holds) (he : ∀ a, holds' a = holds a) :
    Agrees lock holds' := fun a => by rw [he a]; exact h a

/-- The rule for a step of one user. -/
theorem Agrees.turn (me : α) (h : Agrees lock holds)
    (ht : Turn me (holds me) (holds' me) lock lock')
    (hother : ∀ a, a ≠ me → holds' a = holds a) : Agrees lock' holds' := by
  intro a
  cases ht with
  | keep hb hl =>
    by_cases ha : a = me
    · rw [ha, hb, hl]
      exact h me
    · rw [hother a ha, hl]
      exact h a
  | acquire hn hb hl =>
    subst hn hl
    by_cases ha : a = me
    · simp [ha, hb]
    · simp [hother a ha, h.free a, Ne.symm ha]
  | release hb hb' hl =>
    subst hl
    by_cases ha : a = me
    · simp [ha, hb']
    · have hfalse : holds a = false := Bool.eq_false_iff.mpr fun hc => ha (h.unique hc hb)
      simp [hother a ha, hfalse]

end Lock
