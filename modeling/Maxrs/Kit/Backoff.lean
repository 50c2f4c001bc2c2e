import Mathlib.Tactic.Ring
set_option autoImplicit false

/-! Delays that double up to a cap, where some of the rounds in between reset them. -/
namespace Backoff

variable {α : Type} (resets : α → Bool) (cap : Nat)

/-- The number of rounds after the last one that resets. -/
def sinceReset (rounds : List α) : Nat :=
  (rounds.reverse.takeWhile fun a => !resets a).length

/-- How often the delay that follows the last round has been doubled. -/
def exponent (rounds : List α) : Nat :=
  if rounds.any resets then sinceReset resets rounds else rounds.length - 1

/-- How often the delay has been doubled that the next round finds. -/
def pending (rounds : List α) : Nat :=
  if rounds.isEmpty then 0 else exponent resets rounds + 1

def delay (n : Nat) : Nat := min (2 ^ n) cap

variable {resets} {cap}

theorem delay_succ (n : Nat) : min (delay cap n * 2) cap = delay cap (n + 1) := by
  simp only [delay, Nat.pow_succ]
  omega

theorem delay_zero (h : 1 ≤ cap) : delay cap 0 = 1 := by
  simp only [delay, Nat.pow_zero]
  omega

theorem exponent_of_reset {rounds : List α} {a : α} (h : resets a = true) :
    exponent resets (rounds ++ [a]) = 0 := by
  simp [exponent, sinceReset, h]

theorem exponent_of_not_reset {rounds : List α} {a : α} (h : resets a = false) :
    exponent resets (rounds ++ [a]) = pending resets rounds := by
  have hany : (rounds ++ [a]).any resets = rounds.any resets := by simp [h]
  have hsince : sinceReset resets (rounds ++ [a]) = sinceReset resets rounds + 1 := by
    simp [sinceReset, h]
  cases rounds with
  | nil => simp [exponent, pending, h]
  | cons b rounds =>
    rw [exponent, hany, hsince, pending, exponent]
    split <;> simp

theorem pending_of_ne_nil {rounds : List α} (h : rounds ≠ []) :
    pending resets rounds = exponent resets rounds + 1 := by
  simp [pending, h]

end Backoff
