import Maxrs.Error
import Maxrs.Kit.Automaton
set_option autoImplicit false

/-! `recovery.rs`: the published state, its shutdown token and the five operations, each
split where another task can run between two of its accesses. -/
namespace Maxrs

/-- Connections in the order in which `begin_attempt` made them. -/
abbrev ConnId := Nat

inductive RecoveryState where
  | offline
  | ready (connection : ConnId)
  | stopped
  deriving DecidableEq

/-- The watch value with the version that its receivers compare, and the shutdown token. -/
structure Recovery where
  state : RecoveryState
  version : Nat
  shutdown : Bool

namespace Recovery

def new : Recovery where
  state := .offline
  version := 0
  shutdown := false

def publish (r : Recovery) (state : RecoveryState) : Recovery :=
  { r with state := state, version := r.version + 1 }

/-- `send_if_modified` in `connected`; `cancelled` is what `connection.is_cancelled()`
answers inside the closure. -/
def connected (r : Recovery) (connection : ConnId) (cancelled : Bool) :
    Recovery × Except Error Unit :=
  if r.state = .stopped ∨ cancelled then (r, .error .connectionClosed)
  else (r.publish (.ready connection), .ok ())

def offline (r : Recovery) : Recovery :=
  if r.state = .stopped then r else r.publish .offline

/-- First half of `stop`. -/
def cancelShutdown (r : Recovery) : Recovery := { r with shutdown := true }

/-- Second half of `stop`. -/
def publishStopped (r : Recovery) : Recovery := r.publish .stopped

@[simp] theorem publish_state (r : Recovery) (s : RecoveryState) : (r.publish s).state = s := rfl

@[simp] theorem publish_version (r : Recovery) (s : RecoveryState) :
    (r.publish s).version = r.version + 1 := rfl

@[simp] theorem publish_shutdown (r : Recovery) (s : RecoveryState) :
    (r.publish s).shutdown = r.shutdown := rfl

@[simp] theorem cancelShutdown_state (r : Recovery) : r.cancelShutdown.state = r.state := rfl

@[simp] theorem cancelShutdown_version (r : Recovery) :
    r.cancelShutdown.version = r.version := rfl

@[simp] theorem cancelShutdown_shutdown (r : Recovery) : r.cancelShutdown.shutdown = true := rfl

@[simp] theorem publishStopped_state (r : Recovery) : r.publishStopped.state = .stopped := rfl

@[simp] theorem publishStopped_version (r : Recovery) :
    r.publishStopped.version = r.version + 1 := rfl

@[simp] theorem publishStopped_shutdown (r : Recovery) :
    r.publishStopped.shutdown = r.shutdown := rfl

@[simp] theorem offline_shutdown (r : Recovery) : r.offline.shutdown = r.shutdown := by
  unfold offline; split <;> rfl

@[simp] theorem connected_shutdown (r : Recovery) (c : ConnId) (b : Bool) :
    (r.connected c b).1.shutdown = r.shutdown := by
  unfold connected; split <;> rfl

theorem connected_cancelled (r : Recovery) (c : ConnId) :
    r.connected c true = (r, .error .connectionClosed) := by simp [connected]

theorem connected_stopped {r : Recovery} (c : ConnId) (b : Bool) (h : r.state = .stopped) :
    r.connected c b = (r, .error .connectionClosed) := by simp [connected, h]

theorem offline_stopped {r : Recovery} (h : r.state = .stopped) : r.offline = r := by
  simp [offline, h]

theorem connected_cases (r : Recovery) (c : ConnId) (b : Bool) :
    (r.connected c b = (r, .error .connectionClosed) ∧ (r.state = .stopped ∨ b = true)) ∨
    (r.connected c b = (r.publish (.ready c), .ok ()) ∧ r.state ≠ .stopped ∧ b = false) := by
  unfold connected
  split
  · exact .inl ⟨rfl, ‹_›⟩
  · rename_i h
    exact .inr ⟨rfl, fun hs => h (.inl hs), by simpa using fun hb => h (.inr hb)⟩

theorem offline_cases (r : Recovery) :
    (r.offline = r ∧ r.state = .stopped) ∨
      (r.offline = r.publish .offline ∧ r.state ≠ .stopped) := by
  unfold offline
  split
  · exact .inl ⟨rfl, ‹_›⟩
  · exact .inr ⟨rfl, ‹_›⟩

end Recovery

/-- Where a task stands in `Recovery::current`. -/
inductive Current where
  | reading
  | checking (state : RecoveryState) (seen : Nat)
  | waiting (seen : Nat)
  | returned (result : Except Error ConnId)

namespace Current

/-- `borrow_and_update().clone()`. -/
def borrow (r : Recovery) : Current → Option Current
  | .reading => some (.checking r.state r.version)
  | _ => none

/-- The match on the clone; the guard asks the token now, not when the value was read. -/
def check (cancelled : ConnId → Bool) : Current → Option Current
  | .checking (.ready c) seen => some (if cancelled c then .waiting seen else .returned (.ok c))
  | .checking .stopped _ => some (.returned (.error .connectionClosed))
  | .checking .offline seen => some (.waiting seen)
  | _ => none

/-- `changed()` is ready exactly when the version differs from the last one seen. -/
def wake (r : Recovery) : Current → Option Current
  | .waiting seen => if r.version = seen then none else some .reading
  | _ => none

theorem check_ok {cancelled : ConnId → Bool} {p : Current} {c : ConnId}
    (h : p.check cancelled = some (.returned (.ok c))) :
    cancelled c = false ∧ ∃ seen, p = .checking (.ready c) seen := by
  cases p with
  | checking state seen =>
    cases state with
    | ready d =>
      simp only [check, Option.some.injEq] at h
      cases hd : cancelled d with
      | true => simp [hd] at h
      | false =>
        simp only [hd, Bool.false_eq_true, if_false, returned.injEq, Except.ok.injEq] at h
        exact ⟨h ▸ hd, seen, by rw [h]⟩
    | offline => simp [check] at h
    | stopped => simp [check] at h
  | _ => simp [check] at h

end Current

end Maxrs
