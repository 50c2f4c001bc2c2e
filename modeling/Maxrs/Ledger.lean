import Maxrs.AttachmentRegistry
import Maxrs.Kit.History
set_option autoImplicit false

/-! The history of one attachment registry: who registered, what was notified, who still holds
a waiter. -/
namespace Maxrs

inductive RegistryEvent (ι : Type) where
  | registered (i : ι) (waiter : AttachmentWaiter)
  | notified (fileId : Int)

variable {ι : Type}

structure Ledger (r : AttachmentRegistry) (holds : ι → AttachmentWaiter → Prop)
    (l : List (RegistryEvent ι)) : Prop where
  sound : r.Sound
  known : ∀ i w, .registered i w ∈ l → w.identity < r.registered
  unique : ∀ i j w v, .registered i w ∈ l → .registered j v ∈ l → w.identity = v.identity →
    i = j ∧ w = v
  owned : ∀ g n, r.waiters g = some n → ∃ i, holds i ⟨g, n⟩
  held : ∀ i w, holds i w → .registered i w ∈ l ∧
    (r.completed w.identity = true ∨ r.waiters w.fileId = some w.identity)
  completed : ∀ before i w after, l = before ++ .registered i w :: after →
    r.completed w.identity = true → .notified w.fileId ∈ after

namespace Ledger

variable {r : AttachmentRegistry} {holds holds' : ι → AttachmentWaiter → Prop}
  {l : List (RegistryEvent ι)}

theorem new (hn : ∀ i w, ¬ holds i w) : Ledger .new holds [] where
  sound := AttachmentRegistry.sound_new
  known := fun _ _ h => absurd h List.not_mem_nil
  unique := fun _ _ _ _ h => absurd h List.not_mem_nil
  owned := fun g n h => by cases h
  held := fun i w h => absurd h (hn i w)
  completed := fun before i w after h => by simp at h

theorem congr (h : Ledger r holds l) (he : ∀ i w, holds' i w ↔ holds i w) :
    Ledger r holds' l where
  sound := h.sound
  known := h.known
  unique := h.unique
  owned := fun g n hg => by
    obtain ⟨i, hi⟩ := h.owned g n hg
    exact ⟨i, (he _ _).mpr hi⟩
  held := fun i w hw => h.held i w ((he i w).mp hw)
  completed := h.completed

theorem complete (h : Ledger r holds l) (fileId : Int) :
    Ledger (r.complete fileId) holds (l ++ [.notified fileId]) := by
  have old : ∀ {i w}, .registered i w ∈ l ++ [.notified fileId] → .registered i w ∈ l := by
    intro i w hm
    simpa using hm
  refine ⟨h.sound.complete fileId, fun i w hm => ?_, fun i j w v hm hm' => h.unique i j w v
    (old hm) (old hm'), fun g n hg => ?_, fun i w hw => ?_, fun before i w after hl hc => ?_⟩
  · rw [AttachmentRegistry.complete_registered]
    exact h.known i w (old hm)
  · rw [AttachmentRegistry.complete_waiters] at hg
    split at hg
    · cases hg
    · exact h.owned g n hg
  · obtain ⟨hm, hs⟩ := h.held i w hw
    refine ⟨List.mem_append_left _ hm, ?_⟩
    rw [AttachmentRegistry.complete_completed, AttachmentRegistry.complete_waiters]
    rcases hs with hs | hs
    · exact .inl (by rw [hs, Bool.true_or])
    · by_cases hf : w.fileId = fileId
      · rw [hf] at hs
        exact .inl (by simp [hs])
      · exact .inr (by rw [if_neg hf, hs])
  · rcases History.split_snoc hl with ⟨mid, rfl, rfl⟩ | ⟨-, he, -⟩
    · rw [AttachmentRegistry.complete_completed, Bool.or_eq_true, decide_eq_true_eq] at hc
      rcases hc with hc | hc
      · exact List.mem_append_left _ (h.completed before i w mid rfl hc)
      · -- the entry under this file is held by whoever registered that identity
        obtain ⟨j, hj⟩ := h.owned fileId _ hc
        obtain ⟨-, hw⟩ := h.unique i j w _ (by simp) (h.held j _ hj).1 rfl
        have hf : w.fileId = fileId := congrArg AttachmentWaiter.fileId hw
        simp [hf]
    · cases he

theorem register {i : ι} {fileId : Int} {w : AttachmentWaiter} (h : Ledger r holds l)
    (hw : (r.register fileId).2 = some w)
    (he : ∀ j v, holds' j v ↔ holds j v ∨ (j = i ∧ v = w)) :
    w.fileId = fileId ∧ Ledger (r.register fileId).1 holds' (l ++ [.registered i w]) := by
  have hsound := h.sound.register fileId
  rcases r.register_cases fileId with ⟨hr, -⟩ | ⟨hnone, hr⟩
  · rw [hr] at hw
    cases hw
  rw [hr] at hw hsound ⊢
  simp only [Option.some.injEq] at hw
  subst hw
  refine ⟨rfl, ?_⟩
  have cases_of : ∀ {j v}, .registered j v ∈ l ++ [.registered i ⟨fileId, r.registered⟩] →
      .registered j v ∈ l ∨ (j = i ∧ v = ⟨fileId, r.registered⟩) := by
    intro j v hm
    simpa using hm
  have hkept : ∀ {g n}, r.waiters g = some n →
      Function.update r.waiters fileId (some r.registered) g = some n := by
    intro g n hg
    rw [Function.update_of_ne, hg]
    rintro rfl
    rw [hnone] at hg
    cases hg
  refine ⟨hsound, fun j v hm => ?_, fun j k v u hm hm' heq => ?_, fun g n hg => ?_,
    fun j v hv => ?_, fun before j v after hl hc => ?_⟩
  · rcases cases_of hm with hm | ⟨-, rfl⟩
    · exact Nat.lt_succ_of_lt (h.known j v hm)
    · exact Nat.lt_succ_self _
  · rcases cases_of hm with hold | ⟨rfl, rfl⟩ <;> rcases cases_of hm' with hold' | ⟨rfl, rfl⟩
    · exact h.unique j k v u hold hold' heq
    · exact absurd (h.known j v hold) (heq ▸ Nat.lt_irrefl _)
    · exact absurd (h.known k u hold') (heq ▸ Nat.lt_irrefl _)
    · exact ⟨rfl, rfl⟩
  · dsimp only at hg
    by_cases hg' : g = fileId
    · subst hg'
      rw [Function.update_self] at hg
      cases hg
      exact ⟨i, (he _ _).mpr (.inr ⟨rfl, rfl⟩)⟩
    · rw [Function.update_of_ne hg'] at hg
      obtain ⟨j, hj⟩ := h.owned g n hg
      exact ⟨j, (he _ _).mpr (.inl hj)⟩
  · rcases (he j v).mp hv with hv | ⟨rfl, rfl⟩
    · obtain ⟨hm, hs⟩ := h.held j v hv
      exact ⟨List.mem_append_left _ hm, hs.imp_right hkept⟩
    · exact ⟨by simp, .inr (Function.update_self _ _ _)⟩
  · rcases History.split_snoc hl with ⟨mid, rfl, rfl⟩ | ⟨-, hv, -⟩
    · exact List.mem_append_left _ (h.completed before j v mid rfl hc)
    · cases hv
      exact absurd (h.sound.known _ hc) (Nat.lt_irrefl _)

theorem release {i : ι} {w : AttachmentWaiter} (h : Ledger r holds l) (hw : holds i w)
    (he : ∀ j v, holds' j v ↔ holds j v ∧ ¬ (j = i ∧ v = w)) :
    Ledger (r.dropWaiter w) holds' l := by
  refine ⟨h.sound.dropWaiter w, fun j v hm => ?_, h.unique, fun g n hg => ?_, fun j v hv => ?_,
    fun before j v after hl hc => h.completed before j v after hl (by simpa using hc)⟩
  · rw [AttachmentRegistry.dropWaiter_registered]
    exact h.known j v hm
  · rw [AttachmentRegistry.dropWaiter_waiters] at hg
    split at hg
    · cases hg
    · rename_i hne
      obtain ⟨j, hj⟩ := h.owned g n hg
      refine ⟨j, (he _ _).mpr ⟨hj, ?_⟩⟩
      rintro ⟨-, rfl⟩
      exact hne ⟨rfl, hg⟩
  · obtain ⟨hv, hne⟩ := (he j v).mp hv
    obtain ⟨hm, hs⟩ := h.held j v hv
    refine ⟨hm, ?_⟩
    rw [AttachmentRegistry.dropWaiter_completed, AttachmentRegistry.dropWaiter_waiters]
    refine hs.imp_right fun hs => ?_
    rw [if_neg]
    · exact hs
    · rintro ⟨-, hw'⟩
      obtain ⟨rfl, rfl⟩ := h.unique j i v w hm (h.held i w hw).1
        (Option.some.inj (hs.symm.trans hw'))
      exact hne ⟨rfl, rfl⟩

theorem gone {i : ι} {w : AttachmentWaiter} (h : Ledger r holds l) (hm : .registered i w ∈ l)
    (hn : ¬ holds i w) (g : Int) : r.waiters g ≠ some w.identity := by
  intro hg
  obtain ⟨j, hj⟩ := h.owned g _ hg
  obtain ⟨rfl, he⟩ := h.unique i j w _ hm (h.held j _ hj).1 rfl
  rw [← he] at hj
  exact hn hj

end Ledger

end Maxrs
