import Mathlib.Data.List.Nodup
import Mathlib.Data.List.Perm.Basic
set_option autoImplicit false

/-! The entries of an object as a document lists them: a key may stand there more than once. -/
universe u v

namespace Fields

variable {α : Type u} {β : Type v} [DecidableEq α] {key : α} {value : β}
  {entries entries' : List (α × β)}

def at_ (key : α) (entries : List (α × β)) : List (α × β) := entries.filter fun e => e.1 = key

def only (key : α) (entries : List (α × β)) : Option β :=
  match at_ key entries with
  | [e] => some e.2
  | _ => none

def keepLast : List (α × β) → List (α × β)
  | [] => []
  | e :: entries =>
    if e.1 ∈ entries.map Prod.fst then keepLast entries else e :: keepLast entries

theorem only_eq_some_iff : only key entries = some value ↔ at_ key entries = [(key, value)] := by
  have hkey : ∀ e ∈ at_ key entries, e.1 = key := fun e he => by
    simpa using (List.mem_filter.mp he).2
  unfold only
  split
  · rename_i e he
    rw [he] at hkey ⊢
    have h1 : e.1 = key := hkey e List.mem_cons_self
    constructor
    · intro h
      rw [← Option.some.inj h, ← h1]
    · intro h
      rw [(List.cons.inj h).1]
  · rename_i hne
    constructor
    · intro h
      cases h
    · intro h
      exact absurd h (hne _)

theorem only_congr (h : (at_ key entries).Perm (at_ key entries')) :
    only key entries = only key entries' := by
  ext value
  rw [only_eq_some_iff, only_eq_some_iff]
  constructor
  · intro he
    exact List.perm_singleton.mp (he ▸ h.symm)
  · intro he
    exact List.perm_singleton.mp (he ▸ h)

theorem keys_keepLast {k : α} :
    k ∈ (keepLast entries).map Prod.fst ↔ k ∈ entries.map Prod.fst := by
  induction entries with
  | nil => rfl
  | cons e entries ih =>
    rw [keepLast]
    split
    · rename_i he
      rw [ih, List.map_cons, List.mem_cons]
      exact ⟨.inr, fun h => h.elim (fun h => h ▸ he) id⟩
    · rw [List.map_cons, List.map_cons, List.mem_cons, List.mem_cons, ih]

theorem keepLast_sublist (entries : List (α × β)) : (keepLast entries).Sublist entries := by
  induction entries with
  | nil => exact .slnil
  | cons e entries ih =>
    rw [keepLast]
    split
    · exact ih.cons e
    · exact ih.cons_cons e

theorem nodup_keepLast (entries : List (α × β)) : ((keepLast entries).map Prod.fst).Nodup := by
  induction entries with
  | nil => exact List.nodup_nil
  | cons e entries ih =>
    rw [keepLast]
    split
    · exact ih
    · rename_i he
      exact List.nodup_cons.mpr ⟨fun h => he (keys_keepLast.mp h), ih⟩

theorem keepLast_of_nodup (h : (entries.map Prod.fst).Nodup) : keepLast entries = entries := by
  induction entries with
  | nil => rfl
  | cons e entries ih =>
    obtain ⟨he, h⟩ := List.nodup_cons.mp h
    rw [keepLast, if_neg he, ih h]

theorem find_keepLast (key : α) (entries : List (α × β)) :
    (keepLast entries).find? (fun e => e.1 = key) = (at_ key entries).getLast? := by
  induction entries with
  | nil => rfl
  | cons e entries ih =>
    have hnone : key ∉ entries.map Prod.fst → at_ key entries = [] := fun h =>
      List.filter_eq_nil_iff.mpr fun f hf hk =>
        h (List.mem_map.mpr ⟨f, hf, by simpa using hk⟩)
    by_cases hk : e.1 = key
    · have hat : at_ key (e :: entries) = e :: at_ key entries :=
        List.filter_cons_of_pos (by simpa using hk)
      rw [hat, keepLast]
      split
      · rename_i he
        obtain ⟨f, hf, hfk⟩ := List.mem_map.mp he
        have hmem : f ∈ at_ key entries :=
          List.mem_filter.mpr ⟨hf, by simpa using hfk.trans hk⟩
        rw [ih, List.getLast?_cons, List.getLast?_eq_getLast_of_ne_nil (List.ne_nil_of_mem hmem)]
        rfl
      · rename_i he
        rw [hnone (hk ▸ he), List.find?_cons_of_pos (by simpa using hk)]
        rfl
    · have hat : at_ key (e :: entries) = at_ key entries :=
        List.filter_cons_of_neg (by simpa using hk)
      rw [hat, keepLast]
      split
      · exact ih
      · rw [List.find?_cons_of_neg (by simpa using hk), ih]

end Fields
