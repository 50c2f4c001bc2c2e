import Mathlib.Data.List.Induction
import Mathlib.Tactic.Ring
set_option autoImplicit false

/-! Append-only logs in which every entry is justified by the entries before it. -/

namespace History

variable {α : Type} {J K : List α → α → Prop} {l : List α}

/-- Every entry `e` of `l` satisfies `J` of the entries before it. -/
def Justified (J : List α → α → Prop) (l : List α) : Prop :=
  ∀ before e after, l = before ++ e :: after → J before e

theorem split_snoc {before after : List α} {a e : α} (h : l ++ [e] = before ++ a :: after) :
    (∃ mid, after = mid ++ [e] ∧ l = before ++ a :: mid) ∨ (after = [] ∧ a = e ∧ before = l) := by
  rcases List.eq_nil_or_concat after with rfl | ⟨mid, last, rfl⟩
  · obtain ⟨hb, he⟩ := List.append_inj' h rfl
    cases he
    exact .inr ⟨rfl, rfl, hb.symm⟩
  · have hl : l ++ [e] = (before ++ a :: mid) ++ [last] := by simpa using h
    obtain ⟨hb, he⟩ := List.append_inj' hl rfl
    cases he
    exact .inl ⟨mid, List.concat_eq_append, hb⟩

theorem justified_nil : Justified J [] := by
  intro before e after h
  simp at h

theorem justified_snoc {e : α} (h : Justified J l) (he : J l e) : Justified J (l ++ [e]) := by
  intro before d after hl
  rcases split_snoc hl with ⟨mid, -, hb⟩ | ⟨-, rfl, rfl⟩
  · exact h before d mid hb
  · exact he

theorem Justified.pairwise {R : α → α → Prop}
    (h : Justified (fun before e => ∀ d ∈ before, R d e) l) : l.Pairwise R := by
  induction l using List.reverseRecOn with
  | nil => exact .nil
  | append_singleton l e ih =>
    have hl : Justified (fun before e => ∀ d ∈ before, R d e) l := fun before d after hd =>
      h before d (after ++ [e]) (by simp [hd])
    have he := h l e [] rfl
    simpa [List.pairwise_append, ih hl] using he

theorem Justified.mono (h : Justified J l) (hjk : ∀ b e, J b e → K b e) : Justified K l :=
  fun before e after hl => hjk _ _ (h before e after hl)

theorem Justified.split {e : α} (h : Justified J l) (he : e ∈ l) :
    ∃ before after, l = before ++ e :: after ∧ J before e := by
  obtain ⟨before, after, hl⟩ := List.append_of_mem he
  exact ⟨before, after, hl, h before e after hl⟩

end History
