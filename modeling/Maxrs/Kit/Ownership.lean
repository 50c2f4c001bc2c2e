import Mathlib.Data.Set.Card
import Mathlib.Logic.Function.Basic
set_option autoImplicit false

/-! Tasks that each look after at most one item at a time. -/

namespace Ownership

variable {τ ι κ σ : Type} {owns owns' : τ → Option ι} {status status' : ι → Option σ}
  {kept live : σ → Prop} {moves : σ → σ → Prop}

/-- No more tasks have an item than there are items, when each item has at most one owner. -/
theorem owners_le_items {items : Finset ι} (hmem : ∀ p a, owns p = some a → a ∈ items)
    (hunique : ∀ p q a, owns p = some a → owns q = some a → p = q) :
    {p | (owns p).isSome}.encard ≤ items.card := by
  have hmaps : Set.MapsTo owns {p | (owns p).isSome} (some '' (items : Set ι)) := by
    intro p hp
    obtain ⟨a, ha⟩ := Option.isSome_iff_exists.mp hp
    exact ⟨a, hmem p a ha, ha.symm⟩
  have hinj : Set.InjOn owns {p | (owns p).isSome} := by
    intro p hp q _ he
    obtain ⟨a, ha⟩ := Option.isSome_iff_exists.mp hp
    exact hunique p q a ha (he ▸ ha)
  calc {p | (owns p).isSome}.encard
      ≤ (some '' (items : Set ι)).encard := Set.encard_le_encard_of_injOn hmaps hinj
    _ = (items : Set ι).encard := (Option.some_injective ι).encard_image _
    _ = items.card := Set.encard_coe_eq_coe_finsetCard items

/-- An item has at most one owner, it is there as long as it has one, and a live one has one. -/
structure Inv (owns : τ → Option ι) (status : ι → Option σ) (kept live : σ → Prop) : Prop where
  known : ∀ p a, owns p = some a → ∃ s, status a = some s ∧ kept s
  unique : ∀ p q a, owns p = some a → owns q = some a → p = q
  owner : ∀ a s, status a = some s → live s → ∃ p, owns p = some a

/-- What one task can do in one step, with the items it owns before and after; `moves` is how it
may change the one it works on. -/
inductive Turn (before after : Option ι) (status status' : ι → Option σ) (kept live : σ → Prop)
    (moves : σ → σ → Prop) : Prop where
  | quiet : after = before → (∀ a, status' a = status a) →
      Turn before after status status' kept live moves
  | start (a : ι) (s : σ) : before = none → after = some a → status a = none →
      status' a = some s → kept s → (∀ b, b ≠ a → status' b = status b) →
      Turn before after status status' kept live moves
  | work (a : ι) (s t : σ) : before = some a → after = some a → status a = some s →
      status' a = some t → moves s t → kept t → (∀ b, b ≠ a → status' b = status b) →
      Turn before after status status' kept live moves
  | leave (a : ι) (s t : σ) : before = some a → after = none → status a = some s →
      status' a = some t → t = s ∨ moves s t → ¬ live t →
      (∀ b, b ≠ a → status' b = status b) → Turn before after status status' kept live moves

theorem Turn.map {before after : Option κ} {mine mine' : κ → Option σ}
    (h : Turn before after mine mine' kept live moves) (f : κ → ι)
    (hf : ∀ k, status (f k) = mine k) (hf' : ∀ k, status' (f k) = mine' k)
    (hother : ∀ a, (∀ k, f k ≠ a) → status' a = status a) :
    Turn (before.map f) (after.map f) status status' kept live moves := by
  have rest : ∀ {k}, (∀ j, j ≠ k → mine' j = mine j) → ∀ a, a ≠ f k → status' a = status a := by
    intro k hk a ha
    by_cases hmine : ∃ j, f j = a
    · obtain ⟨j, rfl⟩ := hmine
      rw [hf, hf', hk j fun hj => ha (hj ▸ rfl)]
    · exact hother a fun j hj => hmine ⟨j, hj⟩
  cases h with
  | quiet he hs =>
    refine .quiet (by rw [he]) fun a => ?_
    by_cases hmine : ∃ j, f j = a
    · obtain ⟨j, rfl⟩ := hmine
      rw [hf, hf', hs j]
    · exact hother a fun j hj => hmine ⟨j, hj⟩
  | start k s hb ha hn hs hk ho =>
    exact .start (f k) s (by rw [hb]; rfl) (by rw [ha]; rfl) ((hf k).trans hn) ((hf' k).trans hs)
      hk (rest ho)
  | work k s t hb ha hs ht hm hk ho =>
    exact .work (f k) s t (by rw [hb]; rfl) (by rw [ha]; rfl) ((hf k).trans hs)
      ((hf' k).trans ht) hm hk (rest ho)
  | leave k s t hb ha hs ht hm hd ho =>
    exact .leave (f k) s t (by rw [hb]; rfl) (by rw [ha]; rfl) ((hf k).trans hs)
      ((hf' k).trans ht) hm hd (rest ho)

variable {me : τ}

theorem Turn.other {p : τ} {a : ι} (h : Turn (owns me) (owns' me) status status' kept live moves)
    (hi : Inv owns status kept live) (hp : p ≠ me) (ha : owns p = some a) :
    status' a = status a := by
  obtain ⟨s, hs, -⟩ := hi.known p a ha
  cases h with
  | quiet _ hq => exact hq a
  | start b _ _ _ hn _ _ hb =>
    refine hb a ?_
    rintro rfl
    cases hn.symm.trans hs
  | work b _ _ hb _ _ _ _ _ ho | leave b _ _ hb _ _ _ _ _ ho =>
    refine ho a ?_
    rintro rfl
    exact hp (hi.unique p me a ha hb)

theorem Inv.turn (hi : Inv owns status kept live)
    (h : Turn (owns me) (owns' me) status status' kept live moves)
    (hother : ∀ p, p ≠ me → owns' p = owns p) : Inv owns' status' kept live := by
  have old : ∀ {p a}, p ≠ me → owns' p = some a → owns p = some a ∧ status' a = status a :=
    fun hp ha => ⟨hother _ hp ▸ ha, h.other hi hp (hother _ hp ▸ ha)⟩
  have mine : ∀ {a}, owns' me = some a → ∃ s, status' a = some s ∧ kept s := by
    intro a ha
    cases h with
    | quiet ho hs =>
      rw [hs a]
      exact hi.known me a (ho ▸ ha)
    | start b s _ hb _ hs hk _ | work b _ s _ hb _ hs _ hk _ =>
      cases ha.symm.trans hb
      exact ⟨s, hs, hk⟩
    | leave b _ _ _ hb _ _ _ _ _ => cases ha.symm.trans hb
  -- an item that the task has now is not anybody else's
  have apart : ∀ {p a}, p ≠ me → owns' p = some a → owns' me ≠ some a := by
    intro p a hp ha hm
    obtain ⟨hpa, -⟩ := old hp ha
    cases h with
    | quiet ho _ => exact hp (hi.unique p me a hpa (ho ▸ hm))
    | start b s _ hb hn _ _ _ =>
      cases hm.symm.trans hb
      obtain ⟨s', hs', -⟩ := hi.known p a hpa
      cases hn.symm.trans hs'
    | work b _ _ hb hb' _ _ _ _ _ =>
      cases hm.symm.trans hb'
      exact hp (hi.unique p me a hpa hb)
    | leave b _ _ _ hb _ _ _ _ _ => cases hm.symm.trans hb
  refine ⟨fun p a ha => ?_, fun p q a hp hq => ?_, fun a s hs hl => ?_⟩
  · by_cases hp : p = me
    · exact mine (hp ▸ ha)
    · obtain ⟨ho, he⟩ := old hp ha
      rw [he]
      exact hi.known p a ho
  · by_cases hpm : p = me
    · by_contra hne
      exact apart (fun hqm => hne (hpm.trans hqm.symm)) hq (hpm ▸ hp)
    · by_cases hqm : q = me
      · exact absurd (hqm ▸ hq) (apart hpm hp)
      · exact hi.unique p q a (old hpm hp).1 (old hqm hq).1
  · have before : status' a = status a → ∃ p, owns p = some a := fun he =>
      hi.owner a s (he ▸ hs) hl
    have keep : ∀ {p}, p ≠ me → owns p = some a → ∃ p, owns' p = some a := fun hp ha =>
      ⟨_, (hother _ hp).trans ha⟩
    cases h with
    | quiet ho hq =>
      obtain ⟨p, hp⟩ := before (hq a)
      by_cases hpm : p = me
      · exact ⟨me, ho.trans (hpm ▸ hp)⟩
      · exact keep hpm hp
    | start b s' hn hb _ _ _ hq =>
      by_cases hab : a = b
      · exact ⟨me, hab ▸ hb⟩
      · obtain ⟨p, hp⟩ := before (hq a hab)
        refine keep (fun hpm => ?_) hp
        cases (hpm ▸ hp).symm.trans hn
    | work b _ _ hb hb' _ _ _ _ hq =>
      by_cases hab : a = b
      · exact ⟨me, hab ▸ hb'⟩
      · obtain ⟨p, hp⟩ := before (hq a hab)
        refine keep (fun hpm => ?_) hp
        exact hab (Option.some.inj ((hpm ▸ hp).symm.trans hb))
    | leave b _ t hb hb' _ ht _ hdead hq =>
      by_cases hab : a = b
      · cases ht.symm.trans (hab ▸ hs)
        exact absurd hl hdead
      · obtain ⟨p, hp⟩ := before (hq a hab)
        refine keep (fun hpm => ?_) hp
        exact hab (Option.some.inj ((hpm ▸ hp).symm.trans hb))

end Ownership
