import Maxrs.AttachmentRegistry
import Maxrs.Kit.History
import Maxrs.Kit.Observe
set_option autoImplicit false

/-! `attachment_registry.rs` with its `Arc`s at the addresses that the allocator picks, and with
`complete` split where it lets go of the lock. -/
namespace Maxrs

/-- Where an `Arc<()>` has its allocation. -/
abbrev Addr := Nat

abbrev CompleteId := Nat

/-- The sender of `completion` has its receiver in the waiter of that number. -/
structure ArcRegistration where
  identity : Addr
  completion : WaiterId

structure ArcWaiter where
  fileId : Int
  identity : Addr

inductive Channel where
  | empty
  | sent
  /-- The sender was dropped without a send. -/
  | closed
  deriving DecidableEq

structure ArcRegistry where
  waiters : Int → Option ArcRegistration
  /-- The waiters that are alive. -/
  owned : WaiterId → Option ArcWaiter
  /-- What a call of `complete` took out of the map and has not yet sent to. -/
  completing : CompleteId → Option (Int × ArcRegistration)
  channels : WaiterId → Channel
  registered : Nat
  /-- How many `Arc`s there are of the allocation at an address. -/
  arcs : Addr → Nat

inductive ArcAction where
  /-- `Arc::new` returns the address, which is one without an `Arc`. -/
  | register (fileId : Int) (identity : Addr)
  | complete (c : CompleteId) (fileId : Int)
  | send (c : CompleteId)
  /-- `wait` is polled, finds its channel ready and ends. -/
  | ready (n : WaiterId)
  /-- The waiter is dropped, or `wait` with the waiter in it. -/
  | drop (n : WaiterId)

namespace ArcRegistry

def new : ArcRegistry where
  waiters := fun _ => none
  owned := fun _ => none
  completing := fun _ => none
  channels := fun _ => .empty
  registered := 0
  arcs := fun _ => 0

/-- A duplicate leaves no trace: its channel and its `Arc` go again. -/
def register (r : ArcRegistry) (fileId : Int) (identity : Addr) : ArcRegistry × Option WaiterId :=
  match r.waiters fileId with
  | some _ => (r, none)
  | none =>
    ({ r with
        waiters := Function.update r.waiters fileId (some ⟨identity, r.registered⟩)
        owned := Function.update r.owned r.registered (some ⟨fileId, identity⟩)
        registered := r.registered + 1
        arcs := Function.update r.arcs identity 2 },
      some r.registered)

/-- `remove` under the lock. -/
def take (r : ArcRegistry) (c : CompleteId) (fileId : Int) : ArcRegistry :=
  match r.waiters fileId with
  | some registration => { r with
      waiters := Function.update r.waiters fileId none
      completing := Function.update r.completing c (some (fileId, registration)) }
  | none => r

/-- `Drop for AttachmentWaiter`, and then the drop of its fields; `Arc::ptr_eq` compares
addresses. -/
def release (r : ArcRegistry) (n : WaiterId) (w : ArcWaiter) : ArcRegistry :=
  let r : ArcRegistry :=
    match r.waiters w.fileId with
    | some registration =>
      if registration.identity = w.identity then
        { r with
          waiters := Function.update r.waiters w.fileId none
          channels := Function.update r.channels registration.completion .closed
          arcs := Function.update r.arcs registration.identity
            (r.arcs registration.identity - 1) }
      else r
    | none => r
  { r with
    owned := Function.update r.owned n none
    arcs := Function.update r.arcs w.identity (r.arcs w.identity - 1) }

def step (r : ArcRegistry) : ArcAction → Option ArcRegistry
  | .register fileId identity =>
    if r.arcs identity = 0 then some (r.register fileId identity).1 else none
  | .complete c fileId =>
    match r.completing c with
    | none => some (r.take c fileId)
    | some _ => none
  | .send c =>
    (r.completing c).map fun entry =>
      { r with
        completing := Function.update r.completing c none
        channels := Function.update r.channels entry.2.completion .sent
        arcs := Function.update r.arcs entry.2.identity (r.arcs entry.2.identity - 1) }
  | .ready n => if r.channels n = .empty then none else (r.owned n).map (r.release n)
  | .drop n => (r.owned n).map (r.release n)

def automaton : Automaton ArcRegistry ArcAction where
  init := fun r => r = new
  step := step

end ArcRegistry

inductive ArcEvent where
  | registered (n : WaiterId) (fileId : Int)
  | completed (fileId : Int)
  | dropped (n : WaiterId)

namespace ArcRegistry

def event (r : ArcRegistry) (a : ArcAction) (_ : ArcRegistry) : List ArcEvent :=
  match a with
  | .register fileId identity =>
    (r.register fileId identity).2.toList.map fun n => .registered n fileId
  | .complete _ fileId => [.completed fileId]
  | .send _ => []
  | .ready n | .drop n => [.dropped n]

def history (acts : List ArcAction) : List ArcEvent := automaton.observe event new acts

end ArcRegistry

/-- Waiter `n` was registered for the file, and since then neither completed nor dropped. -/
def Outstanding (log : List ArcEvent) (n : WaiterId) (fileId : Int) : Prop :=
  ∃ before after, log = before ++ .registered n fileId :: after ∧
    .completed fileId ∉ after ∧ .dropped n ∉ after

/-- `complete` was called for the file after waiter `n` was registered for it. -/
def Completed (log : List ArcEvent) (n : WaiterId) (fileId : Int) : Prop :=
  ∃ before after, log = before ++ .registered n fileId :: after ∧ .completed fileId ∈ after

section history

variable {log : List ArcEvent} {e : ArcEvent} {n : WaiterId} {fileId : Int}

theorem outstanding_snoc : Outstanding (log ++ [e]) n fileId ↔
    e = .registered n fileId ∨
      (Outstanding log n fileId ∧ e ≠ .completed fileId ∧ e ≠ .dropped n) := by
  constructor
  · rintro ⟨before, after, hl, hc, hd⟩
    rcases History.split_snoc hl with ⟨mid, rfl, hl'⟩ | ⟨-, he, -⟩
    · simp only [List.mem_append, List.mem_singleton, not_or] at hc hd
      exact .inr ⟨⟨before, mid, hl', hc.1, hd.1⟩, Ne.symm hc.2, Ne.symm hd.2⟩
    · exact .inl he.symm
  · rintro (rfl | ⟨⟨before, after, hl, hc, hd⟩, hne, hne'⟩)
    · exact ⟨log, [], rfl, by simp, by simp⟩
    · refine ⟨before, after ++ [e], by simp [hl], ?_, ?_⟩
      · simpa [hc] using Ne.symm hne
      · simpa [hd] using Ne.symm hne'

theorem completed_snoc : Completed (log ++ [e]) n fileId ↔
    Completed log n fileId ∨ (e = .completed fileId ∧ .registered n fileId ∈ log) := by
  constructor
  · rintro ⟨before, after, hl, hc⟩
    rcases History.split_snoc hl with ⟨mid, rfl, hl'⟩ | ⟨rfl, -, -⟩
    · rcases List.mem_append.mp hc with hc | hc
      · exact .inl ⟨before, mid, hl', hc⟩
      · exact .inr ⟨(List.mem_singleton.mp hc).symm, by simp [hl']⟩
    · cases hc
  · rintro (⟨before, after, hl, hc⟩ | ⟨rfl, hm⟩)
    · exact ⟨before, after ++ [e], by simp [hl], by simp [hc]⟩
    · obtain ⟨before, after, hl⟩ := List.append_of_mem hm
      exact ⟨before, after ++ [.completed fileId], by simp [hl], by simp⟩

theorem Outstanding.mem (h : Outstanding log n fileId) : .registered n fileId ∈ log := by
  obtain ⟨before, after, hl, -⟩ := h
  simp [hl]

theorem Completed.mem (h : Completed log n fileId) : .registered n fileId ∈ log := by
  obtain ⟨before, after, hl, -⟩ := h
  simp [hl]

end history

namespace ArcRegistry

def Holds (r : ArcRegistry) (n : WaiterId) (a : Addr) : Prop :=
  (∃ fileId, r.owned n = some ⟨fileId, a⟩) ∨ ∃ c fileId, r.completing c = some (fileId, ⟨a, n⟩)

structure Inv (r : ArcRegistry) : Prop where
  fresh : ∀ n, r.registered ≤ n → r.channels n = .empty
  entry : ∀ f e, r.waiters f = some e → r.owned e.completion = some ⟨f, e.identity⟩ ∧
    r.channels e.completion = .empty ∧ r.arcs e.identity = 2
  taken : ∀ c f e, r.completing c = some (f, e) → e.completion < r.registered ∧
    (∀ w, r.owned e.completion = some w → w = ⟨f, e.identity⟩) ∧
    r.arcs e.identity = (if (r.owned e.completion).isSome then 2 else 1) ∧
    ∀ g d, r.waiters g = some d → d.completion ≠ e.completion
  takenOnce : ∀ c d x y, r.completing c = some x → r.completing d = some y →
    x.2.completion = y.2.completion → c = d
  held : ∀ n w, r.owned n = some w → n < r.registered ∧
    (r.waiters w.fileId = some ⟨w.identity, n⟩ ∨
      (∃ c, r.completing c = some (w.fileId, ⟨w.identity, n⟩)) ∨
      (r.channels n = .sent ∧ r.arcs w.identity = 1))
  /-- The `Arc`s that are left at one address are of one allocation. -/
  ptrEq : ∀ n m a, r.Holds n a → r.Holds m a → n = m

variable {r r' : ArcRegistry} {n m : WaiterId} {w : ArcWaiter}

theorem Holds.of_owned (h : r.owned n = some w) : r.Holds n w.identity := .inl ⟨w.fileId, h⟩

theorem Holds.of_completing {c : CompleteId} {f : Int} {e : ArcRegistration}
    (h : r.completing c = some (f, e)) : r.Holds e.completion e.identity := .inr ⟨c, f, h⟩

theorem Inv.holds_entry (hi : r.Inv) {f : Int} {e : ArcRegistration}
    (h : r.waiters f = some e) : r.Holds e.completion e.identity :=
  .of_owned (hi.entry f e h).1

theorem Inv.arcs_pos (hi : r.Inv) {a : Addr} (h : r.Holds n a) : 0 < r.arcs a := by
  rcases h with ⟨f, hf⟩ | ⟨c, f, hc⟩
  · rcases (hi.held n _ hf).2 with he | ⟨c, hc⟩ | ⟨-, h1⟩
    · rw [(hi.entry _ _ he).2.2]
      decide
    · rw [(hi.taken c _ _ hc).2.2.1]
      split <;> decide
    · rw [h1]
      decide
  · rw [(hi.taken c _ _ hc).2.2.1]
    split <;> decide

theorem Inv.holds_lt (hi : r.Inv) {a : Addr} (h : r.Holds n a) : n < r.registered := by
  rcases h with ⟨f, hf⟩ | ⟨c, f, hc⟩
  · exact (hi.held n _ hf).1
  · exact (hi.taken c _ _ hc).1

/-- `Drop for AttachmentWaiter` takes out the waiter's own entry or none. -/
theorem Inv.release_cases (hi : r.Inv) (hw : r.owned n = some w) :
    (r.waiters w.fileId = some ⟨w.identity, n⟩ ∧ r.release n w =
      { r with
        waiters := Function.update r.waiters w.fileId none
        channels := Function.update r.channels n .closed
        owned := Function.update r.owned n none
        arcs := Function.update r.arcs w.identity 0 }) ∨
    ((∀ g a, r.waiters g ≠ some ⟨a, n⟩) ∧ r.release n w =
      { r with
        owned := Function.update r.owned n none
        arcs := Function.update r.arcs w.identity (r.arcs w.identity - 1) }) := by
  have hown : ∀ g a, r.waiters g = some ⟨a, n⟩ → g = w.fileId ∧ a = w.identity := by
    intro g a hg
    have he := (hi.entry g _ hg).1
    rw [hw] at he
    cases he
    exact ⟨rfl, rfl⟩
  cases he : r.waiters w.fileId with
  | none =>
    refine .inr ⟨fun g a hg => ?_, by simp [release, he]⟩
    rw [(hown g a hg).1, he] at hg
    cases hg
  | some e =>
    by_cases hid : e.identity = w.identity
    · have hn : e.completion = n :=
        hi.ptrEq _ _ w.identity (hid ▸ hi.holds_entry he) (.of_owned hw)
      have harcs := (hi.entry _ e he).2.2
      obtain ⟨identity, completion⟩ := e
      cases hid
      cases hn
      refine .inl ⟨rfl, ?_⟩
      simp only [release, he, if_true]
      simp [harcs]
    · refine .inr ⟨fun g a hg => ?_, by simp [release, he, hid]⟩
      obtain ⟨rfl, rfl⟩ := hown g a hg
      cases he.symm.trans hg
      exact hid rfl

theorem inv_new : new.Inv :=
  ⟨fun n h => rfl, fun f e h => (by cases h), fun c f e h => (by cases h),
    fun c d x y h => (by cases h),
    fun n w h => (by cases h), fun n m a h => (by rcases h with ⟨f, h⟩ | ⟨c, f, h⟩ <;> cases h)⟩

theorem Inv.register (hi : r.Inv) {fileId : Int} {a : Addr} (ha : r.arcs a = 0) :
    (r.register fileId a).1.Inv := by
  unfold ArcRegistry.register
  split
  · exact hi
  · rename_i hnone
    have hfree : ∀ {m b}, r.Holds m b → b ≠ a := by
      rintro m b hm rfl
      have hpos := hi.arcs_pos hm
      omega
    have hne : ∀ {m b}, r.Holds m b → m ≠ r.registered := fun hm => Nat.ne_of_lt (hi.holds_lt hm)
    -- the new waiter is the only new holder
    have hholds : ∀ m b, ArcRegistry.Holds { r with
          waiters := Function.update r.waiters fileId (some ⟨a, r.registered⟩)
          owned := Function.update r.owned r.registered (some ⟨fileId, a⟩)
          registered := r.registered + 1
          arcs := Function.update r.arcs a 2 } m b → (m = r.registered ∧ b = a) ∨ r.Holds m b := by
      rintro m b (⟨f, hf⟩ | ⟨c, f, hc⟩)
      · by_cases hm : m = r.registered
        · subst hm
          simp only [Function.update_self, Option.some.injEq, ArcWaiter.mk.injEq] at hf
          exact .inl ⟨rfl, hf.2.symm⟩
        · simp only [Function.update_of_ne hm] at hf
          exact .inr (.inl ⟨f, hf⟩)
      · exact .inr (.inr ⟨c, f, hc⟩)
    refine ⟨fun m hm => hi.fresh m (Nat.le_of_succ_le hm), fun f e he => ?_, fun c f e hc => ?_,
      hi.takenOnce, fun m w hw => ?_, fun m k b hm hk => ?_⟩
    · by_cases hf : f = fileId
      · subst hf
        simp only [Function.update_self, Option.some.injEq] at he
        subst he
        exact ⟨by simp, hi.fresh _ (Nat.le_refl _), by simp⟩
      · simp only [Function.update_of_ne hf] at he
        have hold := hi.holds_entry he
        simp only [Function.update_of_ne (hne hold), Function.update_of_ne (hfree hold)]
        exact hi.entry f e he
    · have hold : r.Holds e.completion e.identity := .of_completing hc
      obtain ⟨hlt, howner, harcs, hapart⟩ := hi.taken c f e hc
      simp only [Function.update_of_ne (hne hold), Function.update_of_ne (hfree hold)]
      refine ⟨Nat.lt_succ_of_lt hlt, howner, harcs, fun g d hd => ?_⟩
      by_cases hg : g = fileId
      · subst hg
        simp only [Function.update_self, Option.some.injEq] at hd
        subst hd
        exact (Nat.ne_of_lt hlt).symm
      · simp only [Function.update_of_ne hg] at hd
        exact hapart g d hd
    · by_cases hm : m = r.registered
      · subst hm
        simp only [Function.update_self, Option.some.injEq] at hw
        subst hw
        exact ⟨Nat.lt_succ_self _, .inl (by simp)⟩
      · simp only [Function.update_of_ne hm] at hw
        have hold := Holds.of_owned hw
        obtain ⟨hlt, hwhere⟩ := hi.held m w hw
        refine ⟨Nat.lt_succ_of_lt hlt, ?_⟩
        simp only [Function.update_of_ne (hfree hold)]
        refine hwhere.imp_left fun he => ?_
        rw [Function.update_of_ne, he]
        rintro rfl
        rw [hnone] at he
        cases he
    · rcases hholds m b hm with ⟨rfl, rfl⟩ | hm'
      · rcases hholds k b hk with ⟨rfl, -⟩ | hk'
        · rfl
        · exact absurd rfl (hfree hk')
      · rcases hholds k b hk with ⟨-, rfl⟩ | hk'
        · exact absurd rfl (hfree hm')
        · exact hi.ptrEq m k b hm' hk'

theorem Inv.take (hi : r.Inv) {c : CompleteId} (hc : r.completing c = none) (fileId : Int) :
    (r.take c fileId).Inv := by
  unfold ArcRegistry.take
  split
  · rename_i e he
    obtain ⟨howned, hempty, harcs⟩ := hi.entry fileId e he
    have hother : ∀ {d f k}, Function.update r.completing c (some (fileId, e)) d = some (f, k) →
        (d = c ∧ f = fileId ∧ k = e) ∨ r.completing d = some (f, k) := by
      intro d f k hd
      by_cases hdc : d = c
      · subst hdc
        simp only [Function.update_self, Option.some.injEq, Prod.mk.injEq] at hd
        exact .inl ⟨rfl, hd.1.symm, hd.2.symm⟩
      · rw [Function.update_of_ne hdc] at hd
        exact .inr hd
    have hmap : ∀ {g d}, Function.update r.waiters fileId none g = some d →
        g ≠ fileId ∧ r.waiters g = some d := by
      intro g d hg
      by_cases hgf : g = fileId
      · rw [hgf, Function.update_self] at hg
        cases hg
      · rw [Function.update_of_ne hgf] at hg
        exact ⟨hgf, hg⟩
    have hholds : ∀ {m a}, ArcRegistry.Holds { r with
        waiters := Function.update r.waiters fileId none
        completing := Function.update r.completing c (some (fileId, e)) } m a → r.Holds m a := by
      rintro m a (⟨f, hf⟩ | ⟨d, f, hd⟩)
      · exact .inl ⟨f, hf⟩
      · rcases hother hd with ⟨-, rfl, rfl⟩ | hd
        · exact .inl ⟨_, howned⟩
        · exact .inr ⟨d, f, hd⟩
    refine ⟨hi.fresh, fun f d hd => hi.entry f d (hmap hd).2, fun d f k hd => ?_,
      fun d d' x y hd hd' hxy => ?_, fun m w hw => ?_,
      fun m k b hm hk => hi.ptrEq m k b (hholds hm) (hholds hk)⟩
    · rcases hother hd with ⟨rfl, rfl, rfl⟩ | hd
      · refine ⟨(hi.held _ _ howned).1, fun w hw => Option.some.inj (hw.symm.trans howned), ?_,
          fun g d hg => ?_⟩
        · simp only [howned, Option.isSome_some, if_true]
          exact harcs
        · obtain ⟨hgf, hg⟩ := hmap hg
          intro hcompletion
          have hown := (hi.entry g d hg).1
          rw [hcompletion, howned] at hown
          exact hgf (congrArg ArcWaiter.fileId (Option.some.inj hown)).symm
      · obtain ⟨hlt, howner, hcount, hapart⟩ := hi.taken d f k hd
        exact ⟨hlt, howner, hcount, fun g b hg => hapart g b (hmap hg).2⟩
    · obtain ⟨f, x⟩ := x
      obtain ⟨f', y⟩ := y
      rcases hother hd with ⟨rfl, rfl, rfl⟩ | hold
      · rcases hother hd' with ⟨rfl, -, -⟩ | hold'
        · rfl
        · exact absurd hxy ((hi.taken d' f' y hold').2.2.2 _ _ he)
      · rcases hother hd' with ⟨rfl, rfl, rfl⟩ | hold'
        · exact absurd hxy.symm ((hi.taken d f x hold).2.2.2 _ _ he)
        · exact hi.takenOnce d d' _ _ hold hold' hxy
    · obtain ⟨hlt, hwhere⟩ := hi.held m w hw
      refine ⟨hlt, ?_⟩
      rcases hwhere with hentry | ⟨d, hd⟩ | hsent
      · by_cases hf : w.fileId = fileId
        · rw [hf, he] at hentry
          refine .inr (.inl ⟨c, ?_⟩)
          rw [hf, ← Option.some.inj hentry]
          exact Function.update_self ..
        · refine .inl ?_
          rw [← hentry]
          exact Function.update_of_ne hf _ _
      · refine .inr (.inl ⟨d, ?_⟩)
        rw [← hd]
        refine Function.update_of_ne ?_ _ _
        rintro rfl
        rw [hc] at hd
        cases hd
      · exact .inr (.inr hsent)
  · exact hi

theorem Inv.address_ne (hi : r.Inv) {a b : Addr} (hn : r.Holds n a) (hm : r.Holds m b)
    (hne : n ≠ m) : a ≠ b := by
  rintro rfl
  exact hne (hi.ptrEq n m a hn hm)

theorem Inv.send (hi : r.Inv) {c : CompleteId} (h : r.step (.send c) = some r') : r'.Inv := by
  obtain ⟨⟨f, e⟩, hc, rfl⟩ := Option.map_eq_some_iff.mp h
  obtain ⟨hlt, howner, harcs, hapart⟩ := hi.taken c f e hc
  have htaken : r.Holds e.completion e.identity := .of_completing hc
  have hother : ∀ {d x}, Function.update r.completing c none d = some x →
      d ≠ c ∧ r.completing d = some x := by
    intro d x hd
    by_cases hdc : d = c
    · rw [hdc, Function.update_self] at hd
      cases hd
    · rw [Function.update_of_ne hdc] at hd
      exact ⟨hdc, hd⟩
  have hholds : ∀ {m a}, ArcRegistry.Holds { r with
      completing := Function.update r.completing c none
      channels := Function.update r.channels e.completion .sent
      arcs := Function.update r.arcs e.identity (r.arcs e.identity - 1) } m a → r.Holds m a := by
    rintro m a (⟨f, hf⟩ | ⟨d, f, hd⟩)
    · exact .inl ⟨f, hf⟩
    · exact .inr ⟨d, f, (hother hd).2⟩
  refine ⟨fun m hm => ?_, fun g d hg => ?_, fun d g k hd => ?_, fun d d' x y hd hd' =>
    hi.takenOnce d d' x y (hother hd).2 (hother hd').2, fun m w hw => ?_,
    fun m k b hm hk => hi.ptrEq m k b (hholds hm) (hholds hk)⟩
  · have hne : m ≠ e.completion := by
      rintro rfl
      exact Nat.lt_irrefl _ (Nat.lt_of_lt_of_le hlt hm)
    simp only [Function.update_of_ne hne]
    exact hi.fresh m hm
  · have hne := hapart g d hg
    simp only [Function.update_of_ne hne,
      Function.update_of_ne (hi.address_ne (hi.holds_entry hg) htaken hne)]
    exact hi.entry g d hg
  · obtain ⟨hdc, hd⟩ := hother hd
    have hne : k.completion ≠ e.completion := fun he => hdc (hi.takenOnce d c _ _ hd hc he)
    simp only [Function.update_of_ne (hi.address_ne (.of_completing hd) htaken hne)]
    exact hi.taken d g k hd
  · obtain ⟨hm, hwhere⟩ := hi.held m w hw
    refine ⟨hm, ?_⟩
    by_cases hme : m = e.completion
    · subst hme
      have howned : r.owned e.completion = some w := hw
      rw [howner w hw] at howned ⊢
      rw [howned] at harcs
      refine .inr (.inr ⟨Function.update_self .., ?_⟩)
      simp only [Function.update_self, harcs]
      rfl
    · simp only [Function.update_of_ne hme,
        Function.update_of_ne (hi.address_ne (.of_owned hw) htaken hme)]
      rcases hwhere with hentry | ⟨d, hd⟩ | hsent
      · exact .inl hentry
      · refine .inr (.inl ⟨d, ?_⟩)
        rw [Function.update_of_ne, hd]
        rintro rfl
        cases hc.symm.trans hd
        exact hme rfl
      · exact .inr (.inr hsent)

theorem Inv.release (hi : r.Inv) (hw : r.owned n = some w) : (r.release n w).Inv := by
  have hself : r.Holds n w.identity := .of_owned hw
  have hlt := (hi.held n w hw).1
  have hother : ∀ {m v}, Function.update r.owned n none m = some v →
      m ≠ n ∧ r.owned m = some v := by
    intro m v hm
    by_cases hmn : m = n
    · rw [hmn, Function.update_self] at hm
      cases hm
    · rw [Function.update_of_ne hmn] at hm
      exact ⟨hmn, hm⟩
  have hholds : ∀ {x : ArcRegistry} {m a}, x.Holds m a →
      x.owned = Function.update r.owned n none → x.completing = r.completing → r.Holds m a := by
    rintro x m a (⟨f, hf⟩ | ⟨d, f, hd⟩) hxo hxc
    · rw [hxo] at hf
      exact .inl ⟨f, (hother hf).2⟩
    · rw [hxc] at hd
      exact .inr ⟨d, f, hd⟩
  rcases hi.release_cases hw with ⟨hentry, he⟩ | ⟨hnone, he⟩
  · rw [he]
    have hmap : ∀ {g d}, Function.update r.waiters w.fileId none g = some d →
        d.completion ≠ n ∧ r.waiters g = some d := by
      intro g d hg
      by_cases hgf : g = w.fileId
      · rw [hgf, Function.update_self] at hg
        cases hg
      · rw [Function.update_of_ne hgf] at hg
        refine ⟨fun hdn => ?_, hg⟩
        have hown := (hi.entry g d hg).1
        rw [hdn, hw] at hown
        cases hown
        exact hgf rfl
    refine ⟨fun m hm => ?_, fun g d hg => ?_, fun c f e hc => ?_, hi.takenOnce, fun m v hv => ?_,
      fun m k b hm hk => hi.ptrEq m k b (hholds hm rfl rfl) (hholds hk rfl rfl)⟩
    · have hne : m ≠ n := fun hmn => Nat.lt_irrefl _ (Nat.lt_of_lt_of_le hlt (hmn ▸ hm))
      simp only [Function.update_of_ne hne]
      exact hi.fresh m hm
    · obtain ⟨hne, hg⟩ := hmap hg
      simp only [Function.update_of_ne hne,
        Function.update_of_ne (hi.address_ne (hi.holds_entry hg) hself hne)]
      exact hi.entry g d hg
    · obtain ⟨hec, howner, harcs, hapart⟩ := hi.taken c f e hc
      have hne : e.completion ≠ n := fun hen => hapart _ _ hentry hen.symm
      simp only [Function.update_of_ne hne,
        Function.update_of_ne (hi.address_ne (.of_completing hc) hself hne)]
      exact ⟨hec, howner, harcs, fun g d hg => hapart g d (hmap hg).2⟩
    · obtain ⟨hne, hv⟩ := hother hv
      obtain ⟨hm, hwhere⟩ := hi.held m v hv
      simp only [Function.update_of_ne hne,
        Function.update_of_ne (hi.address_ne (.of_owned hv) hself hne)]
      refine ⟨hm, hwhere.imp_left fun hold => ?_⟩
      rw [Function.update_of_ne, hold]
      intro hf
      rw [hf, hentry] at hold
      exact hne (congrArg ArcRegistration.completion (Option.some.inj hold)).symm
  · rw [he]
    refine ⟨hi.fresh, fun g d hg => ?_, fun c f e hc => ?_, hi.takenOnce, fun m v hv => ?_,
      fun m k b hm hk => hi.ptrEq m k b (hholds hm rfl rfl) (hholds hk rfl rfl)⟩
    · have hne : d.completion ≠ n := by
        rintro rfl
        exact hnone g d.identity hg
      simp only [Function.update_of_ne hne,
        Function.update_of_ne (hi.address_ne (hi.holds_entry hg) hself hne)]
      exact hi.entry g d hg
    · obtain ⟨hec, howner, harcs, hapart⟩ := hi.taken c f e hc
      by_cases hne : e.completion = n
      · subst hne
        have hwe := howner w hw
        rw [hw] at harcs
        refine ⟨hec, fun v hv => ?_, ?_, hapart⟩
        · simp at hv
        · rw [hwe]
          simp [harcs]
      · simp only [Function.update_of_ne hne,
          Function.update_of_ne (hi.address_ne (.of_completing hc) hself hne)]
        exact ⟨hec, howner, harcs, hapart⟩
    · obtain ⟨hne, hv⟩ := hother hv
      simp only [Function.update_of_ne (hi.address_ne (.of_owned hv) hself hne)]
      exact hi.held m v hv

theorem inv_step {a : ArcAction} (h : r.step a = some r') (hi : r.Inv) : r'.Inv := by
  cases a with
  | register fileId identity =>
    simp only [step, Option.ite_none_right_eq_some] at h
    obtain ⟨ha, h⟩ := h
    cases h
    exact hi.register ha
  | complete c fileId =>
    simp only [step] at h
    split at h <;> cases h
    exact hi.take (by assumption) fileId
  | send c => exact hi.send h
  | ready n =>
    simp only [step] at h
    split at h
    · cases h
    · obtain ⟨w, hw, rfl⟩ := Option.map_eq_some_iff.mp h
      exact hi.release hw
  | drop n =>
    obtain ⟨w, hw, rfl⟩ := Option.map_eq_some_iff.mp h
    exact hi.release hw

theorem inv_of_reachable (h : automaton.Reachable r) : r.Inv :=
  h.invariant (fun _ hs => hs ▸ inv_new) fun _ _ _ hst hi => inv_step hst hi

structure Recorded (r : ArcRegistry) (log : List ArcEvent) : Prop where
  fresh : ∀ n f, .registered n f ∈ log → n < r.registered
  known : ∀ n w, r.owned n = some w → .registered n w.fileId ∈ log
  file : ∀ n f w, .registered n f ∈ log → r.owned n = some w → w.fileId = f
  outstanding : ∀ n f, Outstanding log n f ↔ ∃ a, r.waiters f = some ⟨a, n⟩
  taken : ∀ c f e, r.completing c = some (f, e) → Completed log e.completion f
  answered : ∀ n w, r.owned n = some w → r.channels n ≠ .empty → Completed log n w.fileId
  apart : ∀ n f, Completed log n f → ∀ g a, r.waiters g ≠ some ⟨a, n⟩

variable {log : List ArcEvent}

theorem Recorded.not_registered (h : r.Recorded log) (f : Int) :
    .registered r.registered f ∉ log := fun hm => Nat.lt_irrefl _ (h.fresh _ f hm)

theorem recorded_new : new.Recorded [] :=
  ⟨fun n f h => (by cases h), fun n w h => (by cases h), fun n f w h => (by cases h),
    fun n f => ⟨fun h => (by cases h.mem), fun ⟨a, h⟩ => (by cases h)⟩,
    fun c f e h => (by cases h), fun n w h => (by cases h), fun n f h => (by cases h.mem)⟩

theorem Recorded.register (hi : r.Inv) (h : r.Recorded log) {fileId : Int} {a : Addr}
    (hn : r.waiters fileId = none) :
    (r.register fileId a).1.Recorded (log ++ [.registered r.registered fileId]) := by
  have he : (r.register fileId a).1 = { r with
      waiters := Function.update r.waiters fileId (some ⟨a, r.registered⟩)
      owned := Function.update r.owned r.registered (some ⟨fileId, a⟩)
      registered := r.registered + 1
      arcs := Function.update r.arcs a 2 } := by
    simp only [ArcRegistry.register, hn]
  rw [he]
  have hcompleted : ∀ {n f}, Completed (log ++ [.registered r.registered fileId]) n f →
      Completed log n f := by
    intro n f hc
    rcases completed_snoc.mp hc with hc | ⟨hc, -⟩
    · exact hc
    · cases hc
  refine ⟨fun n f hm => ?_, fun n w hw => ?_, fun n f w hm hw => ?_, fun n f => ?_,
    fun c f e hc => ?_, fun n w hw hch => ?_, fun n f hc g b hg => ?_⟩
  · rcases List.mem_append.mp hm with hm | hm
    · exact Nat.lt_succ_of_lt (h.fresh n f hm)
    · cases List.mem_singleton.mp hm
      exact Nat.lt_succ_self _
  · by_cases hnr : n = r.registered
    · subst hnr
      simp only [Function.update_self, Option.some.injEq] at hw
      subst hw
      simp
    · simp only [Function.update_of_ne hnr] at hw
      exact List.mem_append_left _ (h.known n w hw)
  · rcases List.mem_append.mp hm with hm | hm
    · simp only [Function.update_of_ne (Nat.ne_of_lt (h.fresh n f hm))] at hw
      exact h.file n f w hm hw
    · cases List.mem_singleton.mp hm
      simp only [Function.update_self, Option.some.injEq] at hw
      rw [← hw]
  · rw [outstanding_snoc, h.outstanding]
    by_cases hf : f = fileId
    · subst hf
      simp only [Function.update_self, hn, Option.some.injEq, ArcRegistration.mk.injEq,
        ArcEvent.registered.injEq, and_true]
      constructor
      · rintro (rfl | ⟨⟨b, hb⟩, -⟩)
        · exact ⟨a, rfl, rfl⟩
        · cases hb
      · rintro ⟨b, -, hb⟩
        exact .inl hb
    · have hne : ArcEvent.registered r.registered fileId ≠ .registered n f := by
        simp [Ne.symm hf]
      simp [Function.update_of_ne hf, hne]
  · exact completed_snoc.mpr (.inl (h.taken c f e hc))
  · have hnr : n ≠ r.registered := by
      rintro rfl
      exact hch (hi.fresh _ (Nat.le_refl _))
    simp only [Function.update_of_ne hnr] at hw
    exact completed_snoc.mpr (.inl (h.answered n w hw hch))
  · by_cases hgf : g = fileId
    · subst hgf
      simp only [Function.update_self, Option.some.injEq, ArcRegistration.mk.injEq] at hg
      exact h.not_registered f (hg.2 ▸ (hcompleted hc).mem)
    · simp only [Function.update_of_ne hgf] at hg
      exact h.apart n f (hcompleted hc) g b hg

theorem take_waiters (r : ArcRegistry) (c : CompleteId) (f g : Int) :
    (r.take c f).waiters g = if g = f then none else r.waiters g := by
  unfold take
  split
  · by_cases hg : g = f <;> simp [hg]
  · rename_i hn
    by_cases hg : g = f
    · simp [hg, hn]
    · simp [hg]

theorem take_rest (r : ArcRegistry) (c : CompleteId) (f : Int) :
    (r.take c f).owned = r.owned ∧ (r.take c f).channels = r.channels ∧
      (r.take c f).registered = r.registered := by
  unfold take
  split <;> exact ⟨rfl, rfl, rfl⟩

theorem Recorded.take (hi : r.Inv) (h : r.Recorded log) (c : CompleteId) (fileId : Int) :
    (r.take c fileId).Recorded (log ++ [.completed fileId]) := by
  obtain ⟨howned, hchannels, hregistered⟩ := r.take_rest c fileId
  have hm : ∀ {n f}, .registered n f ∈ log ++ [.completed fileId] → .registered n f ∈ log := by
    intro n f hm
    simpa using hm
  refine ⟨fun n f hn => ?_, fun n w hw => ?_, fun n f w hn hw => ?_, fun n f => ?_,
    fun d f e hd => ?_, fun n w hw hch => ?_, fun n f hc g b hg => ?_⟩
  · rw [hregistered]
    exact h.fresh n f (hm hn)
  · rw [howned] at hw
    exact List.mem_append_left _ (h.known n w hw)
  · rw [howned] at hw
    exact h.file n f w (hm hn) hw
  · rw [outstanding_snoc, h.outstanding, take_waiters]
    by_cases hf : f = fileId
    · simp [hf]
    · simp [hf, Ne.symm hf]
  · unfold ArcRegistry.take at hd
    split at hd
    · rename_i k hk
      by_cases hdc : d = c
      · subst hdc
        simp only [Function.update_self, Option.some.injEq, Prod.mk.injEq] at hd
        obtain ⟨rfl, rfl⟩ := hd
        exact completed_snoc.mpr (.inr ⟨rfl, h.known _ _ (hi.entry _ _ hk).1⟩)
      · simp only [Function.update_of_ne hdc] at hd
        exact completed_snoc.mpr (.inl (h.taken d f e hd))
    · exact completed_snoc.mpr (.inl (h.taken d f e hd))
  · rw [howned] at hw
    rw [hchannels] at hch
    exact completed_snoc.mpr (.inl (h.answered n w hw hch))
  · rw [take_waiters] at hg
    split at hg
    · cases hg
    · rename_i hgf
      rcases completed_snoc.mp hc with hc | ⟨he, hreg⟩
      · exact h.apart n f hc g b hg
      · cases he
        exact hgf (h.file n fileId _ hreg (hi.entry g _ hg).1)

theorem Recorded.send (hi : r.Inv) (h : r.Recorded log) {c : CompleteId}
    (hs : r.step (.send c) = some r') : r'.Recorded log := by
  obtain ⟨⟨f, e⟩, hc, rfl⟩ := Option.map_eq_some_iff.mp hs
  refine ⟨h.fresh, h.known, h.file, h.outstanding, fun d g k hd => ?_, fun n w hw hch => ?_,
    h.apart⟩
  · by_cases hdc : d = c
    · simp [hdc] at hd
    · simp only [Function.update_of_ne hdc] at hd
      exact h.taken d g k hd
  · by_cases hne : n = e.completion
    · subst hne
      rw [(hi.taken c f e hc).2.1 w hw]
      exact h.taken c f e hc
    · simp only [Function.update_of_ne hne] at hch
      exact h.answered n w hw hch

theorem Inv.release_waiters (hi : r.Inv) (hw : r.owned n = some w) (g : Int) (a : Addr)
    (m : WaiterId) : (r.release n w).waiters g = some ⟨a, m⟩ ↔
      r.waiters g = some ⟨a, m⟩ ∧ m ≠ n := by
  rcases hi.release_cases hw with ⟨hentry, he⟩ | ⟨hnone, he⟩
  · rw [he]
    by_cases hg : g = w.fileId
    · subst hg
      simp only [Function.update_self, hentry, Option.some.injEq, ArcRegistration.mk.injEq]
      constructor
      · intro h
        cases h
      · rintro ⟨⟨-, rfl⟩, hne⟩
        exact absurd rfl hne
    · simp only [Function.update_of_ne hg]
      refine ⟨fun h => ⟨h, ?_⟩, fun h => h.1⟩
      rintro rfl
      have hown := (hi.entry g _ h).1
      rw [hw] at hown
      exact hg (congrArg ArcWaiter.fileId (Option.some.inj hown)).symm
  · rw [he]
    refine ⟨fun h => ⟨h, ?_⟩, fun h => h.1⟩
    rintro rfl
    exact hnone g a h

theorem Inv.release_rest (hi : r.Inv) (hw : r.owned n = some w) :
    (r.release n w).owned = Function.update r.owned n none ∧
      (r.release n w).completing = r.completing ∧ (r.release n w).registered = r.registered ∧
      ∀ m, m ≠ n → (r.release n w).channels m = r.channels m := by
  rcases hi.release_cases hw with ⟨-, he⟩ | ⟨-, he⟩
  · rw [he]
    exact ⟨rfl, rfl, rfl, fun m hm => Function.update_of_ne hm _ _⟩
  · rw [he]
    exact ⟨rfl, rfl, rfl, fun m _ => rfl⟩

theorem Recorded.release (hi : r.Inv) (h : r.Recorded log) (hw : r.owned n = some w) :
    (r.release n w).Recorded (log ++ [.dropped n]) := by
  obtain ⟨howned, hcompleting, hregistered, hchannels⟩ := hi.release_rest hw
  have hm : ∀ {m f}, .registered m f ∈ log ++ [.dropped n] → .registered m f ∈ log := by
    intro m f hm
    simpa using hm
  have hother : ∀ {m v}, (r.release n w).owned m = some v → m ≠ n ∧ r.owned m = some v := by
    intro m v hv
    rw [howned] at hv
    by_cases hmn : m = n
    · simp [hmn] at hv
    · rw [Function.update_of_ne hmn] at hv
      exact ⟨hmn, hv⟩
  have hcompleted : ∀ {m f}, Completed (log ++ [.dropped n]) m f → Completed log m f := by
    intro m f hc
    rcases completed_snoc.mp hc with hc | ⟨he, -⟩
    · exact hc
    · cases he
  refine ⟨fun m f hn => ?_, fun m v hv => ?_, fun m f v hn hv => ?_, fun m f => ?_,
    fun d f e hd => ?_, fun m v hv hch => ?_, fun m f hc g b hg => ?_⟩
  · rw [hregistered]
    exact h.fresh m f (hm hn)
  · exact List.mem_append_left _ (h.known m v (hother hv).2)
  · exact h.file m f v (hm hn) (hother hv).2
  · rw [outstanding_snoc, h.outstanding]
    constructor
    · rintro (he | ⟨⟨a, ha⟩, -, hne⟩)
      · cases he
      · exact ⟨a, (hi.release_waiters hw f a m).mpr ⟨ha, fun hmn => hne (by rw [hmn])⟩⟩
    · rintro ⟨a, ha⟩
      obtain ⟨ha, hne⟩ := (hi.release_waiters hw f a m).mp ha
      exact .inr ⟨⟨a, ha⟩, by simp, by simpa using Ne.symm hne⟩
  · rw [hcompleting] at hd
    exact completed_snoc.mpr (.inl (h.taken d f e hd))
  · obtain ⟨hne, hv⟩ := hother hv
    rw [hchannels m hne] at hch
    exact completed_snoc.mpr (.inl (h.answered m v hv hch))
  · exact h.apart m f (hcompleted hc) g b ((hi.release_waiters hw g b m).mp hg).1

theorem recorded_step {a : ArcAction} (hi : r.Inv) (h : r.Recorded log)
    (hs : r.step a = some r') : r'.Recorded (log ++ r.event a r') := by
  cases a with
  | register fileId identity =>
    simp only [step, Option.ite_none_right_eq_some] at hs
    obtain ⟨-, hs⟩ := hs
    cases hs
    cases hn : r.waiters fileId with
    | none =>
      have hnumber : (r.register fileId identity).2 = some r.registered := by
        simp only [register, hn]
      simp only [event, hnumber, Option.toList_some, List.map_cons, List.map_nil]
      exact h.register hi hn
    | some e =>
      have hsame : r.register fileId identity = (r, none) := by simp only [register, hn]
      simp only [event, hsame, Option.toList_none, List.map_nil, List.append_nil]
      exact h
  | complete c fileId =>
    simp only [step] at hs
    split at hs <;> cases hs
    exact h.take hi c fileId
  | send c =>
    simp only [event, List.append_nil]
    exact h.send hi hs
  | ready n =>
    simp only [step] at hs
    split at hs
    · cases hs
    · obtain ⟨w, hw, rfl⟩ := Option.map_eq_some_iff.mp hs
      exact h.release hi hw
  | drop n =>
    obtain ⟨w, hw, rfl⟩ := Option.map_eq_some_iff.mp hs
    exact h.release hi hw

theorem recorded_of_exec {acts : List ArcAction} (h : automaton.exec new acts = some r) :
    r.Inv ∧ r.Recorded (history acts) := by
  have hinit : automaton.Reachable new := .init rfl
  refine ⟨inv_of_reachable (hinit.exec h), ?_⟩
  refine Automaton.exec_invariant (I := fun as t => t.Recorded (history as)) h recorded_new
    fun as a t u ht hs hrec => ?_
  rw [history, Automaton.observe_snoc ht hs]
  exact recorded_step (inv_of_reachable (hinit.exec ht)) hrec hs

theorem Recorded.not_outstanding (h : r.Recorded log) {f g : Int} (hc : Completed log n f) :
    ¬ Outstanding log n g := by
  intro ho
  obtain ⟨a, ha⟩ := (h.outstanding n g).mp ho
  exact h.apart n f hc g a ha

/-- Whatever is registered, completed and dropped in whatever order, with file ids and addresses
used again: the map has the outstanding waiters, a registration is refused exactly for a file that
has one, a wait ends only by a later completion of its file, which wakes no other waiter, and the
end of a waiter takes nobody else's registration away. -/
theorem registry_invariant {acts : List ArcAction} (h : automaton.exec new acts = some r) :
    (∀ f, (r.waiters f).isSome ↔ ∃! n, (r.owned n).isSome ∧ Outstanding (history acts) n f) ∧
    (∀ f a, ((r.register f a).2 = none ↔ (r.waiters f).isSome) ∧
      ((r.register f a).2 = none → (r.register f a).1 = r)) ∧
    (∀ n w, r.owned n = some w → r.channels n ≠ .empty →
      Completed (history acts) n w.fileId) ∧
    (∀ c f r', r.step (.complete c f) = some r' →
      (∀ g, g ≠ f → r'.waiters g = r.waiters g) ∧ r'.channels = r.channels) ∧
    (∀ c r', r.step (.send c) = some r' → r'.waiters = r.waiters ∧
      ∃ f e, r.completing c = some (f, e) ∧
        (∀ m, m ≠ e.completion → r'.channels m = r.channels m) ∧
        ∀ w, r.owned e.completion = some w → w.fileId = f) ∧
    (∀ n r', r.step (.drop n) = some r' ∨ r.step (.ready n) = some r' →
      ∀ g, r'.waiters g ≠ r.waiters g → Outstanding (history acts) n g ∧
        ∀ f, ¬ Completed (history acts) n f) := by
  obtain ⟨hi, hrec⟩ := recorded_of_exec h
  refine ⟨fun f => ⟨fun hf => ?_, ?_⟩, fun f a => ?_, hrec.answered, fun c f r' hs => ?_,
    fun c r' hs => ?_, fun n r' hs g hg => ?_⟩
  · obtain ⟨e, he⟩ := Option.isSome_iff_exists.mp hf
    refine ⟨e.completion, ⟨?_, (hrec.outstanding _ f).mpr ⟨e.identity, he⟩⟩, ?_⟩
    · rw [(hi.entry f e he).1]
      rfl
    · rintro m ⟨-, hm⟩
      obtain ⟨a, ha⟩ := (hrec.outstanding m f).mp hm
      exact (congrArg ArcRegistration.completion (Option.some.inj (he.symm.trans ha))).symm
  · rintro ⟨n, ⟨-, hn⟩, -⟩
    obtain ⟨a, ha⟩ := (hrec.outstanding n f).mp hn
    rw [ha]
    rfl
  · cases hn : r.waiters f with
    | none => simp [register, hn]
    | some e => simp [register, hn]
  · simp only [step] at hs
    split at hs <;> cases hs
    refine ⟨fun g hg => ?_, (r.take_rest c f).2.1⟩
    rw [take_waiters, if_neg hg]
  · obtain ⟨⟨f, e⟩, hc, rfl⟩ := Option.map_eq_some_iff.mp hs
    refine ⟨rfl, f, e, hc, fun m hm => Function.update_of_ne hm _ _, fun w hw => ?_⟩
    rw [(hi.taken c f e hc).2.1 w hw]
  · obtain ⟨w, hw, rfl⟩ : ∃ w, r.owned n = some w ∧ r' = r.release n w := by
      rcases hs with hs | hs
      · obtain ⟨w, hw, rfl⟩ := Option.map_eq_some_iff.mp hs
        exact ⟨w, hw, rfl⟩
      · simp only [step] at hs
        split at hs
        · cases hs
        · obtain ⟨w, hw, rfl⟩ := Option.map_eq_some_iff.mp hs
          exact ⟨w, hw, rfl⟩
    have hout : Outstanding (history acts) n g := by
      cases he : r.waiters g with
      | none =>
        cases he' : (r.release n w).waiters g with
        | none => exact absurd (he'.trans he.symm) hg
        | some e =>
          have hold := ((hi.release_waiters hw g e.identity e.completion).mp he').1
          cases he.symm.trans hold
      | some e =>
        by_cases hne : e.completion = n
        · exact (hrec.outstanding n g).mpr ⟨e.identity, hne ▸ he⟩
        · have hkept := (hi.release_waiters hw g e.identity e.completion).mpr ⟨he, hne⟩
          exact absurd (hkept.trans he.symm) hg
    exact ⟨hout, fun f hc => hrec.not_outstanding hc hout⟩

/-- A completed waiter goes while another one waits for the same file. -/
theorem registry_invariant_reused :
    ∃ r, automaton.exec new [.register 42 7, .complete 0 42, .register 42 8, .send 0, .drop 0,
        .register 43 7] = some r ∧ (r.waiters 42).isSome ∧
      ∃! n, (r.owned n).isSome ∧ Outstanding (history [.register 42 7, .complete 0 42,
        .register 42 8, .send 0, .drop 0, .register 43 7]) n 42 := by
  have hrun : automaton.exec new [.register 42 7, .complete 0 42, .register 42 8, .send 0, .drop 0,
      .register 43 7] = some ((automaton.exec new [.register 42 7, .complete 0 42,
        .register 42 8, .send 0, .drop 0, .register 43 7]).get rfl) := rfl
  exact ⟨_, hrun, rfl, ((registry_invariant hrun).1 42).mp rfl⟩

/-- The numbered registry that stands for this one: its identities are the numbers of the
waiters, and it completes a waiter as soon as the map lets go of it. -/
structure Refines (r : ArcRegistry) (s : AttachmentRegistry) : Prop where
  waiters : ∀ f, s.waiters f = (r.waiters f).map ArcRegistration.completion
  registered : s.registered = r.registered
  completed : ∀ n, s.completed n = true ↔
    r.channels n = .sent ∨ ∃ c f e, r.completing c = some (f, e) ∧ e.completion = n

def toNumbered (r : ArcRegistry) (s : AttachmentRegistry) : ArcAction → AttachmentRegistry
  | .register fileId _ => (s.register fileId).1
  | .complete _ fileId => s.complete fileId
  | .send _ => s
  | .ready n | .drop n =>
    match r.owned n with
    | some w => s.dropWaiter ⟨w.fileId, n⟩
    | none => s

theorem Refines.release {s : AttachmentRegistry} (hi : r.Inv) (h : r.Refines s)
    (hw : r.owned n = some w) : (r.release n w).Refines (s.dropWaiter ⟨w.fileId, n⟩) := by
  have hmine : s.waiters w.fileId = some n ↔ ∃ a, r.waiters w.fileId = some ⟨a, n⟩ := by
    rw [h.waiters, Option.map_eq_some_iff]
    exact ⟨fun ⟨e, he, hn⟩ => ⟨e.identity, by rw [he, ← hn]⟩, fun ⟨a, ha⟩ => ⟨_, ha, rfl⟩⟩
  rcases hi.release_cases hw with ⟨hentry, he⟩ | ⟨hnone, he⟩
  · rw [he]
    have hs : s.waiters w.fileId = some n := hmine.mpr ⟨_, hentry⟩
    refine ⟨fun f => ?_, ?_, fun m => ?_⟩
    · rw [AttachmentRegistry.dropWaiter_waiters]
      by_cases hf : f = w.fileId
      · subst hf
        simp [hs]
      · simp [hf, h.waiters]
    · rw [AttachmentRegistry.dropWaiter_registered]
      exact h.registered
    · rw [AttachmentRegistry.dropWaiter_completed, h.completed]
      by_cases hm : m = n
      · subst hm
        have hempty := (hi.entry _ _ hentry).2.1
        simp only at hempty
        simp [hempty]
      · simp [Function.update_of_ne hm]
  · rw [he]
    have hs : s.waiters w.fileId ≠ some n := fun hs => by
      obtain ⟨a, ha⟩ := hmine.mp hs
      exact hnone _ a ha
    rw [AttachmentRegistry.dropWaiter, if_neg hs]
    exact ⟨h.waiters, h.registered, h.completed⟩

theorem Refines.take {s : AttachmentRegistry} (h : r.Refines s) {c : CompleteId}
    (hc : r.completing c = none) (fileId : Int) :
    (r.take c fileId).Refines (s.complete fileId) := by
  refine ⟨fun f => ?_, ?_, fun m => ?_⟩
  · rw [AttachmentRegistry.complete_waiters, take_waiters, h.waiters]
    split <;> rfl
  · rw [AttachmentRegistry.complete_registered, (r.take_rest c fileId).2.2, h.registered]
  · rw [AttachmentRegistry.complete_completed, Bool.or_eq_true, decide_eq_true_eq, h.completed,
      (r.take_rest c fileId).2.1, h.waiters, or_assoc]
    refine or_congr_right ?_
    cases he : r.waiters fileId with
    | none => simp [ArcRegistry.take, he]
    | some e =>
      simp only [ArcRegistry.take, he, Option.map_some, Option.some.injEq]
      constructor
      · rintro (⟨d, f, k, hd, hk⟩ | hm)
        · refine ⟨d, f, k, ?_, hk⟩
          rw [Function.update_of_ne, hd]
          rintro rfl
          rw [hc] at hd
          cases hd
        · exact ⟨c, fileId, e, Function.update_self .., hm⟩
      · rintro ⟨d, f, k, hd, hk⟩
        by_cases hdc : d = c
        · subst hdc
          simp only [Function.update_self, Option.some.injEq, Prod.mk.injEq] at hd
          exact .inr (hd.2 ▸ hk)
        · rw [Function.update_of_ne hdc] at hd
          exact .inl ⟨d, f, k, hd, hk⟩

theorem Refines.send {s : AttachmentRegistry} (h : r.Refines s) {c : CompleteId}
    (hs : r.step (.send c) = some r') : r'.Refines s := by
  obtain ⟨⟨f, e⟩, hc, rfl⟩ := Option.map_eq_some_iff.mp hs
  refine ⟨h.waiters, h.registered, fun m => ?_⟩
  rw [h.completed]
  by_cases hm : m = e.completion
  · subst hm
    simp only [Function.update_self, true_or, iff_true]
    exact .inr ⟨c, f, e, hc, rfl⟩
  · simp only [Function.update_of_ne hm]
    refine or_congr_right ⟨?_, ?_⟩
    · rintro ⟨d, g, k, hd, hk⟩
      refine ⟨d, g, k, ?_, hk⟩
      rw [Function.update_of_ne, hd]
      rintro rfl
      cases hc.symm.trans hd
      exact hm hk.symm
    · rintro ⟨d, g, k, hd, hk⟩
      by_cases hdc : d = c
      · simp [hdc] at hd
      · rw [Function.update_of_ne hdc] at hd
        exact ⟨d, g, k, hd, hk⟩

/-- Comparing addresses does what comparing numbers does. -/
theorem refines_step {s : AttachmentRegistry} {a : ArcAction} (hi : r.Inv) (h : r.Refines s)
    (hs : r.step a = some r') : r'.Refines (r.toNumbered s a) := by
  cases a with
  | register fileId identity =>
    simp only [step, Option.ite_none_right_eq_some] at hs
    obtain ⟨-, hs⟩ := hs
    cases hs
    have hw := h.waiters fileId
    cases hn : r.waiters fileId with
    | none =>
      rw [hn] at hw
      simp only [toNumbered, AttachmentRegistry.register, hw, register, hn, Option.map_none]
      refine ⟨fun f => ?_, by simp [h.registered], h.completed⟩
      by_cases hf : f = fileId
      · simp [hf, h.registered]
      · simp [Function.update_of_ne hf, h.waiters]
    | some e =>
      rw [hn] at hw
      simp only [toNumbered, AttachmentRegistry.register, hw, register, hn, Option.map_some]
      exact h
  | complete c fileId =>
    simp only [step] at hs
    split at hs <;> cases hs
    exact h.take (by assumption) fileId
  | send c => exact h.send hs
  | ready n =>
    simp only [step] at hs
    split at hs
    · cases hs
    · obtain ⟨w, hw, rfl⟩ := Option.map_eq_some_iff.mp hs
      simp only [toNumbered, hw]
      exact h.release hi hw
  | drop n =>
    obtain ⟨w, hw, rfl⟩ := Option.map_eq_some_iff.mp hs
    simp only [toNumbered, hw]
    exact h.release hi hw

theorem refines_new : new.Refines .new :=
  ⟨fun _ => rfl, rfl, fun _ => by simp [new, AttachmentRegistry.new]⟩

def numberedRun : ArcRegistry → AttachmentRegistry → List ArcAction → AttachmentRegistry
  | _, s, [] => s
  | r, s, a :: acts =>
    match r.step a with
    | some r' => numberedRun r' (r.toNumbered s a) acts
    | none => s

/-- A run with addresses and the run of the numbered registry, with which the rest of the client
is modelled, end in states that correspond. -/
theorem refines_exec {s : AttachmentRegistry} {acts : List ArcAction} (hi : r.Inv)
    (h : r.Refines s) (hr : automaton.exec r acts = some r') :
    r'.Refines (numberedRun r s acts) := by
  induction acts generalizing r s with
  | nil =>
    cases hr
    exact h
  | cons a acts ih =>
    obtain ⟨t, ht, hr⟩ := Option.bind_eq_some_iff.mp hr
    have hstep : r.step a = some t := ht
    simp only [numberedRun, hstep]
    exact ih (inv_step hstep hi) (refines_step hi h hstep) hr

end ArcRegistry

end Maxrs
