import Maxrs.Kit.History
set_option autoImplicit false

/-! Sequential programs as trees of calls to an environment, and a predicate transformer
over the calls made so far. The environment answers every call with any value of the
call's result type. -/

inductive Script (Op : Type) (Ret : Op → Type) (α : Type) where
  | done (a : α) : Script Op Ret α
  | call (op : Op) (next : Ret op → Script Op Ret α) : Script Op Ret α

namespace Script

variable {Op : Type} {Ret : Op → Type} {α β ε : Type}

def bind : Script Op Ret α → (α → Script Op Ret β) → Script Op Ret β
  | .done a, f => f a
  | .call op next, f => .call op fun r => (next r).bind f

instance : Monad (Script Op Ret) where
  pure := .done
  bind := bind

def perform (op : Op) : Script Op Ret (Ret op) := .call op .done

abbrev Trace (Ret : Op → Type) := List ((op : Op) × Ret op)

def next : Script Op Ret α → Option Op
  | .done _ => none
  | .call op _ => some op

/-- The calls made so far, with the one at which the program stands. -/
def ops (tr : Trace Ret) (q : Script Op Ret α) : List Op := tr.map Sigma.fst ++ q.next.toList

/-- `After p tr q`: when the calls of `p` have been answered as in `tr`, `q` is left. -/
inductive After (p : Script Op Ret α) : Trace Ret → Script Op Ret α → Prop where
  | start : After p [] p
  | answer {tr : Trace Ret} {op : Op} {next : Ret op → Script Op Ret α} (r : Ret op) :
      After p tr (.call op next) → After p (tr ++ [⟨op, r⟩]) (next r)

/-- Every call made from here on satisfies `pre` and every final result satisfies `post`,
both read against the trace at that moment. -/
def Always (pre : Trace Ret → Op → Prop) (post : Trace Ret → α → Prop) :
    Script Op Ret α → Trace Ret → Prop
  | .done a, tr => post tr a
  | .call op next, tr => pre tr op ∧ ∀ r, (next r).Always pre post (tr ++ [⟨op, r⟩])

variable {pre pre' : Trace Ret → Op → Prop} {post post' : Trace Ret → α → Prop}

@[simp] theorem always_done (a : α) (tr : Trace Ret) :
    (Script.done a).Always pre post tr ↔ post tr a := Iff.rfl

@[simp] theorem always_pure (a : α) (tr : Trace Ret) :
    (pure a : Script Op Ret α).Always pre post tr ↔ post tr a := Iff.rfl

@[simp] theorem always_call (op : Op) (next : Ret op → Script Op Ret α) (tr : Trace Ret) :
    (Script.call op next).Always pre post tr ↔
      pre tr op ∧ ∀ r, (next r).Always pre post (tr ++ [⟨op, r⟩]) := Iff.rfl

@[simp] theorem always_perform (op : Op) (tr : Trace Ret) {post : Trace Ret → Ret op → Prop} :
    (perform op).Always pre post tr ↔ pre tr op ∧ ∀ r, post (tr ++ [⟨op, r⟩]) r := Iff.rfl

/-- Sequencing: the first program has to end where the second may start. -/
theorem always_bind (p : Script Op Ret β) (f : β → Script Op Ret α) (tr : Trace Ret) :
    (p.bind f).Always pre post tr ↔
      p.Always pre (fun tr b => (f b).Always pre post tr) tr := by
  induction p generalizing tr with
  | done b => rfl
  | call op next ih => simp only [bind, always_call, ih]

@[simp] theorem always_monad_bind (p : Script Op Ret β) (f : β → Script Op Ret α)
    (tr : Trace Ret) :
    (p >>= f).Always pre post tr ↔
      p.Always pre (fun tr b => (f b).Always pre post tr) tr := always_bind p f tr

theorem Always.mono {p : Script Op Ret α} {tr : Trace Ret}
    (hpre : ∀ tr op, pre tr op → pre' tr op) (hpost : ∀ tr a, post tr a → post' tr a)
    (h : p.Always pre post tr) : p.Always pre' post' tr := by
  induction p generalizing tr with
  | done a => exact hpost tr a h
  | call op next ih => exact ⟨hpre tr op h.1, fun r => ih r (h.2 r)⟩

theorem Always.of_forall {p : Script Op Ret α} {tr : Trace Ret} (hpre : ∀ tr op, pre tr op)
    (hpost : ∀ tr a, post tr a) : p.Always pre post tr := by
  induction p generalizing tr with
  | done a => exact hpost tr a
  | call op next ih => exact ⟨hpre tr op, fun r => ih r⟩

theorem Always.anywhere {q : Op → Prop} {p : Script Op Ret α} {tr : Trace Ret}
    (h : p.Always (fun _ op => q op) (fun _ _ => True) tr) (tr' : Trace Ret) :
    p.Always (fun _ op => q op) (fun _ _ => True) tr' := by
  induction p generalizing tr tr' with
  | done a => trivial
  | call op next ih => exact ⟨h.1, fun r => ih r (h.2 r) _⟩

theorem After.first {op : Op} {next : Ret op → Script Op Ret α} (r : Ret op) :
    After (.call op next) [⟨op, r⟩] (next r) := by
  have h := After.answer r (.start : After (.call op next) [] (.call op next))
  exact h

theorem After.call_cases {op : Op} {next : Ret op → Script Op Ret α} {q : Script Op Ret α}
    {tr : Trace Ret} (h : After (.call op next) tr q) :
    (tr = [] ∧ q = .call op next) ∨
      ∃ r rest, tr = ⟨op, r⟩ :: rest ∧ After (next r) rest q := by
  induction h with
  | start => exact .inl ⟨rfl, rfl⟩
  | answer r h ih =>
    rcases ih with ⟨rfl, he⟩ | ⟨r₁, rest, rfl, hrest⟩
    · cases he
      exact .inr ⟨r, [], rfl, .start⟩
    · exact .inr ⟨r₁, _, List.cons_append, .answer r hrest⟩

theorem After.done_cases {a : α} {q : Script Op Ret α} {tr : Trace Ret}
    (h : After (.done a) tr q) : tr = [] ∧ q = .done a := by
  induction h with
  | start => exact ⟨rfl, rfl⟩
  | answer r h ih => cases ih.2

theorem After.split {p q : Script Op Ret α} {before after : Trace Ret} {op : Op} {r : Ret op}
    (h : After p (before ++ ⟨op, r⟩ :: after) q) : ∃ next, After p before (.call op next) := by
  induction after using List.reverseRecOn generalizing q with
  | nil =>
    generalize htr : before ++ [⟨op, r⟩] = tr at h
    cases h with
    | start => simp at htr
    | answer r' h =>
      obtain ⟨rfl, he⟩ := List.append_inj' htr rfl
      cases he
      exact ⟨_, h⟩
  | append_singleton after e ih =>
    rw [← List.cons_append, ← List.append_assoc] at h
    generalize htr : before ++ ⟨op, r⟩ :: after ++ [e] = tr at h
    cases h with
    | start => simp at htr
    | answer r' h =>
      obtain ⟨rfl, -⟩ := List.append_inj' htr rfl
      exact ih h

theorem After.bind_cases {p : Script Op Ret β} {f : β → Script Op Ret α} {q : Script Op Ret α}
    {tr : Trace Ret} (h : After (p.bind f) tr q) :
    (∃ p', After p tr p' ∧ q = p'.bind f) ∨
      ∃ b first rest, tr = first ++ rest ∧ After p first (.done b) ∧ After (f b) rest q := by
  induction p generalizing tr with
  | done b => exact .inr ⟨b, [], tr, rfl, .start, h⟩
  | call op next ih =>
    rcases h.call_cases with ⟨rfl, rfl⟩ | ⟨r, rest, rfl, hrest⟩
    · exact .inl ⟨_, .start, rfl⟩
    · have extend : ∀ {first : Trace Ret} {p' : Script Op Ret β}, After (next r) first p' →
          After (.call op next) (⟨op, r⟩ :: first) p' := by
        intro first p' hf
        induction hf with
        | start => exact .first r
        | answer r' _ ih => exact .answer r' ih
      rcases ih r hrest with ⟨p', hp', rfl⟩ | ⟨b, first, rest', rfl, hb, hf⟩
      · exact .inl ⟨p', extend hp', rfl⟩
      · exact .inr ⟨b, ⟨op, r⟩ :: first, rest', rfl, extend hb, hf⟩

/-- What is left of a program after some answers still keeps its promise. -/
theorem Always.after {p q : Script Op Ret α} {tr : Trace Ret}
    (h : p.Always pre post []) (ha : After p tr q) : q.Always pre post tr := by
  induction ha with
  | start => exact h
  | answer r _ ih => exact ih.2 r

/-- The calls made before any moment of a run, each justified by the calls before it. -/
theorem Always.justified {p q : Script Op Ret α} {tr : Trace Ret}
    (h : p.Always pre post []) (ha : After p tr q) :
    History.Justified (fun before e => pre before e.1) tr := by
  induction ha with
  | start => exact History.justified_nil
  | answer r ha ih => exact History.justified_snoc ih (h.after ha).1

theorem Always.head {p : Script Op Ret α} {tr : Trace Ret} {op : Op}
    {next : Ret op → Script Op Ret α} (h : p.Always pre post [])
    (ha : After p tr (.call op next)) : pre tr op := (h.after ha).1

/-- The call `op` has been made, or is under way, after the calls in `before`. -/
def Made (tr : Trace Ret) (q : Script Op Ret α) (before : Trace Ret) (op : Op) : Prop :=
  (∃ r after, tr = before ++ ⟨op, r⟩ :: after) ∨ (before = tr ∧ q.next = some op)

theorem made_of_mem {tr : Trace Ret} {q : Script Op Ret α} {op : Op} (h : op ∈ ops tr q) :
    ∃ before, before <+: tr ∧ Made tr q before op := by
  rcases List.mem_append.mp h with h | h
  · obtain ⟨e, he, rfl⟩ := List.mem_map.mp h
    obtain ⟨before, after, rfl⟩ := List.append_of_mem he
    exact ⟨before, List.prefix_append _ _, .inl ⟨e.2, after, rfl⟩⟩
  · exact ⟨tr, List.prefix_rfl, .inr ⟨rfl, by simpa using h⟩⟩

theorem Always.made {p q : Script Op Ret α} {tr before : Trace Ret} {op : Op}
    (h : p.Always pre post []) (ha : After p tr q) (hm : Made tr q before op) : pre before op := by
  rcases hm with ⟨r, after, hl⟩ | ⟨rfl, hq⟩
  · exact h.justified ha before _ after hl
  · cases q with
    | done a => cases hq
    | call op' next' =>
      cases hq
      exact h.head ha

theorem Always.ops_last {p q : Script Op Ret α} {tr : Trace Ret}
    (h : p.Always pre post []) (ha : After p tr q) :
    ops tr q = [] ∨ ∃ before op, ops tr q = before.map Sigma.fst ++ [op] ∧ before <+: tr ∧
      pre before op := by
  cases q with
  | call op next' => exact .inr ⟨tr, op, rfl, List.prefix_rfl, h.head ha⟩
  | done a =>
    generalize hq : (Script.done a : Script Op Ret α) = q at ha
    cases ha with
    | start =>
      subst hq
      exact .inl rfl
    | @answer tr' op next' r ha =>
      refine .inr ⟨tr', op, ?_, List.prefix_append _ _, h.head ha⟩
      simp [ops, ← hq, next]

theorem Always.result {p : Script Op Ret α} {tr : Trace Ret} {a : α}
    (h : p.Always pre post []) (ha : After p tr (.done a)) : post tr a := h.after ha

/-- `P` holds of every call that the program can come to, with what follows it. -/
def ForCalls (P : (op : Op) → (Ret op → Script Op Ret α) → Prop) : Script Op Ret α → Prop
  | .done _ => True
  | .call op next => P op next ∧ ∀ r, (next r).ForCalls P

theorem ForCalls.after {P : (op : Op) → (Ret op → Script Op Ret α) → Prop}
    {p q : Script Op Ret α} {tr : Trace Ret} (h : p.ForCalls P) (ha : After p tr q) :
    q.ForCalls P := by
  induction ha with
  | start => exact h
  | answer r _ ih => exact ih.2 r

/-- The `?` operator: a failure ends the program. -/
def orFail (p : Script Op Ret (Except ε α)) (f : α → Script Op Ret (Except ε β)) :
    Script Op Ret (Except ε β) :=
  p.bind fun
    | .ok a => f a
    | .error e => .done (.error e)

theorem After.orFail_cases {p : Script Op Ret (Except ε α)} {f : α → Script Op Ret (Except ε β)}
    {q : Script Op Ret (Except ε β)} {tr : Trace Ret} (h : After (p.orFail f) tr q) :
    (∃ p', After p tr p' ∧ q = p'.orFail f) ∨
    (∃ e, After p tr (.done (.error e)) ∧ q = .done (.error e)) ∨
    ∃ a first rest, tr = first ++ rest ∧ After p first (.done (.ok a)) ∧ After (f a) rest q := by
  rcases h.bind_cases with h | ⟨r, first, rest, rfl, hp, hq⟩
  · exact .inl h
  · cases r with
    | ok a => exact .inr (.inr ⟨a, first, rest, rfl, hp, hq⟩)
    | error e =>
      obtain ⟨rfl, rfl⟩ := hq.done_cases
      exact .inr (.inl ⟨e, by rw [List.append_nil]; exact hp, rfl⟩)

theorem always_orFail {post : Trace Ret → Except ε β → Prop}
    (p : Script Op Ret (Except ε α)) (f : α → Script Op Ret (Except ε β)) (tr : Trace Ret) :
    (p.orFail f).Always pre post tr ↔
      p.Always pre (fun tr r => match r with
        | .ok a => (f a).Always pre post tr
        | .error e => post tr (.error e)) tr := by
  rw [orFail, always_bind]
  constructor
  · refine Always.mono (fun _ _ h => h) fun tr r h => ?_
    cases r <;> exact h
  · refine Always.mono (fun _ _ h => h) fun tr r h => ?_
    cases r <;> exact h

/-- The rule for `?`: what holds between the two programs. -/
theorem Always.orFail {mid : Trace Ret → Except ε α → Prop} {post : Trace Ret → Except ε β → Prop}
    {p : Script Op Ret (Except ε α)} {f : α → Script Op Ret (Except ε β)} {tr : Trace Ret}
    (h : p.Always pre mid tr) (hok : ∀ tr a, mid tr (.ok a) → (f a).Always pre post tr)
    (herr : ∀ tr e, mid tr (.error e) → post tr (.error e)) :
    (p.orFail f).Always pre post tr := by
  refine (always_orFail p f tr).mpr (h.mono (fun _ _ h => h) fun tr r hr => ?_)
  cases r with
  | ok a => exact hok tr a hr
  | error e => exact herr tr e hr

theorem Always.bind {mid : Trace Ret → β → Prop} {p : Script Op Ret β}
    {f : β → Script Op Ret α} {tr : Trace Ret} (h : p.Always pre mid tr)
    (hf : ∀ tr b, mid tr b → (f b).Always pre post tr) : (p.bind f).Always pre post tr :=
  (always_bind p f tr).mpr (h.mono (fun _ _ h => h) hf)

end Script
