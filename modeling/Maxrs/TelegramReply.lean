import Maxrs.Kit.Progress
import Maxrs.TelegramBacklog
set_option autoImplicit false

/-! `request_text` over everything that its bot receives: which update gives the text. -/
namespace Maxrs.Telegram

structure Inbox where
  chat : Chat
  /-- Oldest first, the updates of the backlog included. -/
  arrived : List BotUpdate
  /-- What the first `getUpdates` returned. -/
  snapshot : List BotUpdate
  /-- What the calls of the loop have returned. -/
  delivered : List BotUpdate

namespace Inbox

variable (display : DisplayText) (config : TelegramOperatorConfig) (phone : String)
  (before : Backlog)

def start : Inbox where
  chat := Chat.start config phone before
  arrived := before.updates
  snapshot := []
  delivered := []

/-- Ids are positive and increase. -/
def step (w : Inbox) : ChatAction → Option Inbox
  | .arrive update =>
    if (∀ v ∈ w.arrived, v.id < update.id) ∧ 0 < update.id then
      (w.chat.step display before (.arrive update)).map fun chat =>
        { w with chat := chat, arrived := w.arrived ++ [update] }
    else none
  | .answer =>
    (w.chat.step display before .answer).map fun chat =>
      match w.chat.client.pc with
      | .snapshot => { w with chat := chat, snapshot := chat.answered }
      | _ => { w with chat := chat, delivered := w.delivered ++ chat.answered }
  | .client a => (w.chat.step display before (.client a)).map fun chat => { w with chat := chat }

def automaton : Automaton Inbox ChatAction where
  init := fun w => w = start config phone before
  step := step display before

def fresh (w : Inbox) : List BotUpdate := w.arrived.drop w.snapshot.length

def firstText (updates : List BotUpdate) : Option String :=
  updates.findSome? (Chat.textOf config)

structure At (w : Inbox) (offset : Int) (front rest : List BotUpdate) : Prop where
  arrived : w.arrived = w.snapshot ++ front ++ rest
  reached : offset = 0 ∨ ∃ v ∈ w.arrived, offset = v.id + 1
  left : unconfirmed w.chat.pending (some offset) = rest

/-- Where the delivered updates stand at each place of `request_text`. -/
def Place (w : Inbox) : Prop :=
  match w.chat.client.pc with
  | .snapshot => w.chat.pending = w.arrived ∧ w.snapshot = [] ∧ w.delivered = []
  | .sending offset | .polling offset | .fetching offset =>
    ∃ rest, w.At offset w.delivered rest ∧ firstText config w.delivered = none
  | .scanning offset _ values => ∃ front us rest, values = us.map BotUpdate.value ∧
    w.delivered = front ++ us ∧ w.At offset front (us ++ rest) ∧ firstText config front = none
  | .assigned offset _ value values => ∃ front u us rest, value = u.value ∧
    values = us.map BotUpdate.value ∧ w.delivered = front ++ u :: us ∧
    w.At offset (front ++ [u]) (us ++ rest) ∧ firstText config front = none
  | .returned result => (∃ rest, w.arrived = w.snapshot ++ w.delivered ++ rest) ∧
    firstText config w.delivered = result.toOption
  | .overflowed => False
  | .panicked => ∃ rest, w.arrived = w.snapshot ++ w.delivered ++ rest

structure Inv (w : Inbox) : Prop where
  unchanged : w.chat.client.config = config
  sorted : w.arrived.Pairwise (·.id < ·.id)
  place : w.Place config

def Answering (_ : Inbox) : ChatAction → Prop
  | .answer | .client (.top _) | .client .next | .client .look => True
  | _ => False

def inLoop (client : RequestText) : Bool :=
  match client.pc with
  | .polling _ | .fetching _ | .scanning _ _ _ | .assigned _ _ _ _ => true
  | _ => false

/-- Decreases in a loop whose calls all return something. -/
def toGo (w : Inbox) : Nat :=
  5 * (w.arrived.length - w.snapshot.length - w.delivered.length) +
    match w.chat.client.pc with
    | .polling _ => 3
    | .fetching _ => 2
    | .scanning _ _ rest => 2 * rest.length + 4
    | .assigned _ _ _ rest => 2 * rest.length + 5
    | _ => 0

variable {display : DisplayText} {config : TelegramOperatorConfig} {phone : String}
  {before : Backlog} {w w' : Inbox} {offset : Int} {front rest : List BotUpdate}

theorem firstText_append (us vs : List BotUpdate) :
    firstText config (us ++ vs) = (firstText config us).or (firstText config vs) :=
  List.findSome?_append

theorem firstText_singleton (u : BotUpdate) : firstText config [u] = Chat.textOf config u := by
  cases h : Chat.textOf config u <;> simp [firstText, h]

theorem unconfirmed_unconfirmed (pending : List BotUpdate) {offset' : Int}
    (h : offset ≤ offset') :
    unconfirmed (unconfirmed pending (some offset)) (some offset') =
      unconfirmed pending (some offset') := by
  simp only [unconfirmed, List.filter_filter]
  refine List.filter_congr fun u _ => ?_
  simp only [Bool.and_eq_decide, decide_eq_true_eq, decide_eq_decide]
  omega

namespace At

theorem past (h : w.At offset front rest) : ∀ v ∈ rest, offset ≤ v.id := by
  intro v hv
  rw [← h.left, unconfirmed, List.mem_filter, decide_eq_true_eq] at hv
  exact hv.2

theorem of_eq (h : w.At offset front rest) (harrived : w'.arrived = w.arrived)
    (hsnapshot : w'.snapshot = w.snapshot) (hpending : w'.chat.pending = w.chat.pending) :
    w'.At offset front rest where
  arrived := by rw [harrived, hsnapshot, h.arrived]
  reached := by rw [harrived]; exact h.reached
  left := by rw [hpending, h.left]

theorem arrive (h : w.At offset front rest) {update : BotUpdate}
    (hnew : ∀ v ∈ w.arrived, v.id < update.id) (hpos : 0 < update.id)
    (harrived : w'.arrived = w.arrived ++ [update]) (hsnapshot : w'.snapshot = w.snapshot)
    (hpending : w'.chat.pending = w.chat.pending ++ [update]) :
    w'.At offset front (rest ++ [update]) where
  arrived := by rw [harrived, hsnapshot, h.arrived, List.append_assoc _ rest]
  reached := by
    rw [harrived]
    exact h.reached.imp id fun hv => hv.imp fun v hv => ⟨List.mem_append_left _ hv.1, hv.2⟩
  left := by
    have hle : offset ≤ update.id := by
      rcases h.reached with rfl | ⟨v, hv, rfl⟩
      · exact hpos.le
      · exact hnew v hv
    have hleft := h.left
    simp only [unconfirmed] at hleft
    simp [hpending, unconfirmed, hleft, hle]

theorem advance {u : BotUpdate} (h : w.At offset front (u :: rest))
    (hsorted : w.arrived.Pairwise (·.id < ·.id)) : w.At (u.id + 1) (front ++ [u]) rest where
  arrived := by rw [h.arrived, ← List.append_assoc w.snapshot, List.append_assoc _ [u]]; rfl
  reached := by
    refine .inr ⟨u, ?_, rfl⟩
    rw [h.arrived]
    exact List.mem_append_right _ List.mem_cons_self
  left := by
    have hle : offset ≤ u.id + 1 := by
      have hu := h.past u List.mem_cons_self
      omega
    have hrest := hsorted
    rw [h.arrived] at hrest
    have hcross := (List.pairwise_cons.mp (List.pairwise_append.mp hrest).2.1).1
    rw [← unconfirmed_unconfirmed _ hle, h.left]
    show unconfirmed ([u] ++ rest) _ = rest
    refine Chat.unconfirmed_append (fun v hv => ?_) hcross
    rw [List.mem_singleton.mp hv]
    exact Int.lt_succ u.id

end At

theorem place_arrive {update : BotUpdate} (hp : w.Place config)
    (hnew : ∀ v ∈ w.arrived, v.id < update.id) (hpos : 0 < update.id)
    (hpc : w'.chat.client.pc = w.chat.client.pc) (harrived : w'.arrived = w.arrived ++ [update])
    (hsnapshot : w'.snapshot = w.snapshot) (hdelivered : w'.delivered = w.delivered)
    (hpending : w'.chat.pending = w.chat.pending ++ [update]) : w'.Place config := by
  have later : ∀ {o f r}, w.At o f r → w'.At o f (r ++ [update]) := fun h =>
    h.arrive hnew hpos harrived hsnapshot hpending
  unfold Place at hp ⊢
  rw [hpc]
  cases h : w.chat.client.pc with
  | snapshot =>
    rw [h] at hp
    obtain ⟨hpend, hsnap, hdel⟩ := hp
    exact ⟨by rw [hpending, hpend, harrived], hsnapshot.trans hsnap, hdelivered.trans hdel⟩
  | sending o | polling o | fetching o =>
    rw [h] at hp
    obtain ⟨rest, hat, hnone⟩ := hp
    exact ⟨rest ++ [update], hdelivered ▸ later hat, hdelivered ▸ hnone⟩
  | scanning o scanned values =>
    rw [h] at hp
    obtain ⟨front, us, rest, hvalues, hdel, hat, hnone⟩ := hp
    exact ⟨front, us, rest ++ [update], hvalues, hdelivered.trans hdel,
      List.append_assoc us rest _ ▸ later hat, hnone⟩
  | assigned o scanned value values =>
    rw [h] at hp
    obtain ⟨front, u, us, rest, hvalue, hvalues, hdel, hat, hnone⟩ := hp
    exact ⟨front, u, us, rest ++ [update], hvalue, hvalues, hdelivered.trans hdel,
      List.append_assoc us rest _ ▸ later hat, hnone⟩
  | returned result =>
    rw [h] at hp
    obtain ⟨⟨rest, harr⟩, hfirst⟩ := hp
    refine ⟨⟨rest ++ [update], ?_⟩, hdelivered ▸ hfirst⟩
    rw [harrived, harr, hsnapshot, hdelivered, List.append_assoc _ rest]
  | overflowed =>
    rw [h] at hp
    exact hp
  | panicked =>
    rw [h] at hp
    obtain ⟨rest, harr⟩ := hp
    refine ⟨rest ++ [update], ?_⟩
    rw [harrived, harr, hsnapshot, hdelivered, List.append_assoc _ rest]

theorem place_snapshot (hp : w.Place config) (hsorted : w.arrived.Pairwise (·.id < ·.id))
    (hpc : w.chat.client.pc = .snapshot)
    (hclient : w'.chat.client.pc =
      RequestText.snapshotPc display (botReply (w.chat.pending.take DEFAULT_LIMIT)))
    (harrived : w'.arrived = w.arrived) (hdelivered : w'.delivered = w.delivered)
    (hsnapshot : w'.snapshot = w.chat.pending.take DEFAULT_LIMIT)
    (hpending : w'.chat.pending = w.chat.pending) : w'.Place config := by
  obtain ⟨hpend, -, hdel⟩ : w.chat.pending = w.arrived ∧ w.snapshot = [] ∧ w.delivered = [] := by
    simpa only [Place, hpc] using hp
  obtain ⟨o, hsnap, hpast, hoffset⟩ :=
    snapshotPc_botReply display (w.chat.pending.take DEFAULT_LIMIT)
  have hsplit : w.chat.pending.take DEFAULT_LIMIT ++ w.chat.pending.drop DEFAULT_LIMIT =
      w.chat.pending := List.take_append_drop _ _
  have hrest : ∀ v ∈ w.chat.pending.drop DEFAULT_LIMIT, o ≤ v.id := by
    intro v hv
    rcases hoffset with ⟨hnil, -⟩ | ⟨u, hu, rfl⟩
    · rcases List.take_eq_nil_iff.mp hnil with hzero | hempty
      · cases hzero
      · simp [hempty] at hv
    · have hpair := hsorted
      rw [← hpend, ← hsplit] at hpair
      exact (List.pairwise_append.mp hpair).2.2 u hu v hv
  have hat : w'.At o [] (w.chat.pending.drop DEFAULT_LIMIT) := by
    refine ⟨?_, ?_, ?_⟩
    · rw [harrived, ← hpend, hsnapshot, List.append_nil, hsplit]
    · rcases hoffset with ⟨-, rfl⟩ | ⟨u, hu, rfl⟩
      · exact .inl rfl
      · exact .inr ⟨u, by rw [harrived, ← hpend]; exact List.mem_of_mem_take hu, rfl⟩
    · have hleft := Chat.unconfirmed_append hpast hrest
      rw [hsplit] at hleft
      rw [hpending, hleft]
  rw [Place, hclient, hsnap, hdelivered, hdel]
  exact ⟨_, hat, rfl⟩

theorem place_fetched {o : Int} (hp : w.Place config) (hpc : w.chat.client.pc = .fetching o)
    (hclient : w'.chat.client.pc = RequestText.fetchedPc display o
      (botReply ((unconfirmed w.chat.pending (some o)).take DEFAULT_LIMIT)))
    (harrived : w'.arrived = w.arrived) (hsnapshot : w'.snapshot = w.snapshot)
    (hdelivered : w'.delivered =
      w.delivered ++ (unconfirmed w.chat.pending (some o)).take DEFAULT_LIMIT)
    (hpending : w'.chat.pending = unconfirmed w.chat.pending (some o)) : w'.Place config := by
  obtain ⟨rest, hat, hnone⟩ :
      ∃ rest, w.At o w.delivered rest ∧ firstText config w.delivered = none := by
    simpa only [Place, hpc] using hp
  rw [hat.left] at hclient hdelivered hpending
  have hsplit : rest.take DEFAULT_LIMIT ++ rest.drop DEFAULT_LIMIT = rest :=
    List.take_append_drop _ _
  rw [Place, hclient, fetchedPc_botReply]
  refine ⟨w.delivered, rest.take DEFAULT_LIMIT, rest.drop DEFAULT_LIMIT, rfl, hdelivered, ?_,
    hnone⟩
  rw [hsplit]
  refine ⟨by rw [harrived, hsnapshot, hat.arrived], by rw [harrived]; exact hat.reached, ?_⟩
  rw [hpending, ← hat.left, unconfirmed_unconfirmed _ (le_refl o)]

theorem At.ends (h : w.At offset w.delivered rest) (harrived : w'.arrived = w.arrived)
    (hsnapshot : w'.snapshot = w.snapshot) (hdelivered : w'.delivered = w.delivered) :
    ∃ rest, w'.arrived = w'.snapshot ++ w'.delivered ++ rest :=
  ⟨rest, by rw [harrived, hsnapshot, hdelivered, h.arrived]⟩

theorem place_client {a : RequestTextAction} {client : RequestText}
    (h : w.chat.client.step display a = some client) (hfails : Chat.fails display a = true)
    (hi : Inv config w) (hclient : w'.chat.client = client) (harrived : w'.arrived = w.arrived)
    (hsnapshot : w'.snapshot = w.snapshot) (hdelivered : w'.delivered = w.delivered)
    (hpending : w'.chat.pending = w.chat.pending) : w'.Place config := by
  have same : ∀ {o f r}, w.At o f r → w'.At o f r := fun h =>
    h.of_eq harrived hsnapshot hpending
  have hp := hi.place
  rcases RequestText.step_cases display h with ⟨reply, rfl, hpc, rfl⟩ |
    ⟨reply, o, rfl, hpc, rfl⟩ | ⟨reply, now, o, rfl, hpc, -, ⟨error, rfl⟩ | ⟨-, rfl⟩ | ⟨-, rfl⟩⟩ |
    ⟨now, o, rfl, hpc, -, ⟨-, rfl⟩ | ⟨-, rfl⟩⟩ | ⟨o, scanned, values, rfl, hpc, rfl⟩ |
    ⟨o, scanned, value, values, rfl, hpc, rfl⟩ <;>
  simp only [Place, hpc] at hp <;> rw [Place, hclient]
  · cases hf : fetchUpdates display reply with
    | ok resp => simp [Chat.fails, hf, Except.isOk, Except.toBool] at hfails
    | error error =>
      obtain ⟨-, hsnap, hdel⟩ := hp
      have hret : RequestText.snapshotPc display reply = .returned (.error error) := by
        simp [RequestText.snapshotPc, hf, Except.bind]
      rw [RequestText.setPc_pc, hret, hsnapshot, hdelivered, hsnap, hdel]
      exact ⟨⟨_, rfl⟩, rfl⟩
  · cases hf : fetchUpdates display reply with
    | ok resp => simp [Chat.fails, hf, Except.isOk, Except.toBool] at hfails
    | error error =>
      obtain ⟨rest, hat, hnone⟩ := hp
      have hret : RequestText.fetchedPc display o reply = .returned (.error error) := by
        simp [RequestText.fetchedPc, hf]
      rw [RequestText.setPc_pc, hret]
      exact ⟨hat.ends harrived hsnapshot hdelivered, hdelivered ▸ hnone⟩
  · obtain ⟨rest, hat, hnone⟩ := hp
    exact ⟨hat.ends harrived hsnapshot hdelivered, hdelivered ▸ hnone⟩
  · obtain ⟨rest, hat, -⟩ := hp
    exact hat.ends harrived hsnapshot hdelivered
  · obtain ⟨rest, hat, hnone⟩ := hp
    exact ⟨rest, hdelivered ▸ same hat, hdelivered ▸ hnone⟩
  · obtain ⟨rest, hat, hnone⟩ := hp
    exact ⟨hat.ends harrived hsnapshot hdelivered, hdelivered ▸ hnone⟩
  · obtain ⟨rest, hat, hnone⟩ := hp
    exact ⟨rest, hdelivered ▸ same hat, hdelivered ▸ hnone⟩
  · obtain ⟨front, us, rest, rfl, hdel, hat, hnone⟩ := hp
    rw [RequestText.setPc_pc]
    cases us with
    | nil =>
      rw [List.append_nil] at hdel
      rw [List.nil_append, ← hdel] at hat
      exact ⟨rest, hdelivered ▸ same hat, hdelivered ▸ hdel ▸ hnone⟩
    | cons u us =>
      rw [List.map_cons, nextPc_update]
      exact ⟨front, u, us, rest, rfl, rfl, hdelivered.trans hdel, same (hat.advance hi.sorted),
        hnone⟩
  · obtain ⟨front, u, us, rest, rfl, rfl, hdel, hat, hnone⟩ := hp
    rw [RequestText.setPc_pc, hi.unchanged]
    rcases RequestText.lookPc_cases config o scanned u.value (us.map BotUpdate.value) with
      ⟨text, htext, hret⟩ | ⟨htext, hret⟩ <;> rw [hret]
    · refine ⟨⟨rest, ?_⟩, ?_⟩
      · rw [harrived, hsnapshot, hdelivered, hat.arrived, hdel]
        simp
      · rw [hdelivered, hdel, firstText_append, hnone, Option.none_or]
        have hu : Chat.textOf config u = some text := htext
        simp [firstText, hu, Except.toOption]
    · refine ⟨front ++ [u], us, rest, rfl, ?_, same hat, ?_⟩
      · rw [hdelivered, hdel, List.append_assoc]
        rfl
      · rw [firstText_append, hnone, firstText_singleton]
        exact htext

theorem config_step {c c' : RequestText} {a : RequestTextAction}
    (h : c.step display a = some c') : c'.config = c.config := by
  rcases RequestText.step_cases display h with ⟨reply, rfl, -, rfl⟩ | ⟨reply, o, rfl, -, rfl⟩ |
    ⟨reply, now, o, rfl, -, -, ⟨error, rfl⟩ | ⟨-, rfl⟩ | ⟨-, rfl⟩⟩ |
    ⟨now, o, rfl, -, -, ⟨-, rfl⟩ | ⟨-, rfl⟩⟩ | ⟨o, scanned, values, rfl, -, rfl⟩ |
    ⟨o, scanned, value, values, rfl, -, rfl⟩ <;> rfl

theorem inv_step {a : ChatAction} (h : step display before w a = some w') (hi : Inv config w) :
    Inv config w' := by
  cases a with
  | arrive update =>
    simp only [step] at h
    split at h
    · rename_i hguard
      obtain ⟨chat, hchat, rfl⟩ := Option.map_eq_some_iff.mp h
      simp only [Chat.step] at hchat
      split at hchat <;> cases hchat
      refine ⟨hi.unchanged, List.pairwise_append.mpr ⟨hi.sorted, List.pairwise_singleton _ _, ?_⟩,
        place_arrive hi.place hguard.1 hguard.2 rfl rfl rfl rfl rfl⟩
      intro u hu v hv
      rw [List.mem_singleton.mp hv]
      exact hguard.1 u hu
    · cases h
  | answer =>
    obtain ⟨chat, hchat, rfl⟩ := Option.map_eq_some_iff.mp h
    simp only [Chat.step] at hchat
    split at hchat
    · rename_i timeout offset hreq
      obtain ⟨client, hclient, rfl⟩ := Option.map_eq_some_iff.mp hchat
      rcases Chat.request_cases hreq with ⟨hpc, rfl⟩ | ⟨o, hpc, rfl⟩
      · simp only [RequestText.step, hpc, Option.some.injEq] at hclient ⊢
        subst hclient
        exact ⟨hi.unchanged, hi.sorted,
          place_snapshot hi.place hi.sorted hpc rfl rfl rfl rfl rfl⟩
      · simp only [RequestText.step, hpc, Option.some.injEq] at hclient ⊢
        subst hclient
        exact ⟨hi.unchanged, hi.sorted, place_fetched hi.place hpc
          (show _ = RequestText.fetchedPc display o _ from rfl) rfl rfl rfl rfl⟩
    · cases hchat
  | client a =>
    obtain ⟨chat, hchat, rfl⟩ := Option.map_eq_some_iff.mp h
    simp only [Chat.step] at hchat
    split at hchat
    · rename_i hfails
      obtain ⟨client, hclient, rfl⟩ := Option.map_eq_some_iff.mp hchat
      exact ⟨(config_step hclient).trans hi.unchanged, hi.sorted,
        place_client hclient hfails hi rfl rfl rfl rfl rfl⟩
    · cases hchat

theorem inv_of_reachable (h : (automaton display config phone before).Reachable w) :
    Inv config w := by
  refine h.invariant (fun w hw => ?_) fun w a w' hs hi => inv_step hs hi
  rw [show w = start config phone before from hw]
  exact ⟨rfl, before.sorted, rfl, rfl, rfl⟩

/-- What has been delivered is a first part of the updates that were not in the snapshot. -/
theorem Inv.delivered (hi : Inv config w) :
    ∃ rest, w.arrived = w.snapshot ++ w.delivered ++ rest := by
  have hp := hi.place
  unfold Place at hp
  split at hp
  · obtain ⟨-, hsnap, hdel⟩ := hp
    exact ⟨w.arrived, by simp [hsnap, hdel]⟩
  · obtain ⟨rest, hat, -⟩ := hp
    exact ⟨rest, hat.arrived⟩
  · obtain ⟨rest, hat, -⟩ := hp
    exact ⟨rest, hat.arrived⟩
  · obtain ⟨rest, hat, -⟩ := hp
    exact ⟨rest, hat.arrived⟩
  · obtain ⟨front, us, rest, -, hdel, hat, -⟩ := hp
    exact ⟨rest, by simp [hat.arrived, hdel]⟩
  · obtain ⟨front, u, us, rest, -, -, hdel, hat, -⟩ := hp
    exact ⟨rest, by simp [hat.arrived, hdel]⟩
  · exact hp.1
  · exact hp.elim
  · exact hp

theorem fresh_eq (h : w.arrived = w.snapshot ++ w.delivered ++ rest) :
    w.fresh = w.delivered ++ rest := by
  rw [fresh, h, List.append_assoc, List.drop_left]

theorem Inv.returned (hi : Inv config w) {result : Except Error String}
    (h : w.chat.client.pc = .returned result) :
    firstText config w.delivered = result.toOption := by
  have hp := hi.place
  simp only [Place, h] at hp
  exact hp.2

structure Hunting (config : TelegramOperatorConfig) (text : String) (w : Inbox) : Prop where
  inv : Inv config w
  time : w.chat.client.now < w.chat.client.deadline
  waiting : firstText config w.fresh = some text
  place : inLoop w.chat.client = true ∨ w.chat.client.pc = .returned (.ok text)

theorem Hunting.client {text : String} {a : RequestTextAction} {c : RequestText}
    (hh : Hunting config text w) (hf : Chat.fails display a = true)
    (hs : w.chat.client.step display a = some c) (htime : c.now < c.deadline)
    (hplace : inLoop c = true ∨ ∃ found, c.pc = .returned (.ok found)) :
    ∃ t, step display before w (.client a) = some t ∧ Hunting config text t ∧
      t.chat.client = c ∧ t.arrived = w.arrived ∧ t.snapshot = w.snapshot ∧
      t.delivered = w.delivered := by
  let t : Inbox := { w with chat := { w.chat with client := c, source := w.chat.looked } }
  have ht : step display before w (.client a) = some t := by
    simp only [step, Chat.step, hf, if_true, hs, Option.map_some, t]
  have hi : Inv config t := inv_step ht hh.inv
  refine ⟨t, ht, ⟨hi, htime, hh.waiting, hplace.imp id ?_⟩, rfl, rfl, rfl, rfl⟩
  -- the text that is found is the first one
  rintro ⟨found, hret⟩
  obtain ⟨rest, harr⟩ := hi.delivered
  have hw : firstText config t.fresh = some text := hh.waiting
  rw [fresh_eq harr, firstText_append, hi.returned hret] at hw
  rw [hret, Option.some.inj hw]

theorem Hunting.nearer (display : DisplayText) (before : Backlog) {text : String}
    (hh : Hunting config text w) : w.chat.client.pc = .returned (.ok text) ∨
      ∃ a t, Answering w a ∧ step display before w a = some t ∧ Hunting config text t ∧
        t.toGo < w.toGo := by
  rcases hh.place with hloop | hret
  swap
  · exact .inl hret
  have hp := hh.inv.place
  refine .inr ?_
  cases hpc : w.chat.client.pc with
  | polling o =>
    have hs : w.chat.client.step display (.top w.chat.client.now) =
        some { w.chat.client with pc := .fetching o } := by
      have hdead : ¬ w.chat.client.deadline ≤ w.chat.client.now := by
        have htime := hh.time
        omega
      simp [RequestText.step, hpc, hdead]
    obtain ⟨t, ht, hht, hc, harr, hsnap, hdel⟩ := hh.client rfl hs hh.time (.inl rfl)
    refine ⟨.client (.top w.chat.client.now), t, trivial, ht, hht, ?_⟩
    simp [toGo, hc, harr, hsnap, hdel, hpc]
  | fetching o =>
    simp only [Place, hpc] at hp
    obtain ⟨rest, hat, hnone⟩ := hp
    let batch := rest.take DEFAULT_LIMIT
    let t : Inbox := { w with
      chat := { w.chat with
        client := w.chat.client.setPc (.scanning o [] (batch.map BotUpdate.value))
        pending := rest
        answered := batch }
      delivered := w.delivered ++ batch }
    have ht : step display before w .answer = some t := by
      simp [step, Chat.step, RequestText.request, Chat.stepAnswer, RequestText.step, hpc, hat.left,
        fetchedPc_botReply, t, batch]
    refine ⟨.answer, t, trivial, ht, ⟨inv_step ht hh.inv, hh.time, hh.waiting, .inl rfl⟩, ?_⟩
    have hpos : 0 < rest.length := by
      have hw := hh.waiting
      rw [fresh_eq hat.arrived, firstText_append, hnone, Option.none_or] at hw
      cases rest with
      | nil => cases hw
      | cons u rest => exact Nat.succ_pos _
    have harr : w.arrived.length = w.snapshot.length + w.delivered.length + rest.length := by
      rw [hat.arrived, List.length_append, List.length_append]
    have hbatch : batch.length = min DEFAULT_LIMIT rest.length := List.length_take
    have hlimit : DEFAULT_LIMIT = 100 := rfl
    simp only [toGo, hpc, t, RequestText.setPc_pc, List.length_append, List.length_map, hbatch,
      harr]
    omega
  | scanning o scanned values =>
    simp only [Place, hpc] at hp
    obtain ⟨front, us, rest, rfl, hdel, hat, hnone⟩ := hp
    cases us with
    | nil =>
      have hs : w.chat.client.step display .next = some (w.chat.client.setPc (.polling o)) := by
        simp [RequestText.step, hpc, RequestText.nextPc]
      obtain ⟨t, ht, hht, hc, harr, hsnap, hdel⟩ := hh.client rfl hs hh.time (.inl rfl)
      refine ⟨.client .next, t, trivial, ht, hht, ?_⟩
      simp [toGo, hc, harr, hsnap, hdel, hpc]
    | cons u us =>
      have hs : w.chat.client.step display .next = some (w.chat.client.setPc
          (.assigned (u.id + 1) scanned u.value (us.map BotUpdate.value))) := by
        simp [RequestText.step, hpc, nextPc_update]
      obtain ⟨t, ht, hht, hc, harr, hsnap, hdel⟩ := hh.client rfl hs hh.time (.inl rfl)
      refine ⟨.client .next, t, trivial, ht, hht, ?_⟩
      simp [toGo, hc, harr, hsnap, hdel, hpc]
      omega
  | assigned o scanned value values =>
    have hs : w.chat.client.step display .look = some (w.chat.client.setPc
        (RequestText.lookPc w.chat.client.config o scanned value values)) := by
      simp [RequestText.step, hpc]
    rcases RequestText.lookPc_cases w.chat.client.config o scanned value values with
      ⟨found, -, hlook⟩ | ⟨-, hlook⟩ <;> rw [hlook] at hs
    · obtain ⟨t, ht, hht, hc, harr, hsnap, hdel⟩ :=
        hh.client rfl hs hh.time (.inr ⟨found, rfl⟩)
      refine ⟨.client .look, t, trivial, ht, hht, ?_⟩
      simp [toGo, hc, harr, hsnap, hdel, hpc]
    · obtain ⟨t, ht, hht, hc, harr, hsnap, hdel⟩ := hh.client rfl hs hh.time (.inl rfl)
      refine ⟨.client .look, t, trivial, ht, hht, ?_⟩
      simp [toGo, hc, harr, hsnap, hdel, hpc]
  | _ => simp [inLoop, hpc] at hloop

/-- What the calls of the loop return is, in order and without a gap, what the bot has received
after the snapshot. The text is that of the first of these updates that has one for the operator; on
an error none of them has; and when there is one, and time, the loop gets to it. -/
theorem reply_taken (h : (automaton display config phone before).Reachable w) :
    (∃ rest, w.arrived = w.snapshot ++ w.delivered ++ rest) ∧
    (∀ result, w.chat.client.pc = .returned result →
      firstText config w.delivered = result.toOption) ∧
    w.chat.client.pc ≠ .overflowed ∧
    ∀ text, inLoop w.chat.client = true → w.chat.client.now < w.chat.client.deadline →
      firstText config w.fresh = some text →
      (automaton display config phone before).CanReach Answering w fun t =>
        t.chat.client.pc = .returned (.ok text) := by
  have hi := inv_of_reachable h
  refine ⟨hi.delivered, fun result hr => hi.returned hr, fun hpc => ?_, fun text hloop ht hw => ?_⟩
  · have hp := hi.place
    simp only [Place, hpc] at hp
  · exact Automaton.CanReach.of_measure toGo (fun w hh => hh.nearer display before)
      (⟨hi, ht, hw, .inl hloop⟩ : Hunting config text w)

def answeredPrompt : List ChatAction :=
  [.answer, .client (.sent (botReply []) 0), .arrive (Chat.chatUpdate 1), .client (.top 0), .answer,
    .client .next, .client .look]

theorem reply_taken_prompt :
    (∃ w : Inbox, w.chat.client.pc = .returned (.ok "12345") ∧
      firstText ⟨"", 1001, 42, 60⟩ w.delivered = some "12345") ∧
    ∃ w : Inbox, w.delivered = [] ∧
      (automaton ⟨fun _ => "", fun _ => ""⟩ ⟨"", 1001, 42, 60⟩ "" ⟨[], .nil⟩).CanReach Answering w
        fun t => t.chat.client.pc = .returned (.ok "12345") := by
  have hr : (automaton ⟨fun _ => "", fun _ => ""⟩ ⟨"", 1001, 42, 60⟩ "" ⟨[], .nil⟩).Reachable
      (((automaton ⟨fun _ => "", fun _ => ""⟩ ⟨"", 1001, 42, 60⟩ "" ⟨[], .nil⟩).exec
        (start ⟨"", 1001, 42, 60⟩ "" ⟨[], .nil⟩) answeredPrompt).get rfl) :=
    Automaton.reachable_get rfl
  have hpc : (((automaton ⟨fun _ => "", fun _ => ""⟩ ⟨"", 1001, 42, 60⟩ "" ⟨[], .nil⟩).exec
      (start ⟨"", 1001, 42, 60⟩ "" ⟨[], .nil⟩) answeredPrompt).get rfl).chat.client.pc =
      .returned (.ok "12345") := rfl
  have hr' : (automaton ⟨fun _ => "", fun _ => ""⟩ ⟨"", 1001, 42, 60⟩ "" ⟨[], .nil⟩).Reachable
      (((automaton ⟨fun _ => "", fun _ => ""⟩ ⟨"", 1001, 42, 60⟩ "" ⟨[], .nil⟩).exec
        (start ⟨"", 1001, 42, 60⟩ "" ⟨[], .nil⟩) (answeredPrompt.take 3)).get rfl) :=
    Automaton.reachable_get rfl
  exact ⟨⟨_, hpc, (reply_taken hr).2.1 _ hpc⟩, _, rfl,
    (reply_taken hr').2.2.2 "12345" rfl (by decide) rfl⟩

end Inbox

end Maxrs.Telegram
