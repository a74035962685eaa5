import Mathlib.Data.List.Perm.Basic
import TraceRollup.StageQueue

/-!
# A queue and its senders

Any number of senders share a queue. A send comes back at once, unless the queue is full and lets its
senders wait: then the one that has waited longest gets the place of the next item taken out, each may
give up, and all are turned away when the reader closes. Whatever happens in whichever order, the items of
the sends that were accepted are those received followed by those queued, every refusal for want of room is
counted, and a queue that was closed or cancelled takes no new item (`SharedQueue.keeps_accounts`).
-/

namespace TraceRollup

/-! ### Events -/

/-- An item with the sender that offers it. -/
structure Offer (α : Type) where
  sender : Nat
  item : α
  deriving DecidableEq

/-- A send that has come back. -/
structure Answered (α : Type) where
  offer : Offer α
  answer : Except Refusal Unit

def Answered.saturated {α : Type} (a : Answered α) : Bool :=
  match a.answer with
  | .error (.saturated _) => true
  | _ => false

inductive QueueEvent (α : Type)
  | send (s : Offer α)
  /-- A send has waited as long as it may: the one that so many others wait in front of. -/
  | giveUp (i : Nat)
  | receive
  | cancel
  | closeReader
  | dropReader
  deriving DecidableEq

namespace QueueEvent
variable {α : Type}

def offer? : QueueEvent α → Option (Offer α)
  | .send s => some s
  | .giveUp _ | .receive | .cancel | .closeReader | .dropReader => none

/-- From then on nothing new is taken in. -/
def closes : QueueEvent α → Bool
  | .cancel | .closeReader | .dropReader => true
  | .send _ | .giveUp _ | .receive => false

end QueueEvent

/-- The places that are free. -/
def StageQueue.room {α : Type} (q : StageQueue α) : Nat := q.capacity - q.items.length

/-- A queue with the sends that wait for room, and what has become of the others. -/
structure SharedQueue (α : Type) where
  queue : StageQueue α
  /-- The longest waiting first. -/
  waiting : List (Offer α) := []
  /-- In the order in which they came back. -/
  answered : List (Answered α) := []
  received : List α := []

namespace SharedQueue
variable {α : Type}

def start (stage : StageId) (capacity : Nat) (policy : QueuePolicy) : SharedQueue α :=
  { queue := .create stage capacity policy }

/-- The items of the sends that were accepted, in the order in which these came back. -/
def accepted (c : SharedQueue α) : List α :=
  c.answered.filterMap fun a => if a.answer.isOk then some a.offer.item else none

/-- A send comes back with an answer, and leaves the queue as it then is. -/
def answer (c : SharedQueue α) (s : Offer α) (r : Except Refusal Unit × StageQueue α) : SharedQueue α :=
  { c with queue := r.2, answered := c.answered ++ [⟨s, r.1⟩] }

/-- A send that finds the queue full waits, if the queue is open and lets senders wait. -/
def mustWait (c : SharedQueue α) : Bool :=
  c.queue.isFull && !c.queue.refusesAll && decide (c.queue.policy ≠ .drop)

def send (c : SharedQueue α) (s : Offer α) : SharedQueue α :=
  if c.mustWait then { c with waiting := c.waiting ++ [s] } else c.answer s (c.queue.send s.item)

def giveUp (c : SharedQueue α) (i : Nat) : SharedQueue α :=
  match c.waiting[i]? with
  | none => c
  | some s => { c with waiting := c.waiting.eraseIdx i }.answer s c.queue.saturate

/-- The place that has become free goes to the send that has waited longest. -/
def letIn (c : SharedQueue α) : SharedQueue α :=
  match c.waiting with
  | [] => c
  | s :: rest =>
    { c with waiting := rest }.answer s (.ok (), { c.queue with items := c.queue.items ++ [s.item] })

/-- The reader has an item, and the queue is left without it. -/
def taken (c : SharedQueue α) (x : α) (q : StageQueue α) : SharedQueue α :=
  { c with queue := q, received := c.received ++ [x] }

def receive (c : SharedQueue α) : SharedQueue α :=
  match c.queue.receive with
  | (none, _) => c
  | (some x, q) => (c.taken x q).letIn

/-- The reader is no more, so nobody waits for it. -/
def turnAway (c : SharedQueue α) (q : StageQueue α) : SharedQueue α :=
  { c with queue := q, waiting := [], answered := c.answered ++ c.waiting.map fun s => ⟨s, .error .closed⟩ }

def perform (c : SharedQueue α) : QueueEvent α → SharedQueue α
  | .send s => c.send s
  | .giveUp i => c.giveUp i
  | .receive => c.receive
  | .cancel => { c with queue := c.queue.cancel }
  | .closeReader => c.turnAway c.queue.closeReader
  | .dropReader => c.turnAway c.queue.dropReader

def run (c : SharedQueue α) (events : List (QueueEvent α)) : SharedQueue α := events.foldl perform c

/-! ### Accounts -/

/-- What came in is what went out and what is queued, and every refusal is told and counted. -/
structure Accounts (stage : StageId) (capacity : Nat) (c : SharedQueue α) : Prop where
  stage_eq : c.queue.stage = stage
  capacity_eq : c.queue.capacity = max capacity 1
  within : c.queue.items.length ≤ c.queue.capacity
  fifo : c.queue.reader ≠ .gone → c.accepted = c.received ++ c.queue.items
  gone : c.queue.reader = .gone → c.queue.items = [] ∧ c.received <+: c.accepted
  dropped : c.queue.dropped = c.answered.countP Answered.saturated
  answers : ∀ a ∈ c.answered,
    a.answer = .ok () ∨ a.answer = .error .closed ∨ a.answer = .error (.saturated stage)

/-- Sends wait only for room, and only while somebody reads. -/
def Patient (c : SharedQueue α) : Prop := c.waiting ≠ [] → c.queue.isFull = true ∧ c.queue.reader = .reading

theorem accepted_answer (c : SharedQueue α) (s : Offer α) (r : Except Refusal Unit × StageQueue α) :
    (c.answer s r).accepted = c.accepted ++ if r.1.isOk then [s.item] else [] := by
  simp only [accepted, answer, List.filterMap_append, List.filterMap_cons, List.filterMap_nil]
  cases r.1.isOk <;> rfl

theorem accepted_turnAway (c : SharedQueue α) (q : StageQueue α) : (c.turnAway q).accepted = c.accepted := by
  have hnone : (c.waiting.map fun s => (⟨s, .error .closed⟩ : Answered α)).filterMap
      (fun a => if a.answer.isOk then some a.offer.item else none) = [] := by
    rw [List.filterMap_map]
    exact List.filterMap_eq_nil_iff.2 fun _ _ => rfl
  simp only [accepted, turnAway, List.filterMap_append, hnone, List.append_nil]

end SharedQueue

/-- What becomes of a send: nothing is taken in any more, there is no room, or the item is the last of all. -/
theorem StageQueue.send_eq {α : Type} (q : StageQueue α) (x : α) :
    (q.refusesAll = true ∧ q.send x = (.error .closed, q)) ∨
    (q.refusesAll = false ∧ q.isFull = true ∧ q.send x = q.saturate) ∨
    (q.refusesAll = false ∧ q.isFull = false ∧ q.send x = (.ok (), { q with items := q.items ++ [x] })) := by
  unfold send
  cases q.refusesAll <;> cases q.isFull <;> simp

namespace SharedQueue
variable {α : Type} {stage : StageId} {capacity : Nat} {c : SharedQueue α}

/-- A send waits, is turned away, finds no room, or puts its item behind all others. -/
theorem send_cases (c : SharedQueue α) (s : Offer α) :
    (c.queue.isFull = true ∧ c.queue.reader = .reading ∧ c.send s = { c with waiting := c.waiting ++ [s] }) ∨
    (c.queue.refusesAll = true ∧ c.send s = c.answer s (.error .closed, c.queue)) ∨
    (c.queue.isFull = true ∧ c.send s = c.answer s c.queue.saturate) ∨
    (c.queue.isFull = false ∧ c.queue.reader = .reading ∧
      c.send s = c.answer s (.ok (), { c.queue with items := c.queue.items ++ [s.item] })) := by
  have hreading : c.queue.refusesAll = false → c.queue.reader = .reading := by
    simp only [StageQueue.refusesAll, Bool.or_eq_false_iff, decide_eq_false_iff_not, not_not]
    exact And.right
  unfold send
  split
  · rename_i hwait
    simp only [mustWait, Bool.and_eq_true, Bool.not_eq_true'] at hwait
    exact Or.inl ⟨hwait.1.1, hreading hwait.1.2, rfl⟩
  · rcases c.queue.send_eq s.item with ⟨hclosed, h⟩ | ⟨-, hfull, h⟩ | ⟨hopen, hroom, h⟩ <;> rw [h]
    · exact Or.inr (Or.inl ⟨hclosed, rfl⟩)
    · exact Or.inr (Or.inr (Or.inl ⟨hfull, rfl⟩))
    · exact Or.inr (Or.inr (Or.inr ⟨hroom, hreading hopen, rfl⟩))

/-- The oldest item goes out, and the item of the send that has waited longest comes in for it. -/
theorem receive_cases (c : SharedQueue α) :
    (c.queue.items = [] ∧ c.receive = c) ∨
    (∃ x rest, c.queue.items = x :: rest ∧ c.waiting = [] ∧ c.receive = c.taken x { c.queue with items := rest }) ∨
    (∃ x rest s others, c.queue.items = x :: rest ∧ c.waiting = s :: others ∧
      c.receive = ({ c.taken x { c.queue with items := rest } with waiting := others } : SharedQueue α).answer s
        (.ok (), { c.queue with items := rest ++ [s.item] })) := by
  unfold receive StageQueue.receive
  cases hitems : c.queue.items with
  | nil => exact Or.inl ⟨rfl, rfl⟩
  | cons x rest =>
    cases hw : c.waiting with
    | nil => exact Or.inr (Or.inl ⟨x, rest, rfl, rfl, by simp only [letIn, taken, hw]⟩)
    | cons s others => exact Or.inr (Or.inr ⟨x, rest, s, others, rfl, rfl, by simp only [letIn, taken, hw]⟩)

namespace Accounts

theorem start (stage : StageId) (capacity : Nat) (policy : QueuePolicy) :
    (SharedQueue.start stage capacity policy : SharedQueue α).Accounts stage capacity where
  stage_eq := rfl
  capacity_eq := rfl
  within := Nat.zero_le _
  fifo _ := rfl
  gone h := by cases h
  dropped := rfl
  answers _ h := absurd h List.not_mem_nil

/-- An item that is refused changes at most the count of those that found no room. -/
theorem refuse (h : c.Accounts stage capacity) (s : Offer α) {e : Refusal} {n : Nat}
    (he : e = .closed ∧ n = 0 ∨ e = .saturated stage ∧ n = 1) :
    (c.answer s (.error e, { c.queue with dropped := c.queue.dropped + n })).Accounts stage capacity where
  stage_eq := h.stage_eq
  capacity_eq := h.capacity_eq
  within := h.within
  fifo hr := by
    rw [accepted_answer]
    exact (List.append_nil _).trans (h.fifo hr)
  gone hr := by
    rw [accepted_answer]
    exact ⟨(h.gone hr).1, (List.append_nil c.accepted).symm ▸ (h.gone hr).2⟩
  dropped := by
    simp only [answer, List.countP_append, h.dropped]
    rcases he with ⟨rfl, rfl⟩ | ⟨rfl, rfl⟩ <;> rfl
  answers a ha := by
    rcases List.mem_append.1 ha with ha | ha
    · exact h.answers a ha
    · rw [List.mem_singleton.1 ha]
      rcases he with ⟨rfl, -⟩ | ⟨rfl, -⟩
      · exact Or.inr (Or.inl rfl)
      · exact Or.inr (Or.inr rfl)

theorem saturate (h : c.Accounts stage capacity) (s : Offer α) :
    (c.answer s c.queue.saturate).Accounts stage capacity := by
  have hrefused := h.refuse s (Or.inr ⟨rfl, rfl⟩)
  rwa [← h.stage_eq] at hrefused ⊢

/-- An item that finds room is the last of those accepted and of those queued. -/
theorem put (h : c.Accounts stage capacity) (hroom : c.queue.isFull = false) (hreader : c.queue.reader ≠ .gone)
    (s : Offer α) :
    (c.answer s (.ok (), { c.queue with items := c.queue.items ++ [s.item] })).Accounts stage capacity where
  stage_eq := h.stage_eq
  capacity_eq := h.capacity_eq
  within := by
    have hlt := of_decide_eq_false hroom
    simp only [answer, List.length_append, List.length_singleton]
    omega
  fifo hr := by
    rw [accepted_answer, h.fifo hreader, List.append_assoc]
    rfl
  gone hr := absurd hr hreader
  dropped := by
    simp only [answer, List.countP_append, h.dropped]
    rfl
  answers a ha := by
    rcases List.mem_append.1 ha with ha | ha
    · exact h.answers a ha
    · rw [List.mem_singleton.1 ha]
      exact Or.inl rfl

/-- The oldest item goes out next. -/
theorem taken (h : c.Accounts stage capacity) {x : α} {rest : List α} (hitems : c.queue.items = x :: rest) :
    (c.taken x { c.queue with items := rest }).Accounts stage capacity where
  stage_eq := h.stage_eq
  capacity_eq := h.capacity_eq
  within := by
    have hwithin := h.within
    rw [hitems, List.length_cons] at hwithin
    exact Nat.le_of_succ_le hwithin
  fifo hr := (h.fifo hr).trans (by rw [hitems, SharedQueue.taken, List.append_assoc]; rfl)
  gone hr := by
    rw [(h.gone hr).1] at hitems
    cases hitems
  dropped := h.dropped
  answers := h.answers

theorem waiting (h : c.Accounts stage capacity) (w : List (Offer α)) :
    ({ c with waiting := w } : SharedQueue α).Accounts stage capacity :=
  ⟨h.stage_eq, h.capacity_eq, h.within, h.fifo, h.gone, h.dropped, h.answers⟩

theorem cancel (h : c.Accounts stage capacity) :
    ({ c with queue := c.queue.cancel } : SharedQueue α).Accounts stage capacity :=
  ⟨h.stage_eq, h.capacity_eq, h.within, h.fifo, h.gone, h.dropped, h.answers⟩

theorem dropped_turnAway (h : c.Accounts stage capacity) (q : StageQueue α) (hq : q.dropped = c.queue.dropped) :
    (c.turnAway q).queue.dropped = (c.turnAway q).answered.countP Answered.saturated := by
  have hnone : (c.waiting.map fun s => (⟨s, .error .closed⟩ : Answered α)).countP Answered.saturated = 0 := by
    rw [List.countP_map]
    exact List.countP_eq_zero.2 fun _ _ => Bool.false_ne_true
  simp only [turnAway, List.countP_append, hnone, hq, h.dropped, Nat.add_zero]

theorem answers_turnAway (h : c.Accounts stage capacity) (q : StageQueue α) : ∀ a ∈ (c.turnAway q).answered,
    a.answer = .ok () ∨ a.answer = .error .closed ∨ a.answer = .error (.saturated stage) := by
  intro a ha
  rcases List.mem_append.1 ha with ha | ha
  · exact h.answers a ha
  · obtain ⟨s, -, rfl⟩ := List.mem_map.1 ha
    exact Or.inr (Or.inl rfl)

/-- A reader that closes leaves the items queued. -/
theorem closeReader (h : c.Accounts stage capacity) : (c.turnAway c.queue.closeReader).Accounts stage capacity where
  stage_eq := h.stage_eq
  capacity_eq := h.capacity_eq
  within := h.within
  fifo hr := by
    rw [accepted_turnAway]
    refine h.fifo fun hgone => hr ?_
    simp only [turnAway, StageQueue.closeReader, hgone, if_true]
  gone hr := by
    rw [accepted_turnAway]
    refine h.gone ?_
    simp only [turnAway, StageQueue.closeReader] at hr
    split at hr
    · assumption
    · cases hr
  dropped := h.dropped_turnAway _ rfl
  answers := h.answers_turnAway _

/-- A reader that is dropped takes the items queued with it. -/
theorem dropReader (h : c.Accounts stage capacity) : (c.turnAway c.queue.dropReader).Accounts stage capacity where
  stage_eq := h.stage_eq
  capacity_eq := h.capacity_eq
  within := Nat.zero_le _
  fifo hr := absurd rfl hr
  gone _ := by
    refine ⟨rfl, ?_⟩
    rw [accepted_turnAway]
    by_cases hgone : c.queue.reader = .gone
    · exact (h.gone hgone).2
    · exact h.fifo hgone ▸ List.prefix_append _ _
  dropped := h.dropped_turnAway _ rfl
  answers := h.answers_turnAway _

end Accounts

/-! ### Runs -/

/-- A place that becomes free is taken at once if a send waits, so the queue is as full as before. -/
theorem Accounts.receive (h : c.Accounts stage capacity) (hp : c.Patient) :
    c.receive.Accounts stage capacity ∧ c.receive.Patient := by
  rcases c.receive_cases with ⟨-, hstep⟩ | ⟨x, rest, hitems, hw, hstep⟩ | ⟨x, rest, s, others, hitems, hw, hstep⟩
  · rw [hstep]
    exact ⟨h, hp⟩
  · rw [hstep]
    exact ⟨h.taken hitems, fun hne => absurd hw hne⟩
  · obtain ⟨hfull, hreading⟩ := hp (hw ▸ List.cons_ne_nil s others)
    have hroom : ¬ c.queue.capacity ≤ rest.length := by
      have hwithin := h.within
      rw [hitems, List.length_cons] at hwithin
      omega
    rw [hstep]
    refine ⟨((h.taken hitems).waiting others).put (decide_eq_false hroom) (fun hgone => ?_) s,
      fun _ => ⟨?_, hreading⟩⟩
    · cases hreading.symm.trans hgone
    · simp only [StageQueue.isFull, hitems, List.length_cons, decide_eq_true_eq] at hfull
      simpa only [answer, StageQueue.isFull, List.length_append, List.length_singleton, decide_eq_true_eq]
        using hfull

/-- Whatever happens, the accounts stay right and nobody waits in vain. -/
theorem Accounts.perform (h : c.Accounts stage capacity) (hp : c.Patient) (e : QueueEvent α) :
    (c.perform e).Accounts stage capacity ∧ (c.perform e).Patient := by
  cases e with
  | send s =>
    rw [SharedQueue.perform]
    rcases c.send_cases s with ⟨hfull, hreading, hstep⟩ | ⟨-, hstep⟩ | ⟨-, hstep⟩ | ⟨hroom, hreading, hstep⟩ <;>
      rw [hstep]
    · exact ⟨h.waiting _, fun _ => ⟨hfull, hreading⟩⟩
    · exact ⟨h.refuse s (Or.inl ⟨rfl, rfl⟩), hp⟩
    · exact ⟨h.saturate s, hp⟩
    · refine ⟨h.put hroom (by rw [hreading]; decide) s, fun hw => ?_⟩
      rw [(hp hw).1] at hroom
      cases hroom
  | giveUp i =>
    simp only [SharedQueue.perform, SharedQueue.giveUp]
    split
    · exact ⟨h, hp⟩
    · rename_i s hs
      have hne : c.waiting ≠ [] := List.ne_nil_of_mem (List.mem_of_getElem? hs)
      exact ⟨(h.waiting _).saturate s, fun _ => hp hne⟩
  | receive => exact h.receive hp
  | cancel => exact ⟨h.cancel, hp⟩
  | closeReader => exact ⟨h.closeReader, fun hw => absurd rfl hw⟩
  | dropReader => exact ⟨h.dropReader, fun hw => absurd rfl hw⟩

theorem accounts_run (stage : StageId) (capacity : Nat) (policy : QueuePolicy) (events : List (QueueEvent α)) :
    ((start stage capacity policy).run events).Accounts stage capacity ∧
      ((start stage capacity policy).run events).Patient :=
  List.foldlRecOn (motive := fun c : SharedQueue α => c.Accounts stage capacity ∧ c.Patient) events _
    ⟨.start stage capacity policy, fun hw => absurd rfl hw⟩ fun _ hc e _ => hc.1.perform hc.2 e

/-! ### Offers -/

/-- Of the sends that came back and of those that wait. -/
def offers (c : SharedQueue α) : List (Offer α) := c.answered.map Answered.offer ++ c.waiting

theorem offers_answer (c : SharedQueue α) (s : Offer α) (r : Except Refusal Unit × StageQueue α) :
    (c.answer s r).offers.Perm (s :: c.offers) := by
  simp only [offers, answer, List.map_append, List.map_cons, List.map_nil, List.append_assoc, List.singleton_append]
  exact List.perm_middle

theorem offers_receive (c : SharedQueue α) : c.receive.offers.Perm c.offers := by
  rcases c.receive_cases with ⟨-, hstep⟩ | ⟨x, rest, -, -, hstep⟩ | ⟨x, rest, s, others, -, hw, hstep⟩
  · rw [hstep]
  · rw [hstep]
    exact .refl _
  · rw [hstep]
    refine (offers_answer _ s _).trans ?_
    simp only [offers, taken, hw]
    exact List.perm_middle.symm

theorem offers_turnAway (c : SharedQueue α) (q : StageQueue α) : (c.turnAway q).offers = c.offers := by
  simp only [offers, turnAway, List.map_append, List.map_map, Function.comp_def, List.map_id', List.append_nil]

theorem offers_perform (c : SharedQueue α) (e : QueueEvent α) :
    (c.perform e).offers.Perm (c.offers ++ e.offer?.toList) := by
  cases e with
  | send s =>
    simp only [SharedQueue.perform, SharedQueue.send]
    split
    · simp only [offers, QueueEvent.offer?, Option.toList_some, List.append_assoc]
      exact .refl _
    · exact (offers_answer c s _).trans (List.perm_append_singleton s c.offers).symm
  | giveUp i =>
    simp only [SharedQueue.perform, SharedQueue.giveUp, QueueEvent.offer?, Option.toList_none, List.append_nil]
    split
    · exact .refl _
    · rename_i s hs
      obtain ⟨hi, rfl⟩ := List.getElem?_eq_some_iff.1 hs
      refine (offers_answer _ _ _).trans (List.perm_middle.symm.trans ?_)
      exact (List.getElem_cons_eraseIdx_perm hi).append_left _
  | receive =>
    rw [QueueEvent.offer?, Option.toList_none, List.append_nil]
    exact offers_receive c
  | cancel => exact (List.append_nil c.offers).symm ▸ .refl _
  | closeReader | dropReader =>
    rw [QueueEvent.offer?, Option.toList_none, List.append_nil]
    exact (offers_turnAway c _).symm ▸ .refl _

theorem offers_run (c : SharedQueue α) (events : List (QueueEvent α)) :
    (c.run events).offers.Perm (c.offers ++ events.filterMap QueueEvent.offer?) := by
  induction events generalizing c with
  | nil => exact (List.append_nil c.offers).symm ▸ .refl _
  | cons e rest ih =>
    have hstep := (offers_perform c e).append_right (rest.filterMap QueueEvent.offer?)
    refine (ih (c.perform e)).trans (hstep.trans ?_)
    rw [List.append_assoc, List.filterMap_cons]
    cases e.offer? <;> exact .refl _

/-! ### Closing -/

/-- Only the events that close a queue change what it knows of its closing. -/
theorem perform_of_not_closes (c : SharedQueue α) {e : QueueEvent α} (h : e.closes = false) :
    (c.perform e).queue.cancelled = c.queue.cancelled ∧ (c.perform e).queue.reader = c.queue.reader := by
  cases e with
  | send s =>
    rw [SharedQueue.perform]
    rcases c.send_cases s with ⟨-, -, h⟩ | ⟨-, h⟩ | ⟨-, h⟩ | ⟨-, -, h⟩ <;> rw [h] <;> exact ⟨rfl, rfl⟩
  | giveUp i =>
    simp only [SharedQueue.perform, SharedQueue.giveUp]
    split <;> exact ⟨rfl, rfl⟩
  | receive =>
    rw [SharedQueue.perform]
    rcases c.receive_cases with ⟨-, h⟩ | ⟨_, _, -, -, h⟩ | ⟨_, _, _, _, -, -, h⟩ <;> rw [h] <;> exact ⟨rfl, rfl⟩
  | cancel | closeReader | dropReader => cases h

/-- A queue refuses from the first event on that closes it, and never takes items in again. -/
theorem refusesAll_perform (c : SharedQueue α) (e : QueueEvent α) :
    (c.perform e).queue.refusesAll = (c.queue.refusesAll || e.closes) := by
  cases he : e.closes with
  | false =>
    obtain ⟨hcancelled, hreader⟩ := c.perform_of_not_closes he
    rw [Bool.or_false, StageQueue.refusesAll, hcancelled, hreader, StageQueue.refusesAll]
  | true =>
    rw [Bool.or_true]
    cases e with
    | send s | giveUp i | receive => cases he
    | cancel => rfl
    | closeReader =>
      have hclosed : (if c.queue.reader = .gone then ReaderState.gone else .closed) ≠ .reading := by
        split <;> decide
      exact (congrArg _ (decide_eq_true hclosed)).trans (Bool.or_true _)
    | dropReader => exact Bool.or_true _

/-- The reader is gone only if it was dropped. -/
theorem reader_perform (c : SharedQueue α) (e : QueueEvent α) (h : (c.perform e).queue.reader = .gone) :
    c.queue.reader = .gone ∨ e = .dropReader := by
  cases he : e.closes with
  | false => exact Or.inl ((c.perform_of_not_closes he).2 ▸ h)
  | true =>
    cases e with
    | send s | giveUp i | receive => cases he
    | cancel => exact Or.inl h
    | closeReader =>
      simp only [SharedQueue.perform, turnAway, StageQueue.closeReader] at h
      split at h
      · exact Or.inl ‹_›
      · cases h
    | dropReader => exact Or.inr rfl

theorem reader_run (c : SharedQueue α) (events : List (QueueEvent α)) (h : (c.run events).queue.reader = .gone) :
    c.queue.reader = .gone ∨ .dropReader ∈ events := by
  induction events generalizing c with
  | nil => exact Or.inl h
  | cons e rest ih =>
    rcases ih (c.perform e) h with hgone | hmem
    · exact (c.reader_perform e hgone).imp_right fun he => List.mem_cons.2 (Or.inl he.symm)
    · exact Or.inr (List.mem_cons_of_mem e hmem)

theorem refusesAll_run (c : SharedQueue α) (events : List (QueueEvent α)) :
    (c.run events).queue.refusesAll = (c.queue.refusesAll || events.any QueueEvent.closes) := by
  induction events generalizing c with
  | nil => exact (Bool.or_false _).symm
  | cons e rest ih =>
    rw [List.any_cons, ← Bool.or_assoc, ← refusesAll_perform]
    exact ih (c.perform e)

theorem send_of_refusesAll (h : c.queue.refusesAll = true) (s : Offer α) :
    c.send s = { c with answered := c.answered ++ [⟨s, .error .closed⟩] } := by
  simp only [send, mustWait, StageQueue.send, h, Bool.not_true, Bool.and_false, Bool.false_and, Bool.false_eq_true,
    if_false, if_true, answer]

/-! ### What is queued, and one sender alone -/

/-- The items queued go out in their order, whatever has become of the queue. -/
theorem received_receive {xs more : List α} (h : c.queue.items = xs ++ more) :
    (c.run (.replicate xs.length .receive)).received = c.received ++ xs := by
  induction xs generalizing c more with
  | nil => exact (List.append_nil _).symm
  | cons x rest ih =>
    have hnext : ∃ more', c.receive.queue.items = rest ++ more' ∧ c.receive.received = c.received ++ [x] := by
      rcases c.receive_cases with ⟨hnil, -⟩ | ⟨y, left, hitems, -, hstep⟩ | ⟨y, left, s, others, hitems, -, hstep⟩
      · cases hnil.symm.trans h
      · obtain ⟨rfl, rfl⟩ := List.cons.inj (hitems.symm.trans h)
        exact hstep ▸ ⟨more, rfl, rfl⟩
      · obtain ⟨rfl, rfl⟩ := List.cons.inj (hitems.symm.trans h)
        exact hstep ▸ ⟨more ++ [s.item], List.append_assoc _ _ _, rfl⟩
    obtain ⟨more', hrest, hreceived⟩ := hnext
    calc (c.run (.replicate (rest.length + 1) .receive)).received
        = (c.receive.run (.replicate rest.length .receive)).received := rfl
      _ = c.received ++ [x] ++ rest := by rw [ih hrest, hreceived]
      _ = c.received ++ x :: rest := List.append_assoc _ _ _

/-- A sender that is alone gives up, if it has to wait. -/
def sendAlone (c : SharedQueue α) (s : Offer α) : List (QueueEvent α) :=
  if c.mustWait then [.send s, .giveUp 0] else [.send s]

/-- Some time after a sender that is alone, an item is taken out. -/
def sendBesideReader (c : SharedQueue α) (s : Offer α) (delay : Duration) : List (QueueEvent α) :=
  if c.mustWait ∧ delay.nanos < c.queue.patience then [.send s, .receive] else c.sendAlone s ++ [.receive]

theorem run_sendAlone (hw : c.waiting = []) (s : Offer α) :
    c.run (c.sendAlone s) = c.answer s (c.queue.send s.item) := by
  rw [sendAlone]
  split
  · rename_i hwait
    have hsend : c.queue.send s.item = c.queue.saturate := by
      simp only [mustWait, Bool.and_eq_true, Bool.not_eq_true'] at hwait
      simp only [StageQueue.send, hwait.1.1, hwait.1.2, Bool.false_eq_true, if_false, if_true]
    rw [hsend]
    simp only [run, List.foldl_cons, List.foldl_nil, perform, send, hwait, if_true, hw, List.nil_append, giveUp,
      List.getElem?_cons_zero, List.eraseIdx_zero, List.tail_cons, answer]
  · rename_i hwait
    simp only [run, List.foldl_cons, List.foldl_nil, perform, send, hwait, Bool.false_eq_true, if_false]

theorem receive_of_waiting_nil (hw : c.waiting = []) : c.receive =
    { c with queue := c.queue.receive.2, received := c.received ++ c.queue.receive.1.toList } := by
  rcases c.receive_cases with ⟨hnil, hstep⟩ | ⟨x, rest, hitems, -, hstep⟩ | ⟨x, rest, s, others, -, hwaits, -⟩
  · simp only [hstep, StageQueue.receive, hnil, Option.toList_none, List.append_nil]
  · simp only [hstep, StageQueue.receive, hitems, Option.toList_some, taken]
  · cases hw.symm.trans hwaits

/-- Sending while an item is taken out is a run of the two, with or without a wait. -/
theorem run_sendBesideReader (h : c.Accounts stage capacity) (hw : c.waiting = []) (s : Offer α) (delay : Duration) :
    let r := c.queue.sendWhileReading s.item delay
    c.run (c.sendBesideReader s delay) =
      { queue := r.2.2, waiting := []
        answered := c.answered ++ [⟨s, r.1⟩], received := c.received ++ r.2.1.toList } := by
  have hwaits : (c.queue.isFull = true ∧ c.queue.refusesAll = false ∧ delay.nanos < c.queue.patience) ↔
      c.mustWait = true ∧ delay.nanos < c.queue.patience := by
    simp only [mustWait, Bool.and_eq_true, Bool.not_eq_true', decide_eq_true_eq, and_assoc]
    refine and_congr_right fun _ => and_congr_right fun _ => (and_iff_right_of_imp fun hlt hdrop => ?_).symm
    rw [StageQueue.patience, hdrop] at hlt
    exact Nat.not_lt_zero _ hlt
  simp only [StageQueue.sendWhileReading, hwaits, sendBesideReader]
  split
  · rename_i hwait
    obtain ⟨x, rest, hitems⟩ : ∃ x rest, c.queue.items = x :: rest := by
      refine List.exists_cons_of_ne_nil fun hnil => ?_
      have hfull := of_decide_eq_true (hwaits.2 hwait).1
      have hcapacity := h.capacity_eq
      rw [hnil, List.length_nil] at hfull
      omega
    simp only [run, List.foldl_cons, List.foldl_nil, perform, send, hwait.1, if_true, receive, StageQueue.receive,
      hitems, taken, letIn, hw, List.nil_append, answer, Option.toList_some]
  · have hrun : c.run (c.sendAlone s ++ [.receive]) = (c.run (c.sendAlone s)).receive := List.foldl_append
    rw [hrun, run_sendAlone hw, receive_of_waiting_nil (by exact hw)]
    simp only [answer, hw]

/-- Of a queue with any number of senders, whatever happens: what was accepted is what was received and then what
is queued, in that order, until the reader is dropped; no more is queued than there is room for; every refusal for
want of room is counted, every send that began has come back or waits; once the queue is cancelled, closed or dropped,
a send is turned away and leaves no trace, while the items queued can still be received. A sender that is alone gets
the answers of a queue that nobody else uses. -/
theorem keeps_accounts (stage : StageId) (capacity : Nat) (policy : QueuePolicy) (events : List (QueueEvent α)) :
    let c : SharedQueue α := (start stage capacity policy).run events
    (.dropReader ∉ events → c.accepted = c.received ++ c.queue.items) ∧
    c.received <+: c.accepted ∧
    c.queue.length = c.queue.capacity - c.queue.room ∧ c.queue.length ≤ max capacity 1 ∧
    c.queue.dropped = c.answered.countP Answered.saturated ∧
    (∀ a ∈ c.answered, a.answer = .ok () ∨ a.answer = .error .closed ∨ a.answer = .error (.saturated stage)) ∧
    c.offers.Perm (events.filterMap QueueEvent.offer?) ∧
    (events.any QueueEvent.closes = true →
      ∀ s, c.perform (.send s) = { c with answered := c.answered ++ [⟨s, .error .closed⟩] }) ∧
    (c.run (.replicate c.queue.length .receive)).received = c.received ++ c.queue.items ∧
    (c.waiting = [] → ∀ s,
      c.run (c.sendAlone s) = c.answer s (c.queue.send s.item) ∧
      ∀ delay, let r := c.queue.sendWhileReading s.item delay
        c.run (c.sendBesideReader s delay) =
          { queue := r.2.2, waiting := []
            answered := c.answered ++ [⟨s, r.1⟩], received := c.received ++ r.2.1.toList }) := by
  intro c
  obtain ⟨haccounts, -⟩ : c.Accounts stage capacity ∧ c.Patient := accounts_run stage capacity policy events
  refine ⟨fun hkept => haccounts.fifo fun hgone => ?_, ?_, ?_, haccounts.capacity_eq ▸ haccounts.within,
    haccounts.dropped, haccounts.answers, offers_run _ events, fun hcloses s => ?_,
    received_receive (List.append_nil _).symm, fun hw s => ⟨run_sendAlone hw s, run_sendBesideReader haccounts hw s⟩⟩
  · rcases reader_run _ events hgone with hstart | hdropped
    · cases hstart
    · exact hkept hdropped
  · by_cases hgone : c.queue.reader = .gone
    · exact (haccounts.gone hgone).2
    · exact haccounts.fifo hgone ▸ List.prefix_append _ _
  · exact (Nat.sub_sub_self haccounts.within).symm
  · refine send_of_refusesAll ?_ s
    exact (refusesAll_run _ events).trans hcloses

/-- Room for one: the second sender waits and gets in, the third waits in vain, and then the queue is cancelled. -/
theorem keeps_accounts_roomForOne :
    let events : List (QueueEvent Nat) :=
      [.send ⟨0, 10⟩, .send ⟨1, 11⟩, .receive, .send ⟨2, 12⟩, .giveUp 0, .cancel]
    let c := (start ⟨11⟩ 0 (.block ⟨5000000000, by decide⟩)).run events
    .dropReader ∉ events ∧ events.any QueueEvent.closes = true ∧ c.waiting = [] ∧
      c.accepted = [10, 11] ∧ c.received = [10] ∧ c.queue.items = [11] ∧ c.accepted = c.received ++ c.queue.items ∧
      c.queue.dropped = 1 ∧ (c.perform (.send ⟨0, 13⟩)).accepted = [10, 11] ∧
      (c.run (.replicate 1 .receive)).received = [10, 11] ∧
      c.run (c.sendAlone ⟨0, 13⟩) = c.answer ⟨0, 13⟩ (c.queue.send 13) := by
  intro events c
  obtain ⟨hfifo, -, -, -, -, -, -, hclosed, hreceive, halone⟩ :=
    keeps_accounts ⟨11⟩ 0 (.block ⟨5000000000, by decide⟩) events
  refine ⟨by decide, rfl, rfl, rfl, rfl, rfl, hfifo (by decide), rfl, ?_, hreceive, (halone rfl ⟨0, 13⟩).1⟩
  rw [hclosed rfl]
  rfl

end SharedQueue
end TraceRollup
