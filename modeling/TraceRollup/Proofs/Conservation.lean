import Mathlib.Data.List.Basic
import TraceRollup.Proofs.Docket
import TraceRollup.Proofs.Resolution

/-!
# No segment is lost or taken twice

In every state of every run of an intake each segment taken in is submitted, parked or discarded,
its records were offered once or not at all, and the counters agree (`Docket.conserved`), unless
a call in a segment took longer than 64 bits can tell: then the intake stops in the middle of its
work (`Session.ingest_endless`).
-/

namespace TraceRollup.Intake

/-! ### One segment -/

/-- The label under which an outcome is counted. -/
def label : IntakeOutcome → String
  | .submitted => "resolved"
  | .deferred => "deferred"
  | .discarded => "discarded"

namespace Session

/-- What comes of an attempt at a segment that has failed before: the segments that are parked for
it, none or one, and the records that are offered, of none or one. -/
structure Handled (s : Session) (segment : Segment) (failed : Nat) (now : Int64) (o : IntakeOutcome) (t : Session)
    (back : List (Parked Segment)) (extra : List SegmentRecords) : Prop where
  counted : t.counters = s.counters.add (.nameOutcomes (label o)) 1
  parked : t.intake.parked = { s.intake.parked with items := s.intake.parked.items ++ back }
  offered : t.offered = s.offered ++ extra
  records : extra = [] ∧ o ≠ .submitted ∨ o = .submitted ∧ ∃ form records, segment.Becomes form ∧
    form.records? now = some records ∧ extra = [records]
  again : back = [] ∧ o ≠ .deferred ∨ o = .deferred ∧ failed < s.intake.parked.maxRetries ∧
    s.intake.pending < s.intake.parked.maxPending ∧ ∃ form, segment.Becomes form ∧ back = [⟨form, failed + 1⟩]
  turnedAway : o = .discarded → s.intake.parked.maxRetries ≤ failed ∨ s.intake.parked.maxPending ≤ s.intake.pending

theorem handled {segment : Segment} (htimed : segment.Timed) (s : Session) (failed : Nat) (now : Int64) :
    ∃ o t back extra, s.handle segment failed now = some (o, t) ∧ s.Handled segment failed now o t back extra := by
  have hbecomes := segment.becomes_resolve ⟨s.intake.registry, s.store⟩
  unfold handle attempt
  generalize segment.resolve ⟨s.intake.registry, s.store⟩ = r at hbecomes
  dsimp only
  cases r.refusal with
  | none =>
    obtain ⟨records, hrecords⟩ := Segment.records?_of_timed (htimed.becomes hbecomes) now
    simp only [hrecords, Option.map_some]
    exact ⟨_, _, [], [records], rfl, rfl, by simp [count], rfl, Or.inr ⟨rfl, _, _, hbecomes, hrecords, rfl⟩,
      Or.inl ⟨rfl, by decide⟩, fun h => by cases h⟩
  | some e =>
    simp only [Option.map_some, Session.defer, ParkedQueue.push]
    by_cases htries : s.intake.parked.maxRetries < failed + 1
    · rw [if_pos htries]
      exact ⟨_, _, [], [], rfl, rfl, by simp [count], by simp [count], Or.inl ⟨rfl, by decide⟩, Or.inl ⟨rfl, by decide⟩,
        fun _ => Or.inl (by omega)⟩
    · rw [if_neg htries]
      by_cases hroom : s.intake.parked.maxPending ≤ s.intake.parked.items.length
      · rw [if_pos hroom]
        exact ⟨_, _, [], [], rfl, rfl, by simp [count], by simp [count], Or.inl ⟨rfl, by decide⟩, Or.inl ⟨rfl, by decide⟩,
          fun _ => Or.inr hroom⟩
      · rw [if_neg hroom]
        exact ⟨_, _, [⟨r.value, failed + 1⟩], [], rfl, rfl, rfl, by simp [count], Or.inl ⟨rfl, by decide⟩,
          Or.inr ⟨rfl, by omega, Nat.lt_of_not_le hroom, _, hbecomes, rfl⟩, fun h => by cases h⟩

theorem Handled.length_again {s t : Session} {segment : Segment} {failed : Nat} {now : Int64} {o : IntakeOutcome}
    {back : List (Parked Segment)} {extra : List SegmentRecords} (h : s.Handled segment failed now o t back extra) :
    back.length = if o = .deferred then 1 else 0 := by
  rcases h.again with ⟨rfl, ho⟩ | ⟨rfl, _, _, form, _, rfl⟩
  · rw [if_neg ho]
    rfl
  · rfl

end Session

/-! ### Cases -/

/-- A case in which the records of the segment were offered once if it is submitted, and else not. -/
structure Case.Fair (maxRetries : Nat) (c : Case) : Prop where
  timed : c.segment.Timed
  tried : c.tried ≤ maxRetries + 1
  once : c.outcome = .submitted → ∃ form now records,
    c.segment.Becomes form ∧ form.records? now = some records ∧ c.offered = [records]
  never : c.outcome ≠ .submitted → c.offered = []

/-- The case of a parked segment. -/
structure Case.Stands (c : Case) (p : Parked Segment) : Prop where
  outcome : c.outcome = .deferred
  tried : c.tried = p.attempts
  becomes : c.segment.Becomes p.item

theorem Case.Fair.note {c : Case} {p : Parked Segment} {s t : Session} {o : IntakeOutcome} {now : Int64}
    {again : List (Parked Segment)} {extra : List SegmentRecords} {maxRetries : Nat} (hfair : c.Fair maxRetries)
    (hstands : c.Stands p) (hattempts : p.attempts ≤ maxRetries) (h : s.Handled p.item p.attempts now o t again extra) :
    (c.note o extra).Fair maxRetries := by
  have hnone : c.offered = [] := hfair.never (by rw [hstands.outcome]; decide)
  have htried := hstands.tried
  refine ⟨hfair.timed, ?_, fun ho => ?_, fun ho => ?_⟩
  · show c.tried + 1 ≤ _
    omega
  · rcases h.records with ⟨_, hno⟩ | ⟨_, form, records, hform, hrecords, hextra⟩
    · exact absurd ho hno
    · refine ⟨form, now, records, hstands.becomes.trans hform, hrecords, ?_⟩
      show c.offered ++ _ = _
      rw [hnone, hextra]
      rfl
  · rcases h.records with ⟨hextra, _⟩ | ⟨hyes, _⟩
    · show c.offered ++ _ = _
      rw [hnone, hextra]
      rfl
    · exact absurd hyes ho

/-! ### Dockets in order -/

namespace Docket

theorem segments_modify (d : Docket) (i : Nat) {f : Case → Case} (hf : ∀ c, (f c).segment = c.segment) :
    (d.cases.modify i f).map Case.segment = d.segments := by
  refine List.ext_getElem? fun j => ?_
  unfold segments
  rw [List.getElem?_map, List.getElem?_map, List.getElem?_modify]
  cases d.cases[j]? with
  | none => split <;> rfl
  | some c =>
    split
    · exact congrArg some (hf c)
    · rfl

def count (d : Docket) (o : IntakeOutcome) : Nat := d.cases.countP fun c => decide (c.outcome = o)

/-- The docket of an intake with some segments taken out of its queue and still in hand. -/
structure Kept (start : Session) (d : Docket) (hand : List (Nat × Parked Segment)) : Prop where
  retries : d.session.intake.parked.maxRetries = start.intake.parked.maxRetries
  room : d.session.intake.parked.maxPending = start.intake.parked.maxPending
  aligned : d.waiting.length = d.session.intake.parked.items.length
  order : ((d.queue ++ hand).map Prod.fst).Pairwise (· < ·)
  parked : ∀ e ∈ d.queue ++ hand, e.2.attempts ≤ start.intake.parked.maxRetries ∧
    ∃ c, d.cases[e.1]? = some c ∧ c.Stands e.2
  deferred : ∀ i c, d.cases[i]? = some c → c.outcome = .deferred → i ∈ (d.queue ++ hand).map Prod.fst
  cases : ∀ c ∈ d.cases, c.Fair start.intake.parked.maxRetries
  offered : d.session.offered.Perm (start.offered ++ d.cases.flatMap Case.offered)
  pending : d.count .deferred = d.queue.length + hand.length

theorem modify_split {α : Type} {l : List α} {i : Nat} {a : α} (h : l[i]? = some a) (f : α → α) :
    ∃ before after, l = before ++ a :: after ∧ l.modify i f = before ++ f a :: after := by
  obtain ⟨hi, rfl⟩ := List.getElem?_eq_some_iff.1 h
  refine ⟨l.take i, l.drop (i + 1), ?_, ?_⟩
  · rw [List.getElem_cons_drop, List.take_append_drop]
  · rw [List.modify_eq_take_cons_drop hi]

variable {start : Session} {d e : Docket} {i : Nat} {p : Parked Segment} {hand back : List (Nat × Parked Segment)}
  {c : Case} {f : Case → Case} {extra : List SegmentRecords}

theorem count_replace (hc : d.cases[i]? = some c) (hcases : e.cases = d.cases.modify i f) (o : IntakeOutcome) :
    e.count o + (if c.outcome = o then 1 else 0) = d.count o + if (f c).outcome = o then 1 else 0 := by
  obtain ⟨before, after, hsplit, hmodified⟩ := modify_split hc f
  unfold count
  rw [hcases, hmodified, hsplit]
  simp only [List.countP_append, List.countP_cons, decide_eq_true_eq]
  omega

theorem getElem?_replace (hc : d.cases[i]? = some c) (hcases : e.cases = d.cases.modify i f) (j : Nat) :
    e.cases[j]? = if i = j then some (f c) else d.cases[j]? := by
  rw [hcases, List.getElem?_modify]
  split
  · rename_i heq
    rw [← heq, hc]
    rfl
  · exact congrFun Option.map_id _

theorem mem_replace (hc : d.cases[i]? = some c) (hcases : e.cases = d.cases.modify i f) {x : Case} (hx : x ∈ e.cases) :
    x = f c ∨ x ∈ d.cases := by
  obtain ⟨j, hj⟩ := List.getElem?_of_mem hx
  rw [getElem?_replace hc hcases] at hj
  split at hj
  · exact Or.inl (Option.some.inj hj).symm
  · exact Or.inr (List.mem_of_getElem? hj)

theorem offered_replace (hc : d.cases[i]? = some c) (hcases : e.cases = d.cases.modify i f)
    (hextra : (f c).offered = c.offered ++ extra) :
    (e.cases.flatMap Case.offered).Perm (d.cases.flatMap Case.offered ++ extra) := by
  obtain ⟨before, after, hsplit, hmodified⟩ := modify_split hc f
  rw [hcases, hmodified, hsplit]
  simp only [List.flatMap_append, List.flatMap_cons, hextra, List.append_assoc]
  exact ((List.perm_append_comm).append_left _).append_left _

/-- The segment in hand has a case. -/
theorem Kept.inHand (h : Kept start d ((i, p) :: hand)) :
    p.attempts ≤ start.intake.parked.maxRetries ∧ ∃ c, d.cases[i]? = some c ∧ c.Stands p :=
  h.parked (i, p) (List.mem_append_right _ (List.mem_cons_self ..))

/-- It has its number for itself. -/
theorem Kept.apart (h : Kept start d ((i, p) :: hand)) : ∀ x ∈ d.queue ++ hand, x.1 ≠ i := by
  have horder := h.order
  rw [List.map_append, List.map_cons] at horder
  obtain ⟨_, hrest, hacross⟩ := List.pairwise_append.1 horder
  obtain ⟨hafter, _⟩ := List.pairwise_cons.1 hrest
  intro x hx heq
  rcases List.mem_append.1 hx with hx | hx
  · have hlt := hacross x.1 (List.mem_map_of_mem hx) i (List.mem_cons_self ..)
    omega
  · have hlt := hafter x.1 (List.mem_map_of_mem hx)
    omega

/-- The case of the segment in hand changes, and the segment is parked again if it is deferred. -/
theorem Kept.replace (h : Kept start d ((i, p) :: hand)) (hc : d.cases[i]? = some c)
    (hcases : e.cases = d.cases.modify i f)
    (hretries : e.session.intake.parked.maxRetries = d.session.intake.parked.maxRetries)
    (hroom : e.session.intake.parked.maxPending = d.session.intake.parked.maxPending)
    (haligned : e.waiting.length = e.session.intake.parked.items.length) (hqueue : e.queue = d.queue ++ back)
    (hback : ∀ x ∈ back, x.1 = i ∧ x.2.attempts ≤ start.intake.parked.maxRetries ∧ (f c).Stands x.2)
    (hlength : back.length = if (f c).outcome = .deferred then 1 else 0)
    (hfair : (f c).Fair start.intake.parked.maxRetries) (hextra : (f c).offered = c.offered ++ extra)
    (hoffered : e.session.offered = d.session.offered ++ extra) : Kept start e hand := by
  have hget := getElem?_replace hc hcases
  have hbackcases : back = [] ∧ (f c).outcome ≠ .deferred ∨ ∃ q, back = [(i, q)] := by
    split at hlength
    · obtain ⟨x, rfl⟩ := List.length_eq_one_iff.1 hlength
      exact Or.inr ⟨x.2, by rw [← (hback x (List.mem_singleton_self x)).1]⟩
    · rename_i ho
      exact Or.inl ⟨List.eq_nil_of_length_eq_zero hlength, ho⟩
  refine ⟨hretries.trans h.retries, hroom.trans h.room, haligned, ?_, ?_, ?_, ?_, ?_, ?_⟩
  · have horder := h.order
    rw [List.map_append, List.map_cons] at horder
    rw [hqueue]
    rcases hbackcases with ⟨rfl, _⟩ | ⟨q, rfl⟩
    · rw [List.append_nil, List.map_append]
      exact horder.sublist ((List.sublist_cons_self _ _).append_left _)
    · rw [List.append_assoc, List.map_append]
      exact horder
  · intro x hx
    rw [hqueue, List.append_assoc] at hx
    simp only [List.mem_append] at hx
    rcases or_left_comm.1 hx with hx | hx
    · obtain ⟨hi, hattempts, hs⟩ := hback x hx
      exact ⟨hattempts, f c, by rw [hget, if_pos hi.symm], hs⟩
    · have hmem : x ∈ d.queue ++ (i, p) :: hand := by
        simp only [List.mem_append, List.mem_cons]
        exact hx.imp_right Or.inr
      obtain ⟨hattempts, c', hc', hs⟩ := h.parked x hmem
      exact ⟨hattempts, c', by rw [hget, if_neg (Ne.symm (h.apart x (List.mem_append.2 hx))), hc'], hs⟩
  · intro j c' hc' ho
    rw [hget] at hc'
    rw [hqueue]
    split at hc'
    · rename_i heq
      cases hc'
      rcases hbackcases with ⟨_, hno⟩ | ⟨q, rfl⟩
      · exact absurd ho hno
      · simp [heq]
    · rename_i hne
      have hmem := h.deferred j c' hc' ho
      simp only [List.map_append, List.map_cons, List.mem_append, List.mem_cons] at hmem ⊢
      rcases hmem with hmem | heq | hmem
      · exact Or.inl (Or.inl hmem)
      · exact absurd heq.symm hne
      · exact Or.inr hmem
  · intro x hx
    rcases mem_replace hc hcases hx with rfl | hx
    · exact hfair
    · exact h.cases x hx
  · rw [hoffered]
    refine (h.offered.append_right extra).trans ?_
    rw [List.append_assoc]
    exact (offered_replace hc hcases hextra).symm.append_left _
  · obtain ⟨_, c', hc', hstands⟩ := h.inHand
    cases hc.symm.trans hc'
    have hpending := h.pending
    have hcount := count_replace hc hcases .deferred
    rw [if_pos hstands.outcome, ← hlength] at hcount
    rw [hqueue, List.length_append]
    rw [List.length_cons] at hpending
    omega

/-! ### An attempt -/

variable {o : IntakeOutcome} {t : Session} {now : Int64} {again : List (Parked Segment)}

theorem length_queue (h : d.waiting.length = d.session.intake.parked.items.length) :
    d.queue.length = d.session.intake.pending := by
  unfold queue Intake.pending ParkedQueue.length
  rw [List.length_zip, h, Nat.min_self]

theorem waiting_note {s : Session} (h : s.Handled p.item p.attempts now o t again extra) (d : Docket) (i : Nat) :
    (d.note i o t).waiting = d.waiting ++ again.map fun _ => i := by
  rcases h.again with ⟨rfl, ho⟩ | ⟨rfl, _, _, form, _, rfl⟩
  · simp [note, ho]
  · rfl

theorem queue_note (haligned : d.waiting.length = d.session.intake.parked.items.length)
    (h : d.session.Handled p.item p.attempts now o t again extra) (i : Nat) :
    (d.note i o t).queue = d.queue ++ again.map fun q => (i, q) := by
  show (d.note i o t).waiting.zip t.intake.parked.items = _
  rw [waiting_note h, h.parked, List.zip_append haligned]
  congr 1
  rcases h.again with ⟨rfl, _⟩ | ⟨_, _, _, form, _, rfl⟩ <;> rfl

theorem Kept.note (h : Kept start d ((i, p) :: hand))
    (hhandled : d.session.Handled p.item p.attempts now o t again extra) : Kept start (d.note i o t) hand := by
  obtain ⟨hattempts, c, hc, hstands⟩ := h.inHand
  have hfair := (h.cases c (List.mem_of_getElem? hc)).note hstands hattempts hhandled
  have hdrop : t.offered.drop d.session.offered.length = extra := by rw [hhandled.offered, List.drop_left]
  rw [← hdrop] at hfair
  have hparked := hhandled.parked
  have hretries : t.intake.parked.maxRetries = d.session.intake.parked.maxRetries := by rw [hparked]
  have hroom : t.intake.parked.maxPending = d.session.intake.parked.maxPending := by rw [hparked]
  have haligned : (d.note i o t).waiting.length = t.intake.parked.items.length := by
    rw [waiting_note hhandled, hparked]
    simp [h.aligned]
  have hlength : (again.map fun q => (i, q)).length = if o = .deferred then 1 else 0 := by
    rw [List.length_map]
    exact hhandled.length_again
  refine h.replace hc rfl hretries hroom haligned (queue_note h.aligned hhandled i) ?_ hlength hfair
    (congrArg (c.offered ++ ·) hdrop) hhandled.offered
  intro x hx
  rcases hhandled.again with ⟨rfl, _⟩ | ⟨rfl, htries, _, form, hform, rfl⟩
  · cases hx
  · rw [List.mem_singleton.1 hx]
    have hretries := h.retries
    have htried : c.tried + 1 = p.attempts + 1 := congrArg (· + 1) hstands.tried
    refine ⟨rfl, ?_, rfl, htried, hstands.becomes.trans hform⟩
    show p.attempts + 1 ≤ _
    omega

/-- The counters tell how many segments are submitted and discarded. -/
structure Tallied (start : Session) (d : Docket) : Prop where
  resolved : d.session.counters.get (.nameOutcomes "resolved") =
    start.counters.get (.nameOutcomes "resolved") + d.count .submitted
  discarded : d.session.counters.get (.nameOutcomes "discarded") =
    start.counters.get (.nameOutcomes "discarded") + d.count .discarded

theorem Tallied.note (htally : Tallied start d) (hc : d.cases[i]? = some c) (hdeferred : c.outcome = .deferred)
    (hcounted : t.counters = d.session.counters.add (.nameOutcomes (label o)) 1) : Tallied start (d.note i o t) := by
  have hcount : ∀ o', o' ≠ .deferred → (d.note i o t).count o' = d.count o' + if o = o' then 1 else 0 := by
    intro o' ho'
    have hcount := count_replace (e := d.note i o t) hc rfl o'
    rw [hdeferred, if_neg (Ne.symm ho')] at hcount
    exact hcount
  refine ⟨?_, ?_⟩
  · show t.counters.get _ = _
    rw [hcounted, Counters.get_add, hcount _ (by decide), htally.resolved, Nat.add_assoc]
    cases o <;> rfl
  · show t.counters.get _ = _
    rw [hcounted, Counters.get_add, hcount _ (by decide), htally.discarded, Nat.add_assoc]
    cases o <;> rfl

/-- What an attempt at a segment in hand comes to. -/
structure Attempted (start : Session) (d : Docket) (i : Nat) (p : Parked Segment) (o : IntakeOutcome) (e : Docket) :
    Prop where
  segments : e.segments = d.segments
  tried : e.tried = d.tried ++ [i]
  case : ∃ c, e.cases[i]? = some c ∧ c.outcome = o ∧ c.tried = p.attempts + 1
  others : ∀ j, j ≠ i → e.cases[j]? = d.cases[j]?
  queue : e.queue.length = d.queue.length + if o = .deferred then 1 else 0
  room : o = .deferred → d.queue.length < start.intake.parked.maxPending
  turnedAway : o = .discarded →
    start.intake.parked.maxRetries ≤ p.attempts ∨ start.intake.parked.maxPending ≤ d.queue.length

theorem Kept.attempted (h : Kept start d ((i, p) :: hand))
    (hhandled : d.session.Handled p.item p.attempts now o t again extra) : Attempted start d i p o (d.note i o t) := by
  obtain ⟨_, c, hc, hstands⟩ := h.inHand
  have hlength := length_queue h.aligned
  have hget : ∀ j, (d.note i o t).cases[j]? = _ := getElem?_replace hc rfl
  refine ⟨d.segments_modify i fun _ => rfl, rfl, ⟨_, (hget i).trans (if_pos rfl), rfl, congrArg (· + 1) hstands.tried⟩,
    fun j hj => (hget j).trans (if_neg (Ne.symm hj)), ?_, fun ho => ?_, fun ho => ?_⟩
  · rw [queue_note h.aligned hhandled, List.length_append, List.length_map, hhandled.length_again]
  · rcases hhandled.again with ⟨_, hno⟩ | ⟨_, _, hroom, _⟩
    · exact absurd ho hno
    · rw [hlength, ← h.room]
      exact hroom
  · have hturned := hhandled.turnedAway ho
    rw [h.retries, h.room, ← hlength] at hturned
    exact hturned

theorem Kept.handle (h : Kept start d ((i, p) :: hand)) (now : Int64) :
    ∃ o e, d.handle i p.item p.attempts now = some (o, e) ∧ Kept start e hand ∧ (Tallied start d → Tallied start e) ∧
      Attempted start d i p o e := by
  obtain ⟨_, c, hc, hstands⟩ := h.inHand
  have htimed := (h.cases c (List.mem_of_getElem? hc)).timed.becomes hstands.becomes
  obtain ⟨o, t, again, extra, hhandle, hhandled⟩ := Session.handled htimed d.session p.attempts now
  exact ⟨o, d.note i o t, by unfold Docket.handle; rw [hhandle]; rfl, h.note hhandled,
    fun htally => htally.note hc hstands.outcome hhandled.counted, h.attempted hhandled⟩

/-! ### Rounds -/

theorem Kept.counted (h : Kept start d hand) (name : String) (n : Nat) :
    Kept start { d with session := d.session.count name n } hand :=
  ⟨h.retries, h.room, h.aligned, h.order, h.parked, h.deferred, h.cases, h.offered, h.pending⟩

/-- What a round over segments in hand comes to. -/
structure Retried (start : Session) (d : Docket) (hand : List (Nat × Parked Segment)) (before after : IntakeReport)
    (e : Docket) : Prop where
  segments : e.segments = d.segments
  tried : e.tried = d.tried ++ hand.map Prod.fst
  total : after.submitted + after.deferred + after.discarded =
    before.submitted + before.deferred + before.discarded + hand.length
  deferred : after.deferred + d.queue.length = before.deferred + e.queue.length
  room : e.queue.length ≤ start.intake.parked.maxPending
  others : ∀ j, j ∉ hand.map Prod.fst → e.cases[j]? = d.cases[j]?
  exhausted : ∀ x ∈ hand, ∃ c, e.cases[x.1]? = some c ∧ c.tried = x.2.attempts + 1 ∧
    (c.outcome = .discarded → c.tried = start.intake.parked.maxRetries + 1)

theorem Retried.cons {before after : IntakeReport} {r : Docket} (h : Kept start d ((i, p) :: hand))
    (hroom : d.queue.length < start.intake.parked.maxPending) (hattempted : Attempted start d.countRetried i p o e)
    (hretried : Retried start e hand (before.note o) after r) : Retried start d ((i, p) :: hand) before after r := by
  have hqueue : e.queue.length = d.queue.length + if o = .deferred then 1 else 0 := hattempted.queue
  refine ⟨hretried.segments.trans hattempted.segments, ?_, ?_, ?_, hretried.room, ?_, ?_⟩
  · rw [hretried.tried, hattempted.tried, List.append_assoc]
    rfl
  · have htotal := hretried.total
    rw [List.length_cons]
    cases o <;> simp only [IntakeReport.note] at htotal <;> omega
  · have hdeferred := hretried.deferred
    cases o <;> simp only [IntakeReport.note, reduceCtorEq, if_true, if_false] at hdeferred hqueue <;> omega
  · intro j hj
    rw [List.map_cons, List.mem_cons, not_or] at hj
    exact (hretried.others j hj.2).trans (hattempted.others j hj.1)
  · intro x hx
    rcases List.mem_cons.1 hx with rfl | hx
    · obtain ⟨c, hc, ho, htried⟩ := hattempted.case
      -- The segment tried first is not tried again in the round.
      have hnot : i ∉ hand.map Prod.fst := by
        intro hmem
        obtain ⟨y, hy, heq⟩ := List.mem_map.1 hmem
        exact h.apart y (List.mem_append_right _ hy) heq
      refine ⟨c, (hretried.others i hnot).trans hc, htried, fun hdiscarded => ?_⟩
      -- There was room for the segment, so it must have used up its attempts.
      rcases hattempted.turnedAway (ho.symm.trans hdiscarded) with hlast | hfull
      · have hattempts := h.inHand.1
        rw [htried]
        omega
      · exact absurd hroom (Nat.not_lt_of_le hfull)
    · exact hretried.exhausted x hx

theorem Tallied.countRetried (h : Tallied start d) : Tallied start d.countRetried where
  resolved := (Counters.get_add _ _ _ _).trans h.resolved
  discarded := (Counters.get_add _ _ _ _).trans h.discarded

theorem Kept.round (h : Kept start d hand) (htally : Tallied start d)
    (hroom : d.queue.length + hand.length ≤ start.intake.parked.maxPending) (now : Int64) (before : IntakeReport) :
    ∃ after e, hand.foldlM (retryOne now) (before, d) = some (after, e) ∧ Kept start e [] ∧ Tallied start e ∧
      Retried start d hand before after e := by
  induction hand generalizing d before with
  | nil =>
    exact ⟨before, d, rfl, h, htally, rfl, (List.append_nil _).symm, rfl, rfl, hroom, fun _ _ => rfl,
      fun x hx => absurd hx List.not_mem_nil⟩
  | cons x hand ih =>
    obtain ⟨i, p⟩ := x
    rw [List.length_cons] at hroom
    obtain ⟨o, e, hhandle, hkept, htallied, hattempted⟩ := (h.counted "retried" 1).handle now
    have hqueue : e.queue.length = d.queue.length + if o = .deferred then 1 else 0 := hattempted.queue
    have hroom' : e.queue.length + hand.length ≤ start.intake.parked.maxPending := by
      rw [hqueue]
      split <;> omega
    obtain ⟨after, r, hfold, hkept', htally', hretried⟩ :=
      ih hkept (htallied htally.countRetried) hroom' (before.note o)
    refine ⟨after, r, ?_, hkept', htally', .cons h (by omega) hattempted hretried⟩
    have hone : retryOne now (before, d) (i, p) = some (before.note o, e) := by
      unfold retryOne
      exact congrArg (Option.map _) hhandle
    rw [List.foldlM_cons, hone]
    exact hfold

theorem Kept.taken (h : Kept start d []) : Kept start d.taken d.queue where
  retries := h.retries
  room := h.room
  aligned := rfl
  order := by simpa [Docket.taken, queue] using h.order
  parked e he := h.parked e (by simpa [Docket.taken, queue] using he)
  deferred i c hc ho := by simpa [Docket.taken, queue] using h.deferred i c hc ho
  cases := h.cases
  offered := h.offered
  pending := by simpa [Docket.taken, queue, count] using h.pending

theorem map_fst_queue (h : d.waiting.length = d.session.intake.parked.items.length) :
    d.queue.map Prod.fst = d.waiting :=
  List.map_fst_zip (Nat.le_of_eq h)

/-! ### Giving up -/

theorem Kept.giveUp (h : Kept start d ((i, p) :: hand)) :
    Kept start (d.giveUp i) hand ∧ (d.giveUp i).count .discarded = d.count .discarded + 1 ∧
      (d.giveUp i).count .submitted = d.count .submitted := by
  obtain ⟨_, c, hc, hstands⟩ := h.inHand
  have hfair := h.cases c (List.mem_of_getElem? hc)
  have hnone : c.offered = [] := hfair.never (by rw [hstands.outcome]; decide)
  have hdiscarded := count_replace (e := d.giveUp i) hc rfl .discarded
  have hsubmitted := count_replace (e := d.giveUp i) hc rfl .submitted
  simp only [hstands.outcome] at hdiscarded hsubmitted
  have hqueue : (d.giveUp i).queue = d.queue ++ [] := (List.append_nil _).symm
  have hoffered : (d.giveUp i).session.offered = d.session.offered ++ [] := (List.append_nil _).symm
  have hfair' : Case.Fair start.intake.parked.maxRetries { c with outcome := .discarded } :=
    ⟨hfair.timed, hfair.tried, (fun ho => by cases ho), fun _ => hnone⟩
  exact ⟨h.replace hc rfl rfl rfl h.aligned hqueue (by simp) rfl hfair' (List.append_nil _).symm hoffered,
    by simpa using hdiscarded, by simpa using hsubmitted⟩

theorem Kept.giveUpAll (h : Kept start d hand) :
    Kept start ((hand.map Prod.fst).foldl Docket.giveUp d) [] ∧
      ((hand.map Prod.fst).foldl Docket.giveUp d).count .discarded = d.count .discarded + hand.length ∧
      ((hand.map Prod.fst).foldl Docket.giveUp d).count .submitted = d.count .submitted := by
  induction hand generalizing d with
  | nil => exact ⟨h, rfl, rfl⟩
  | cons x hand ih =>
    obtain ⟨hkept, hdiscarded, hsubmitted⟩ := h.giveUp
    obtain ⟨hkept', hdiscarded', hsubmitted'⟩ := ih hkept
    refine ⟨hkept', hdiscarded'.trans ?_, hsubmitted'.trans hsubmitted⟩
    rw [hdiscarded, List.length_cons]
    omega

theorem segments_giveUp (is : List Nat) (d : Docket) : (is.foldl Docket.giveUp d).segments = d.segments := by
  induction is generalizing d with
  | nil => rfl
  | cons i is ih => exact (ih (d.giveUp i)).trans (d.segments_modify i fun _ => rfl)

/-! ### Calls -/

/-- The docket of an intake that started as `start` did, with no call under way. -/
structure AtRest (start : Session) (d : Docket) : Prop where
  kept : Kept start d []
  tallied : Tallied start d
  room : d.session.intake.pending ≤ start.intake.parked.maxPending

variable {segment : Segment}

theorem AtRest.opening (h : start.intake.parked.items = []) : AtRest start { session := start } where
  kept := by
    have hqueue : ({ session := start } : Docket).queue = [] := rfl
    refine ⟨rfl, rfl, by rw [h]; rfl, ?_, ?_, ?_, ?_, ?_, ?_⟩
    · rw [hqueue]
      exact .nil
    · rw [hqueue]
      exact fun x hx => absurd hx List.not_mem_nil
    · exact fun i c hc => absurd hc (by simp)
    · exact fun c hc => absurd hc List.not_mem_nil
    · simp
    · rfl
  tallied := ⟨rfl, rfl⟩
  room := by
    unfold Intake.pending ParkedQueue.length
    rw [h]
    exact Nat.zero_le _

theorem Kept.enter (h : Kept start d []) (htimed : segment.Timed) :
    Kept start (d.enter segment) [(d.cases.length, ⟨segment, 0⟩)] := by
  have hold := h.parked
  have holder := h.deferred
  rw [List.append_nil] at hold holder
  have horder := h.order
  rw [List.append_nil] at horder
  have hqueue : (d.enter segment).queue = d.queue := rfl
  have hcases : (d.enter segment).cases = d.cases ++ [({ segment } : Case)] := rfl
  refine ⟨h.retries, h.room, h.aligned, ?_, ?_, ?_, ?_, ?_, ?_⟩
  · rw [hqueue, List.map_append]
    refine List.pairwise_append.2 ⟨horder, List.pairwise_singleton _ _, fun i hi j hj => ?_⟩
    obtain ⟨x, hx, rfl⟩ := List.mem_map.1 hi
    obtain ⟨_, c, hc, _⟩ := hold x hx
    rw [List.mem_singleton.1 hj]
    exact (List.getElem?_eq_some_iff.1 hc).1
  · intro x hx
    rcases List.mem_append.1 hx with hx | hx
    · obtain ⟨hattempts, c, hc, hstands⟩ := hold x hx
      exact ⟨hattempts, c, List.getElem?_append_left (List.getElem?_eq_some_iff.1 hc).1 ▸ hc, hstands⟩
    · rw [List.mem_singleton.1 hx]
      exact ⟨Nat.zero_le _, _, List.getElem?_concat_length, rfl, rfl, .refl segment⟩
  · intro i c hc ho
    rw [hqueue, List.map_append]
    rw [hcases] at hc
    rcases Nat.lt_or_ge i d.cases.length with hi | hi
    · rw [List.getElem?_append_left hi] at hc
      exact List.mem_append_left _ (holder i c hc ho)
    · have hlength := (List.getElem?_eq_some_iff.1 hc).1
      rw [List.length_append, List.length_singleton] at hlength
      have heq : i = d.cases.length := by omega
      exact List.mem_append_right _ (List.mem_singleton.2 heq)
  · intro c hc
    rcases List.mem_append.1 hc with hc | hc
    · exact h.cases c hc
    · rw [List.mem_singleton.1 hc]
      exact ⟨htimed, Nat.zero_le _, (fun ho => by cases ho), fun _ => rfl⟩
  · have hflat : (d.enter segment).cases.flatMap Case.offered = d.cases.flatMap Case.offered := by
      rw [hcases, List.flatMap_append]
      exact List.append_nil _
    rw [hflat]
    exact h.offered
  · have hpending := h.pending
    unfold count at hpending ⊢
    rw [hcases, List.countP_append, hpending, hqueue]
    rfl

theorem AtRest.ingest (h : AtRest start d) (htimed : segment.Timed) (now : Int64) :
    ∃ o e, d.ingest segment now = some (o, e) ∧ AtRest start e ∧ e.segments = d.segments ++ [segment] := by
  have htally : Tallied start (d.enter segment) := by
    have hcount : ∀ o, o ≠ .deferred → (d.enter segment).count o = d.count o := by
      intro o ho
      unfold count enter
      rw [List.countP_append, List.countP_singleton, if_neg (by simpa using Ne.symm ho)]
      rfl
    refine ⟨?_, ?_⟩
    · rw [hcount _ (by decide)]
      exact h.tallied.resolved
    · rw [hcount _ (by decide)]
      exact h.tallied.discarded
  obtain ⟨o, e, hhandle, hkept, htallied, hattempted⟩ := (h.kept.enter htimed).handle now
  refine ⟨o, e, hhandle, ⟨hkept, htallied htally, ?_⟩, hattempted.segments.trans List.map_append⟩
  have hroom := h.room
  have hqueue : e.queue.length = d.queue.length + if o = .deferred then 1 else 0 := hattempted.queue
  have hfree : o = .deferred → d.queue.length < start.intake.parked.maxPending := hattempted.room
  rw [← length_queue h.kept.aligned] at hroom
  rw [← length_queue hkept.aligned, hqueue]
  split
  · rename_i ho
    exact hfree ho
  · exact hroom

theorem AtRest.retry (h : AtRest start d) (now : Int64) :
    ∃ report e, d.retry now = some (report, e) ∧ AtRest start e ∧ Retried start d.taken d.queue {} report e := by
  have hlen := length_queue h.kept.aligned
  have hroom := h.room
  have hempty : d.taken.queue.length = 0 := by simp [Docket.taken, queue]
  obtain ⟨report, e, hretry, hkept, htallied, hretried⟩ :=
    h.kept.taken.round ⟨h.tallied.resolved, h.tallied.discarded⟩ (by omega) now {}
  exact ⟨report, e, hretry, ⟨hkept, htallied, length_queue hkept.aligned ▸ hretried.room⟩, hretried⟩

/-- What giving up all parked segments comes to; they are not counted yet. -/
structure Abandoned (start : Session) (d e : Docket) : Prop where
  kept : Kept start e []
  segments : e.segments = d.segments
  pending : e.session.intake.pending = 0
  counters : e.session.counters = d.session.counters
  submitted : e.count .submitted = d.count .submitted
  discarded : e.count .discarded = d.count .discarded + d.session.intake.pending

theorem AtRest.abandon (h : AtRest start d) : Abandoned start d d.abandon := by
  obtain ⟨hkept, hdiscarded, hsubmitted⟩ := h.kept.taken.giveUpAll
  rw [map_fst_queue h.kept.aligned] at hkept hdiscarded hsubmitted
  rw [length_queue h.kept.aligned] at hdiscarded
  refine ⟨hkept, segments_giveUp d.waiting d.taken, ?_, ?_, hsubmitted, hdiscarded⟩
  · rw [session_abandon]
    rfl
  · rw [session_abandon]
    rfl

theorem Tallied.abandoned {n : Nat} (h : Tallied start d) (ha : Abandoned start d e) (hn : d.session.intake.pending = n)
    {s : Session}
    (hresolved : s.counters.get (.nameOutcomes "resolved") = e.session.counters.get (.nameOutcomes "resolved"))
    (hdropped : s.counters.get (.nameOutcomes "discarded") = e.session.counters.get (.nameOutcomes "discarded") + n) :
    Tallied start { e with session := s } := by
  have hcounters := ha.counters
  refine ⟨?_, ?_⟩
  · show s.counters.get _ = _ + e.count .submitted
    rw [hresolved, hcounters, ha.submitted]
    exact h.resolved
  · show s.counters.get _ = _ + e.count .discarded
    rw [hdropped, hcounters, ha.discarded, hn, h.discarded, Nat.add_assoc]

theorem AtRest.finish (h : AtRest start d) (now : Int64) :
    ∃ report e, d.finish now = some (report, e) ∧ AtRest start e ∧ e.segments = d.segments ∧
      e.session.intake.pending = 0 ∧ report.deferred = 0 ∧
      report.submitted + report.discarded = d.session.intake.pending := by
  obtain ⟨report, r, hretry, hrest, hretried⟩ := h.retry now
  have ha := hrest.abandon
  have hsegments := ha.segments.trans hretried.segments
  have hempty : d.taken.queue.length = 0 := by simp [Docket.taken, queue]
  have hqueue := length_queue h.kept.aligned
  have hleft := length_queue hrest.kept.aligned
  have htotal := hretried.total
  have hdeferred := hretried.deferred
  dsimp only at htotal hdeferred
  have hroom : r.abandon.session.intake.pending ≤ start.intake.parked.maxPending := by
    rw [ha.pending]
    exact Nat.zero_le _
  unfold Docket.finish
  rw [hretry]
  by_cases hnil : r.session.intake.parked.items.isEmpty
  · have hzero : r.session.intake.pending = 0 := List.length_eq_zero_iff.2 (List.isEmpty_iff.1 hnil)
    have htallied := hrest.tallied.abandoned ha hzero rfl rfl
    exact ⟨report, r.abandon, if_pos hnil, ⟨ha.kept, htallied, hroom⟩, hsegments, ha.pending, by omega, by omega⟩
  · have htallied := hrest.tallied.abandoned ha rfl (s := r.abandon.session.count "discarded" r.session.intake.pending)
      (Counters.get_add _ _ _ _) (Counters.get_add _ _ _ _)
    refine ⟨_, _, if_neg hnil, ⟨ha.kept.counted _ _, htallied, hroom⟩, hsegments, ha.pending, ?_, ?_⟩
    · show report.deferred - r.session.intake.pending = 0
      omega
    · show report.submitted + (report.discarded + r.session.intake.pending) = _
      omega

theorem AtRest.perform (h : AtRest start d) (call : IntakeCall) (htimed : ∀ segment ∈ segmentsOf [call], segment.Timed) :
    ∃ a e, d.perform call = some (a, e) ∧ AtRest start e ∧ e.segments = d.segments ++ segmentsOf [call] := by
  cases call with
  | ingest segment now =>
    obtain ⟨o, e, hingest, hrest, hsegments⟩ := h.ingest (htimed segment (List.mem_singleton_self _)) now
    exact ⟨.outcome o, e, congrArg (Option.map _) hingest, hrest, hsegments⟩
  | retry now =>
    obtain ⟨report, e, hretry, hrest, hretried⟩ := h.retry now
    exact ⟨.report report, e, congrArg (Option.map _) hretry, hrest, hretried.segments.trans (List.append_nil _).symm⟩
  | finish now =>
    obtain ⟨report, e, hfinish, hrest, hsegments, _⟩ := h.finish now
    exact ⟨.report report, e, congrArg (Option.map _) hfinish, hrest, hsegments.trans (List.append_nil _).symm⟩
  | elsewhere store =>
    have hkept := h.kept
    exact ⟨.done, _, rfl, ⟨⟨hkept.retries, hkept.room, hkept.aligned, hkept.order, hkept.parked, hkept.deferred,
      hkept.cases, hkept.offered, hkept.pending⟩, ⟨h.tallied.resolved, h.tallied.discarded⟩, h.room⟩,
      (List.append_nil _).symm⟩

/-- The docket comes to the end of every run, and the intake with it. -/
theorem AtRest.answersOf (h : AtRest start d) (calls : List IntakeCall)
    (htimed : ∀ segment ∈ segmentsOf calls, segment.Timed) :
    ∃ answers e, Intake.answersOf Docket.perform d calls = some (answers, e) ∧
      Intake.answersOf Session.perform d.session calls = some (answers, e.session) ∧ AtRest start e ∧
      e.segments = d.segments ++ segmentsOf calls := by
  induction calls generalizing d with
  | nil => exact ⟨[], d, rfl, rfl, h, (List.append_nil _).symm⟩
  | cons call rest ih =>
    have hsplit : segmentsOf (call :: rest) = segmentsOf [call] ++ segmentsOf rest :=
      List.filterMap_append (l := [call])
    rw [hsplit] at htimed ⊢
    obtain ⟨a, e, hperform, hrest, hsegments⟩ := h.perform call fun s hs => htimed s (List.mem_append_left _ hs)
    obtain ⟨answers, e', hrun, hrunSession, hrest', hsegments'⟩ :=
      ih hrest fun s hs => htimed s (List.mem_append_right _ hs)
    have hsession : d.session.perform call = some (a, e.session) := by
      rw [← perform_session h.kept.aligned, hperform]
      rfl
    refine ⟨a :: answers, e', ?_, ?_, hrest', ?_⟩
    · unfold Intake.answersOf
      rw [hperform, Option.bind_some, hrun]
      rfl
    · unfold Intake.answersOf
      rw [hsession, Option.bind_some, hrunSession]
      rfl
    · rw [hsegments', hsegments, List.append_assoc]

/-! ### Runs -/

/-- Each segment taken in is in one state, and the intake, its counters and the records offered
agree with that. -/
structure Conserved (start : Session) (d : Docket) : Prop where
  resolved : d.session.counters.get (.nameOutcomes "resolved") =
    start.counters.get (.nameOutcomes "resolved") + d.count .submitted
  discarded : d.session.counters.get (.nameOutcomes "discarded") =
    start.counters.get (.nameOutcomes "discarded") + d.count .discarded
  total : d.segments.length = d.count .submitted + d.count .discarded + d.session.intake.pending
  room : d.session.intake.pending ≤ start.intake.parked.maxPending
  order : d.waiting.Pairwise (· < ·)
  waiting : ∀ i, i ∈ d.waiting ↔ ∃ c, d.cases[i]? = some c ∧ c.outcome = .deferred
  parked : List.Forall₂ (fun i p => ∃ c, d.cases[i]? = some c ∧ c.Stands p) d.waiting d.session.intake.parked.items
  cases : ∀ c ∈ d.cases, c.Fair start.intake.parked.maxRetries
  offered : d.session.offered.Perm (start.offered ++ d.cases.flatMap Case.offered)

theorem count_states (d : Docket) : d.segments.length = d.count .submitted + d.count .discarded + d.count .deferred := by
  unfold segments count
  rw [List.length_map]
  induction d.cases with
  | nil => rfl
  | cons c rest ih =>
    simp only [List.length_cons, List.countP_cons, decide_eq_true_eq]
    cases c.outcome <;> simp only [reduceCtorEq, if_true, if_false] <;> omega

theorem AtRest.states (h : AtRest start d) : Conserved start d := by
  have hkept := h.kept
  have hqueue := map_fst_queue hkept.aligned
  have hdeferred := hkept.deferred
  have hparked := hkept.parked
  have horder := hkept.order
  have hpending := hkept.pending
  rw [List.append_nil] at hdeferred hparked horder
  rw [hqueue] at hdeferred horder
  rw [length_queue hkept.aligned, List.length_nil, Nat.add_zero] at hpending
  refine ⟨h.tallied.resolved, h.tallied.discarded, hpending ▸ d.count_states, h.room, horder, fun i => ⟨?_, ?_⟩,
    List.forall₂_iff_zip.2 ⟨hkept.aligned, fun hmem => (hparked _ hmem).2⟩, hkept.cases, hkept.offered⟩
  · intro hi
    rw [← hqueue] at hi
    obtain ⟨x, hx, rfl⟩ := List.mem_map.1 hi
    obtain ⟨_, c, hc, hstands⟩ := hparked x hx
    exact ⟨c, hc, hstands.outcome⟩
  · rintro ⟨c, hc, ho⟩
    exact hdeferred i c hc ho

/-- A round tries each parked segment once, oldest first, and discards none for lack of room. -/
def RetriesAll (start : Session) (d : Docket) (now : Int64) : Prop :=
  ∃ report e, d.retry now = some (report, e) ∧ d.session.retry now = some (report, e.session) ∧
    report.submitted + report.deferred + report.discarded = d.session.intake.pending ∧
    report.deferred = e.session.intake.pending ∧ e.tried = d.tried ++ d.waiting ∧
    ∀ i ∈ d.waiting, ∃ c, e.cases[i]? = some c ∧
      (c.outcome = .discarded → c.tried = start.intake.parked.maxRetries + 1)

/-- The last round leaves nothing parked. -/
def FinishesAll (d : Docket) (now : Int64) : Prop :=
  ∃ report e, d.finish now = some (report, e) ∧ d.session.finish now = some (report, e.session) ∧
    e.session.intake.pending = 0 ∧ report.deferred = 0 ∧
    report.submitted + report.discarded = d.session.intake.pending

theorem AtRest.retriesAll (h : AtRest start d) (now : Int64) : RetriesAll start d now := by
  obtain ⟨report, e, hretry, hrest, hretried⟩ := h.retry now
  have hsession := retry_session h.kept.aligned now
  rw [hretry] at hsession
  have hqueue := length_queue h.kept.aligned
  have hparked := length_queue hrest.kept.aligned
  have hempty : d.taken.queue.length = 0 := by simp [Docket.taken, queue]
  have htotal := hretried.total
  have hdeferred := hretried.deferred
  dsimp only at htotal hdeferred
  refine ⟨report, e, hretry, hsession.symm, by omega, by omega, ?_, fun i hi => ?_⟩
  · rw [← map_fst_queue h.kept.aligned]
    exact hretried.tried
  · rw [← map_fst_queue h.kept.aligned] at hi
    obtain ⟨x, hx, rfl⟩ := List.mem_map.1 hi
    obtain ⟨c, hc, _, hlast⟩ := hretried.exhausted x hx
    exact ⟨c, hc, hlast⟩

theorem AtRest.finishesAll (h : AtRest start d) (now : Int64) : FinishesAll d now := by
  obtain ⟨report, e, hfinish, _, _, hnone, hdeferred, htotal⟩ := h.finish now
  have hsession := finish_session h.kept.aligned now
  rw [hfinish] at hsession
  exact ⟨report, e, hfinish, hsession.symm, hnone, hdeferred, htotal⟩

theorem conserved (start : Session) (hparked : start.intake.parked.items = []) (calls : List IntakeCall)
    (htimed : ∀ segment ∈ segmentsOf calls, segment.Timed) :
    ∃ answers d, Intake.answersOf Docket.perform { session := start } calls = some (answers, d) ∧
      Intake.answersOf Session.perform start calls = some (answers, d.session) ∧ d.segments = segmentsOf calls ∧
      Conserved start d ∧ ∀ now, RetriesAll start d now ∧ FinishesAll d now := by
  obtain ⟨answers, d, hrun, hsession, hrest, hsegments⟩ := (AtRest.opening hparked).answersOf calls htimed
  exact ⟨answers, d, hrun, hsession, hsegments, hrest.states, fun now => ⟨hrest.retriesAll now, hrest.finishesAll now⟩⟩

/-- A segment of one call to a database. -/
def callOf (code : String) (start stop : Int64) : Segment where
  traceSegmentId := "s"
  applicationCode := code
  instanceUuid := "u"
  spans := [{ spanId := 0, kind := .exit, start, stop, peer := "db:5432" }]

/-- An intake that can park one segment, while the store refuses every call. -/
def cutOff : Session where
  intake := { parked := ⟨1, 1, []⟩ }
  store := { Store.fresh with plan := fun _ _ => .refuse "mapping table" }
  counters := .fresh

/-- The store answers again before the last segment comes in. -/
def outage : List IntakeCall :=
  [.ingest (callOf "shop" 0 25) 30, .ingest (callOf "pay" 5 5) 31, .retry 40, .elsewhere .fresh,
    .ingest (callOf "shop" 50 75) 80]

theorem conserved_outage : cutOff.intake.parked.items = [] ∧ callOf "pay" 5 5 ∈ segmentsOf outage ∧
    (∀ segment ∈ segmentsOf outage, segment.Timed) ∧ ∃ d, Intake.answersOf Session.perform cutOff outage =
        some ([.outcome .deferred, .outcome .discarded, .report { discarded := 1 }, .done, .outcome .submitted], d.session) ∧
      d.segments = segmentsOf outage ∧ Conserved cutOff d ∧ ∀ now, RetriesAll cutOff d now ∧ FinishesAll d now := by
  have htimed : ∀ segment ∈ segmentsOf outage, segment.Timed := by decide
  have hanswers : (Intake.answersOf Session.perform cutOff outage).map Prod.fst =
      some [.outcome .deferred, .outcome .discarded, .report { discarded := 1 }, .done, .outcome .submitted] := by rfl
  obtain ⟨answers, d, _, hsession, hsegments, hconserved, hnext⟩ := conserved cutOff rfl outage htimed
  rw [hsession] at hanswers
  exact ⟨rfl, by decide, htimed, d, Option.some.inj hanswers ▸ hsession, hsegments, hconserved, hnext⟩

end Docket

/-- The intake stops at a call that took longer than 64 bits can tell, and the segment is in no state. -/
theorem Session.ingest_endless :
    answersOf Session.perform { intake := { parked := ⟨3, 10, []⟩ }, store := .fresh, counters := .fresh }
      [.ingest (Docket.callOf "a" Int64.minValue Int64.maxValue) 0] = none := by
  rfl

end TraceRollup.Intake
