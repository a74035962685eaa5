import TraceRollup.Proofs.Registration
import TraceRollup.Proofs.Resolution

/-!
# Resolving a segment in several attempts

A refused attempt keeps what it has resolved, each name as a whole or not at all
(`Segment.Advances`). Attempts are made while others register names and the faults of the store
change (`Resolving`). Whatever was refused before, the attempt that succeeds leaves the segment
that a single attempt without faults makes of the original (`Resolving.resumes`).
-/

namespace TraceRollup

/-! ### Names and ids -/

namespace NameTable
variable {t u : NameTable} {space : NameSpace} {name : String} {scope : String → String}

/-- An id before and after: the same, or the one that the table gives where there was none. -/
def Assigns (t : NameTable) (space : NameSpace) (name : String) (before after : Int32) : Prop :=
  after = before ∨ before = 0 ∧ t.Gives space name after

theorem Assigns.within {i j : Int32} (h : t.Assigns space name i j) (hw : t.Within u) : u.Assigns space name i j :=
  h.imp_right fun hgiven => ⟨hgiven.1, hgiven.2.within hw⟩

theorem Assigns.eq_of_ne_zero {i j : Int32} (h : t.Assigns space name i j) (hi : i ≠ 0) : j = i :=
  h.resolve_right fun hgiven => hi hgiven.1

theorem Assigns.trans {i j k : Int32} (h : t.Assigns space name i j) (h' : t.Assigns space name j k) :
    t.Assigns space name i k := by
  rcases h with rfl | ⟨hi, hgives⟩
  · exact h'
  · rw [h'.eq_of_ne_zero hgives.nonzero]
    exact Or.inr ⟨hi, hgives⟩

theorem Assigns.unique {i j k : Int32} (h : t.Assigns space name i j) (h' : t.Assigns space name i k) (hj : j ≠ 0)
    (hk : k ≠ 0) : j = k := by
  rcases h with rfl | ⟨hi, hgives⟩
  · exact (h'.eq_of_ne_zero hj).symm
  · rcases h' with rfl | ⟨-, hgives'⟩
    · exact absurd hi hk
    · exact Option.some.inj (hgives.find.symm.trans hgives'.find)

/-- An id with its name before and after: the same, or the id that the table gives, the name
being gone. -/
def Replaces (t : NameTable) (space : NameSpace) (scope : String → String) (before after : Int32 × String) : Prop :=
  after = before ∨ (before.1 = 0 ∧ before.2 ≠ "") ∧ t.Gives space (scope before.2) after.1 ∧ after.2 = ""

/-- No name waits for its id. -/
def Settled (p : Int32 × String) : Prop := p.1 = 0 → p.2 = ""

theorem Replaces.within {p q : Int32 × String} (h : t.Replaces space scope p q) (hw : t.Within u) :
    u.Replaces space scope p q :=
  h.imp_right fun hgiven => ⟨hgiven.1, hgiven.2.1.within hw, hgiven.2.2⟩

theorem Replaces.eq_of_settled {p q : Int32 × String} (h : t.Replaces space scope p q) (hp : Settled p) : q = p :=
  h.resolve_right fun hgiven => hgiven.1.2 (hp hgiven.1.1)

theorem Replaces.trans {p q r : Int32 × String} (h : t.Replaces space scope p q) (h' : t.Replaces space scope q r) :
    t.Replaces space scope p r := by
  rcases h with rfl | ⟨hp, hgives, hname⟩
  · exact h'
  · rw [h'.eq_of_settled fun hzero => absurd hzero hgives.nonzero]
    exact Or.inr ⟨hp, hgives, hname⟩

theorem Replaces.unique {p q r : Int32 × String} (h : t.Replaces space scope p q) (h' : t.Replaces space scope p r)
    (hq : Settled q) (hr : Settled r) : q = r := by
  rcases h with rfl | ⟨hp, hgives, hname⟩
  · exact (h'.eq_of_settled hq).symm
  · rcases h' with rfl | ⟨-, hgives', hname'⟩
    · exact absurd (hr hp.1) hp.2
    · exact Prod.ext (Option.some.inj (hgives.find.symm.trans hgives'.find)) (hname.trans hname'.symm)

end NameTable

/-! ### Asking for an id -/

namespace NameRegistry

/-- What a registry and its store go on to: names are only added, in order, and what is
remembered stands in the table. -/
structure Naming.Leads (n m : Naming) : Prop where
  within : n.names.Within m.names
  numbered : ∀ space, n.names.Numbered space → m.names.Numbered space
  recalls : m.registry.Recalls m.names

namespace Naming.Leads
variable {n m l : Naming}

theorem refl (h : n.registry.Recalls n.names) : n.Leads n := ⟨.refl _, fun _ h => h, h⟩

theorem trans (h : n.Leads m) (h' : m.Leads l) : n.Leads l :=
  ⟨fun space name id hid => h'.within space name id (h.within space name id hid),
    fun space hspace => h'.numbered space (h.numbered space hspace), h'.recalls⟩

end Naming.Leads

theorem Call.Stepped.leads {c : Call} {n : Naming} {r : Call × Naming} (h : Stepped c n r) : n.Leads r.2 := by
  refine ⟨?_, fun space hspace => ?_, h.recalls⟩
  · rcases h.names with heq | heq
    · rw [heq]
      exact .refl _
    · rw [heq]
      exact n.names.within_create _ _
  · rcases h.names with heq | heq
    · rw [heq]
      exact hspace
    · rw [heq]
      exact hspace.create _ _

theorem Call.leads_advance (k : Nat) {c : Call} {n : Naming} (hr : n.registry.Recalls n.names) (hc : c.Holds n.names) :
    n.Leads (Call.advance k (c, n)).2 ∧ (Call.advance k (c, n)).1.request = c.request ∧
      (Call.advance k (c, n)).1.Holds (Call.advance k (c, n)).2.names := by
  induction k generalizing c n with
  | zero => exact ⟨.refl hr, rfl, hc⟩
  | succ k ih =>
    have hstep := Call.stepped hr hc
    obtain ⟨hleads, hrequest, hholds⟩ := ih hstep.recalls hstep.holds
    exact ⟨hstep.leads.trans hleads, hrequest.trans hstep.request, hholds⟩

namespace Naming

/-- An id that is obtained stands in the table. -/
theorem leads_obtain {n : Naming} (hr : n.registry.Recalls n.names) (space : NameSpace) (name : String) :
    n.Leads (n.obtain space name).2 ∧
      ∀ id, (n.obtain space name).1 = .ok id → (n.obtain space name).2.names.Gives space name id := by
  obtain ⟨hleads, -, hholds⟩ := Call.leads_advance 4 (c := ⟨.obtain space name, .recalling⟩) hr fun _ h => by cases h
  rw [Call.advance_alone] at hleads hholds
  refine ⟨hleads, fun id hid => hholds id ?_⟩
  show Progress.id? (.answered ((n.obtain space name).1.map some)) = some id
  rw [hid]
  rfl

/-- What is remembered stands in the table, and the store answers every call. -/
structure Reliable (n : Naming) : Prop where
  recalls : n.registry.Recalls n.names
  answers : ∀ history call, n.store.plan history call = .answer

/-- A reliable registry gives the id that stands in the table, and adds no name. -/
theorem obtain_of_gives {n : Naming} (h : n.Reliable) {space : NameSpace} {name : String} {id : Int32}
    (hid : n.names.Gives space name id) :
    ∃ m, n.obtain space name = (.ok id, m) ∧ m.Reliable ∧ m.names = n.names := by
  unfold obtain resolve
  cases hk : n.registry.known? space name with
  | some known =>
    have hknown := (h.recalls space name known hk).find
    cases hknown.symm.trans hid.find
    exact ⟨n, rfl, h, rfl⟩
  | none =>
    have hfind : n.store.findName space.name name =
        (.ok (some id), { n.store with history := ⟨.find space.name name, .answer⟩ :: n.store.history }) := by
      unfold Store.findName Store.meet
      rw [h.answers]
      exact congrArg (fun found => (Except.ok found, _)) hid.find
    obtain ⟨hgiven, hrecalls⟩ := h.recalls.remember hid
    rw [hfind]
    simp only [if_neg hid.nonzero, hgiven]
    exact ⟨_, rfl, ⟨hrecalls, h.answers⟩, rfl⟩

end Naming
end NameRegistry

theorem Registration.Faithful.within_perform {s : Registration} (h : s.Faithful) (m : RegistrationMove) :
    s.names.Within (s.perform m).names := by
  cases m with
  | make k request => exact .refl _
  | elsewhere store => exact .refl _
  | step i =>
    unfold Registration.perform
    dsimp only
    split
    · exact .refl _
    · rename_i k c hget
      exact (NameRegistry.Call.stepped (n := ⟨s.registries k, s.store⟩) (h.recalls k)
        (h.holds _ (List.mem_of_getElem? hget))).leads.within

/-! ### Spans -/

open NameRegistry (Naming scopedName)

namespace Span

/-- A span before and after an attempt: its peer and its operation are as they were, or have given
way to their ids, and nothing else has changed. -/
structure Advances (t : NameTable) (application : Int32) (s u : Span) : Prop where
  bare : u.bare = s.bare
  peer : t.Replaces .address (fun name => name) (s.peerId, s.peer) (u.peerId, u.peer)
  operation : t.Replaces .serviceName (scopedName application) (s.operationId, s.operationName)
    (u.operationId, u.operationName)

/-- Neither the peer nor the operation waits for its id. -/
structure Complete (s : Span) : Prop where
  peer : NameTable.Settled (s.peerId, s.peer)
  operation : NameTable.Settled (s.operationId, s.operationName)

theorem eq_of_bare {s u : Span} (hbare : u.bare = s.bare) (hpeer : (u.peerId, u.peer) = (s.peerId, s.peer))
    (hoperation : (u.operationId, u.operationName) = (s.operationId, s.operationName)) : u = s := by
  cases s
  cases u
  simp only [bare, Span.mk.injEq, Prod.mk.injEq] at hbare hpeer hoperation ⊢
  simp only [hbare, hpeer, hoperation, and_self]

namespace Advances
variable {t t' : NameTable} {application : Int32} {s u v : Span}

theorem refl (t : NameTable) (application : Int32) (s : Span) : Advances t application s s :=
  ⟨rfl, Or.inl rfl, Or.inl rfl⟩

theorem within (h : Advances t application s u) (hw : t.Within t') : Advances t' application s u :=
  ⟨h.bare, h.peer.within hw, h.operation.within hw⟩

theorem trans (h : Advances t application s u) (h' : Advances t application u v) : Advances t application s v :=
  ⟨h'.bare.trans h.bare, h.peer.trans h'.peer, h.operation.trans h'.operation⟩

theorem unique (h : Advances t application s u) (h' : Advances t application s v) (hu : u.Complete) (hv : v.Complete) :
    u = v :=
  eq_of_bare (h.bare.trans h'.bare.symm) (h.peer.unique h'.peer hu.peer hv.peer)
    (h.operation.unique h'.operation hu.operation hv.operation)

theorem forall₂_trans {xs ys zs : List Span} (h : List.Forall₂ (Advances t application) xs ys)
    (h' : List.Forall₂ (Advances t application) ys zs) : List.Forall₂ (Advances t application) xs zs := by
  induction h generalizing zs with
  | nil => exact h'
  | cons hfirst _ ih =>
    cases h' with
    | cons hfirst' hrest' => exact .cons (hfirst.trans hfirst') (ih hrest')

end Advances

variable {n : Naming} {application : Int32}

theorem advances_resolvePeer (hr : n.registry.Recalls n.names) (application : Int32) (s : Span) :
    n.Leads (s.resolvePeer n).naming ∧
      Advances (s.resolvePeer n).naming.names application s (s.resolvePeer n).value ∧
      ((s.resolvePeer n).refusal = none →
        NameTable.Settled ((s.resolvePeer n).value.peerId, (s.resolvePeer n).value.peer)) := by
  obtain ⟨hleads, hgives⟩ := Naming.leads_obtain hr .address s.peer
  unfold resolvePeer Naming.addressId
  split
  · rename_i hopen
    rcases hanswer : n.obtain .address s.peer with ⟨e | id, m⟩
    · rw [hanswer] at hleads
      exact ⟨hleads, .refl _ _ s, nofun⟩
    · rw [hanswer] at hleads hgives
      refine ⟨hleads, ⟨rfl, Or.inr ⟨hopen, hgives id rfl, rfl⟩, Or.inl rfl⟩, fun _ _ => rfl⟩
  · rename_i hclosed
    exact ⟨.refl hr, .refl _ _ s, fun _ hzero => by_contra fun hname => hclosed ⟨hzero, hname⟩⟩

theorem advances_resolveOperation (hr : n.registry.Recalls n.names) (application : Int32) (s : Span) :
    n.Leads (s.resolveOperation application n).naming ∧
      Advances (s.resolveOperation application n).naming.names application s (s.resolveOperation application n).value ∧
      ((s.resolveOperation application n).refusal = none →
        NameTable.Settled (s.peerId, s.peer) → (s.resolveOperation application n).value.Complete) := by
  obtain ⟨hleads, hgives⟩ := Naming.leads_obtain hr .serviceName (scopedName application s.operationName)
  unfold resolveOperation Naming.serviceId
  split
  · rename_i hopen
    rcases hanswer : n.obtain .serviceName (scopedName application s.operationName) with ⟨e | id, m⟩
    · rw [hanswer] at hleads
      exact ⟨hleads, .refl _ _ s, nofun⟩
    · rw [hanswer] at hleads hgives
      exact ⟨hleads, ⟨rfl, Or.inl rfl, Or.inr ⟨hopen, hgives id rfl, rfl⟩⟩, fun _ hpeer => ⟨hpeer, fun _ => rfl⟩⟩
  · rename_i hclosed
    exact ⟨.refl hr, .refl _ _ s,
      fun _ hpeer => ⟨hpeer, fun hzero => by_contra fun hname => hclosed ⟨hzero, hname⟩⟩⟩

theorem advances_resolve (hr : n.registry.Recalls n.names) (application : Int32) (s : Span) :
    n.Leads (s.resolve application n).naming ∧
      Advances (s.resolve application n).naming.names application s (s.resolve application n).value ∧
      ((s.resolve application n).refusal = none → (s.resolve application n).value.Complete) := by
  obtain ⟨hleads, hpeer, hsettled⟩ := advances_resolvePeer hr application s
  unfold resolve Resolution.andThen
  cases hrefusal : (s.resolvePeer n).refusal with
  | some e => exact ⟨hleads, hpeer, fun hnone => by rw [hrefusal] at hnone; cases hnone⟩
  | none =>
    obtain ⟨hleads', hoperation, hcomplete⟩ :=
      advances_resolveOperation hleads.recalls application (s.resolvePeer n).value
    exact ⟨hleads.trans hleads', (hpeer.within hleads'.within).trans hoperation,
      fun hnone => hcomplete hnone (hsettled hrefusal)⟩

theorem advances_resolveAll (hr : n.registry.Recalls n.names) (application : Int32) (spans : List Span) :
    n.Leads (resolveAll application spans n).naming ∧
      List.Forall₂ (Advances (resolveAll application spans n).naming.names application) spans
        (resolveAll application spans n).value ∧
      ((resolveAll application spans n).refusal = none →
        ∀ s ∈ (resolveAll application spans n).value, s.Complete) := by
  induction spans generalizing n with
  | nil => exact ⟨.refl hr, .nil, fun _ s hs => absurd hs List.not_mem_nil⟩
  | cons s rest ih =>
    obtain ⟨hleads, hfirst, hcomplete⟩ := advances_resolve hr application s
    unfold resolveAll
    dsimp only
    cases hrefusal : (s.resolve application n).refusal with
    | some e => exact ⟨hleads, .cons hfirst (List.forall₂_same.2 fun u _ => .refl _ _ u), fun hnone => by cases hnone⟩
    | none =>
      obtain ⟨hleads', hrest, hall⟩ := ih hleads.recalls
      refine ⟨hleads.trans hleads', .cons (hfirst.within hleads'.within) hrest, fun hnone u hu => ?_⟩
      rcases List.mem_cons.1 hu with rfl | hu
      · exact hcomplete hrefusal
      · exact hall hnone u hu

/-! ### Spans without open names, and without faults -/

theorem resolve_of_complete {s : Span} (h : s.Complete) (application : Int32) (n : Naming) :
    s.resolve application n = ⟨none, s, n⟩ := by
  have hpeer : s.resolvePeer n = ⟨none, s, n⟩ := if_neg fun hopen => hopen.2 (h.peer hopen.1)
  have hoperation : s.resolveOperation application n = ⟨none, s, n⟩ := if_neg fun hopen => hopen.2 (h.operation hopen.1)
  unfold resolve
  rw [hpeer]
  exact hoperation

theorem resolveAll_of_complete {spans : List Span} (h : ∀ s ∈ spans, s.Complete) (application : Int32) (n : Naming) :
    resolveAll application spans n = ⟨none, spans, n⟩ := by
  induction spans with
  | nil => rfl
  | cons s rest ih =>
    unfold resolveAll
    simp only [resolve_of_complete (h s (List.mem_cons_self ..)), ih fun u hu => h u (List.mem_cons_of_mem _ hu)]

/-- Where the table has the ids of all names that wait, an attempt without faults succeeds and adds
no name. -/
theorem resolve_of_reliable {s u : Span} (h : Advances n.names application s u) (hu : u.Complete) (hn : n.Reliable) :
    ∃ m, s.resolve application n = ⟨none, u, m⟩ ∧ m.Reliable ∧ m.names = n.names := by
  obtain ⟨m, hpeer, hm, hnames⟩ : ∃ m, s.resolvePeer n = ⟨none, { s with peerId := u.peerId, peer := u.peer }, m⟩ ∧
      m.Reliable ∧ m.names = n.names := by
    unfold resolvePeer Naming.addressId
    rcases h.peer with heq | ⟨hopen, hgives, hname⟩
    · have hsettled : NameTable.Settled (s.peerId, s.peer) := heq ▸ hu.peer
      obtain ⟨hid, hname⟩ := Prod.mk.inj heq
      rw [hid, hname, if_neg fun hopen => hopen.2 (hsettled hopen.1)]
      exact ⟨n, rfl, hn, rfl⟩
    · obtain ⟨m, hanswer, hm, hnames⟩ := Naming.obtain_of_gives hn hgives
      dsimp only at hopen hanswer hname
      rw [if_pos hopen, hanswer, hname]
      exact ⟨m, rfl, hm, hnames⟩
  unfold resolve resolveOperation Naming.serviceId
  rw [hpeer]
  dsimp only [Resolution.andThen]
  rcases h.operation with heq | ⟨hopen, hgives, hname⟩
  · have hsettled : NameTable.Settled (s.operationId, s.operationName) := heq ▸ hu.operation
    have hvalue : { s with peerId := u.peerId, peer := u.peer } = u := eq_of_bare h.bare.symm rfl heq.symm
    rw [if_neg fun hopen => hopen.2 (hsettled hopen.1), hvalue]
    exact ⟨m, rfl, hm, hnames⟩
  · obtain ⟨l, hanswer, hl, hnames'⟩ := Naming.obtain_of_gives hm (hnames ▸ hgives)
    dsimp only at hopen hanswer hname
    have hvalue : { s with peerId := u.peerId, peer := u.peer, operationId := u.operationId, operationName := "" } = u :=
      eq_of_bare h.bare.symm rfl (by rw [hname])
    rw [if_pos hopen, hanswer]
    dsimp only
    rw [hvalue]
    exact ⟨l, rfl, hl, hnames'.trans hnames⟩

theorem resolveAll_of_reliable {spans others : List Span}
    (h : List.Forall₂ (Advances n.names application) spans others) (hall : ∀ s ∈ others, s.Complete) (hn : n.Reliable) :
    (resolveAll application spans n).refusal = none ∧ (resolveAll application spans n).value = others := by
  induction spans generalizing others n with
  | nil =>
    cases h
    exact ⟨rfl, rfl⟩
  | cons s rest ih =>
    cases h with
    | cons hfirst hrest =>
      obtain ⟨m, hresolve, hm, hnames⟩ := resolve_of_reliable hfirst (hall _ (List.mem_cons_self ..)) hn
      obtain ⟨hnone, hvalue⟩ := ih (hnames ▸ hrest) (fun u hu => hall u (List.mem_cons_of_mem _ hu)) hm
      unfold resolveAll
      simp only [hresolve, hnone, hvalue, and_self]

end Span

/-! ### Segments -/

namespace Segment

/-- A segment before and after attempts. Nothing is resolved before the application is, which the
names of the instance and of the operations are scoped by. -/
structure Advances (t : NameTable) (s u : Segment) : Prop where
  traceSegmentId : u.traceSegmentId = s.traceSegmentId
  applicationCode : u.applicationCode = s.applicationCode
  instanceUuid : u.instanceUuid = s.instanceUuid
  application : t.Assigns .application s.applicationCode s.applicationId u.applicationId
  agentInstance : t.Assigns .agentInstance (scopedName u.applicationId s.instanceUuid) s.instanceId u.instanceId
  spans : List.Forall₂ (Span.Advances t u.applicationId) s.spans u.spans
  first : u.applicationId = 0 → u = s

/-- Everything is resolved. -/
structure Complete (s : Segment) : Prop where
  application : s.applicationId ≠ 0
  agentInstance : s.instanceId ≠ 0
  spans : ∀ span ∈ s.spans, span.Complete

namespace Advances
variable {t t' : NameTable} {s u v : Segment}

theorem refl (t : NameTable) (s : Segment) : Advances t s s :=
  ⟨rfl, rfl, rfl, Or.inl rfl, Or.inl rfl, List.forall₂_same.2 fun span _ => .refl _ _ span, fun _ => rfl⟩

theorem within (h : Advances t s u) (hw : t.Within t') : Advances t' s u where
  traceSegmentId := h.traceSegmentId
  applicationCode := h.applicationCode
  instanceUuid := h.instanceUuid
  application := h.application.within hw
  agentInstance := h.agentInstance.within hw
  spans := h.spans.imp fun _ _ hspan => hspan.within hw
  first := h.first

theorem trans (h : Advances t s u) (h' : Advances t u v) : Advances t s v := by
  by_cases hzero : u.applicationId = 0
  · rwa [h.first hzero] at h'
  · have hsame : v.applicationId = u.applicationId := h'.application.eq_of_ne_zero hzero
    have hinstance := h'.agentInstance
    have hspans := h'.spans
    have happlication := h'.application
    rw [hsame, h.instanceUuid] at hinstance
    rw [hsame] at hspans
    rw [h.applicationCode] at happlication
    refine ⟨h'.traceSegmentId.trans h.traceSegmentId, h'.applicationCode.trans h.applicationCode,
      h'.instanceUuid.trans h.instanceUuid, h.application.trans happlication, ?_, ?_, fun hv => ?_⟩
    · rw [hsame]
      exact h.agentInstance.trans hinstance
    · rw [hsame]
      exact Span.Advances.forall₂_trans h.spans hspans
    · exact absurd (hsame.symm.trans hv) hzero

end Advances
variable {n : Naming}

theorem advances_resolveApplication (hr : n.registry.Recalls n.names) (s : Segment) :
    n.Leads (s.resolveApplication n).naming ∧
      Advances (s.resolveApplication n).naming.names s (s.resolveApplication n).value ∧
      ((s.resolveApplication n).refusal = none → (s.resolveApplication n).value.applicationId ≠ 0) := by
  obtain ⟨hleads, hgives⟩ := Naming.leads_obtain hr .application s.applicationCode
  unfold resolveApplication Naming.applicationId
  split
  · rename_i hopen
    rcases hanswer : n.obtain .application s.applicationCode with ⟨e | id, m⟩
    · rw [hanswer] at hleads
      exact ⟨hleads, .refl _ s, nofun⟩
    · rw [hanswer] at hleads hgives
      have hid := hgives id rfl
      refine ⟨hleads, ⟨rfl, rfl, rfl, Or.inr ⟨hopen, hid⟩, Or.inl rfl, ?_, fun hzero => ?_⟩, fun _ => hid.nonzero⟩
      · exact List.forall₂_same.2 fun span _ => .refl _ _ span
      · exact absurd hzero hid.nonzero
  · rename_i hclosed
    exact ⟨.refl hr, .refl _ s, fun _ => hclosed⟩

theorem advances_resolveInstance (hr : n.registry.Recalls n.names) {s : Segment} (happlication : s.applicationId ≠ 0) :
    n.Leads (s.resolveInstance n).naming ∧ Advances (s.resolveInstance n).naming.names s (s.resolveInstance n).value ∧
      (s.resolveInstance n).value.applicationId ≠ 0 ∧
      ((s.resolveInstance n).refusal = none → (s.resolveInstance n).value.instanceId ≠ 0) := by
  obtain ⟨hleads, hgives⟩ := Naming.leads_obtain hr .agentInstance (scopedName s.applicationId s.instanceUuid)
  unfold resolveInstance Naming.instanceId
  split
  · rename_i hopen
    rcases hanswer : n.obtain .agentInstance (scopedName s.applicationId s.instanceUuid) with ⟨e | id, m⟩
    · rw [hanswer] at hleads
      exact ⟨hleads, .refl _ s, happlication, nofun⟩
    · rw [hanswer] at hleads hgives
      have hid := hgives id rfl
      refine ⟨hleads, ⟨rfl, rfl, rfl, Or.inl rfl, Or.inr ⟨hopen, hid⟩, ?_, fun hzero => ?_⟩, happlication,
        fun _ => hid.nonzero⟩
      · exact List.forall₂_same.2 fun span _ => .refl _ _ span
      · exact absurd hzero happlication
  · rename_i hclosed
    exact ⟨.refl hr, .refl _ s, happlication, fun _ => hclosed⟩

theorem advances_resolveSpans (hr : n.registry.Recalls n.names) {s : Segment} (happlication : s.applicationId ≠ 0) :
    n.Leads (s.resolveSpans n).naming ∧ Advances (s.resolveSpans n).naming.names s (s.resolveSpans n).value ∧
      ((s.resolveSpans n).refusal = none → ∀ span ∈ (s.resolveSpans n).value.spans, span.Complete) := by
  obtain ⟨hleads, hspans, hcomplete⟩ := Span.advances_resolveAll hr s.applicationId s.spans
  exact ⟨hleads, ⟨rfl, rfl, rfl, Or.inl rfl, Or.inl rfl, hspans, fun hzero => absurd hzero happlication⟩, hcomplete⟩

/-- However an attempt ends, each name is as it was or has given way to its id; if it succeeds no
name waits any more. -/
theorem advances_resolve (hr : n.registry.Recalls n.names) (s : Segment) :
    n.Leads (s.resolve n).naming ∧ Advances (s.resolve n).naming.names s (s.resolve n).value ∧
      ((s.resolve n).refusal = none → (s.resolve n).value.Complete) := by
  obtain ⟨hleads, hadvances, happlication⟩ := advances_resolveApplication hr s
  unfold resolve
  cases hrefusal : (s.resolveApplication n).refusal with
  | some e =>
    have hended : (s.resolveApplication n).andThen resolveInstance = s.resolveApplication n := by
      rw [Resolution.andThen, hrefusal]
    rw [hended, Resolution.andThen, hrefusal]
    exact ⟨hleads, hadvances, fun hnone => by rw [hrefusal] at hnone; cases hnone⟩
  | none =>
    obtain ⟨hleads₁, hadvances₁, happlication₁, hinstance⟩ :=
      advances_resolveInstance hleads.recalls (happlication hrefusal)
    have hwent : (s.resolveApplication n).andThen resolveInstance =
        (s.resolveApplication n).value.resolveInstance (s.resolveApplication n).naming := by
      rw [Resolution.andThen, hrefusal]
    have hboth := (hadvances.within hleads₁.within).trans hadvances₁
    rw [hwent]
    generalize (s.resolveApplication n).value.resolveInstance (s.resolveApplication n).naming = r at *
    unfold Resolution.andThen
    cases hrefusal₁ : r.refusal with
    | some e => exact ⟨hleads.trans hleads₁, hboth, fun hnone => by rw [hrefusal₁] at hnone; cases hnone⟩
    | none =>
      obtain ⟨hleads₂, hadvances₂, hspans⟩ := advances_resolveSpans hleads₁.recalls happlication₁
      exact ⟨(hleads.trans hleads₁).trans hleads₂, (hboth.within hleads₂.within).trans hadvances₂,
        fun hnone => ⟨happlication₁, hinstance hrefusal₁, hspans hnone⟩⟩

/-! ### Segments without open names, and without faults -/

theorem resolve_of_complete {s : Segment} (h : s.Complete) (n : Naming) : s.resolve n = ⟨none, s, n⟩ := by
  have happlication : s.resolveApplication n = ⟨none, s, n⟩ := if_neg h.application
  have hinstance : s.resolveInstance n = ⟨none, s, n⟩ := if_neg h.agentInstance
  have hspans : s.resolveSpans n = ⟨none, s, n⟩ := by
    unfold resolveSpans
    rw [Span.resolveAll_of_complete h.spans]
  unfold resolve
  rw [happlication]
  dsimp only [Resolution.andThen]
  rw [hinstance]
  exact hspans

/-- An attempt without faults makes of a segment what any attempts have made of it in the end. -/
theorem resolve_of_reliable {s u : Segment} (h : Advances n.names s u) (hu : u.Complete) (hn : n.Reliable) :
    (s.resolve n).refusal = none ∧ (s.resolve n).value = u := by
  -- Step by step: an id that the attempts found is in the table, and one that was there is not asked for.
  obtain ⟨m, happlication, hm, hnames⟩ : ∃ m, s.resolveApplication n =
      ⟨none, { s with applicationId := u.applicationId }, m⟩ ∧ m.Reliable ∧ m.names = n.names := by
    unfold resolveApplication Naming.applicationId
    rcases h.application with heq | ⟨hopen, hgives⟩
    · rw [if_neg (heq ▸ hu.application), heq]
      exact ⟨n, rfl, hn, rfl⟩
    · obtain ⟨m, hanswer, hm, hnames⟩ := Naming.obtain_of_gives hn hgives
      rw [if_pos hopen, hanswer]
      exact ⟨m, rfl, hm, hnames⟩
  obtain ⟨l, hinstance, hl, hnames'⟩ : ∃ l, ({ s with applicationId := u.applicationId } : Segment).resolveInstance m =
      ⟨none, { s with applicationId := u.applicationId, instanceId := u.instanceId }, l⟩ ∧ l.Reliable ∧
        l.names = n.names := by
    unfold resolveInstance Naming.instanceId
    rcases h.agentInstance with heq | ⟨hopen, hgives⟩
    · rw [if_neg (show s.instanceId ≠ 0 from heq ▸ hu.agentInstance), heq]
      exact ⟨m, rfl, hm, hnames⟩
    · obtain ⟨l, hanswer, hl, hnames'⟩ := Naming.obtain_of_gives hm (hnames ▸ hgives)
      rw [if_pos hopen, hanswer]
      exact ⟨l, rfl, hl, hnames'.trans hnames⟩
  obtain ⟨hnone, hspans⟩ := Span.resolveAll_of_reliable (hnames' ▸ h.spans) hu.spans hl
  unfold resolve
  rw [happlication]
  dsimp only [Resolution.andThen]
  rw [hinstance]
  unfold resolveSpans
  refine ⟨hnone, ?_⟩
  dsimp only
  rw [hspans, ← h.traceSegmentId, ← h.applicationCode, ← h.instanceUuid]

end Segment

/-! ### Attempts -/

/-- A segment that is being resolved, among registries over one store. -/
structure Resolving where
  among : Registration
  segment : Segment
  /-- What ended the last attempt early. -/
  refusal : Option Refusal := none

inductive ResolvingMove
  /-- Others register names, or the faults of the store change. -/
  | meanwhile (m : RegistrationMove)
  /-- The segment is resolved, as far as it goes, with the help of a registry. -/
  | attempt (registry : Nat)

namespace Resolving

def names (r : Resolving) : NameTable := r.among.names

def perform (r : Resolving) : ResolvingMove → Resolving
  | .meanwhile m => { r with among := r.among.perform m }
  | .attempt k =>
    let a := r.segment.resolve ⟨r.among.registries k, r.among.store⟩
    { among := { r.among with
        registries := Function.update r.among.registries k a.naming.registry
        store := a.naming.store }
      segment := a.value
      refusal := a.refusal }

def run (s : Segment) (moves : List ResolvingMove) : Resolving := moves.foldl perform ⟨.start, s, none⟩

/-- An attempt leaves the registries in order, and the segment as far as it is resolved. -/
theorem advances_attempt {r : Resolving} (h : r.among.Faithful) (k : Nat) :
    (r.perform (.attempt k)).among.Faithful ∧ r.names.Within (r.perform (.attempt k)).names ∧
      r.segment.Advances (r.perform (.attempt k)).names (r.perform (.attempt k)).segment ∧
      ((r.perform (.attempt k)).refusal = none → (r.perform (.attempt k)).segment.Complete) := by
  obtain ⟨hleads, hadvances, hcomplete⟩ :=
    Segment.advances_resolve (n := ⟨r.among.registries k, r.among.store⟩) (h.recalls k) r.segment
  refine ⟨⟨fun space => hleads.numbered space (h.numbered space), fun j => ?_, fun c hc => ?_⟩, hleads.within,
    hadvances, hcomplete⟩
  · show (Function.update r.among.registries k _ j).Recalls _
    by_cases hj : j = k
    · subst hj
      rw [Function.update_self]
      exact hleads.recalls
    · rw [Function.update_of_ne hj]
      exact (h.recalls j).within hleads.within
  · exact (h.holds c hc).within hleads.within

/-- Whatever happens, the original segment has been resolved so far. -/
theorem advances_run (s : Segment) (moves : List ResolvingMove) :
    (run s moves).among.Faithful ∧ s.Advances (run s moves).names (run s moves).segment := by
  have key : ∀ (moves : List ResolvingMove) (r : Resolving), r.among.Faithful → s.Advances r.names r.segment →
      (moves.foldl perform r).among.Faithful ∧
        s.Advances (moves.foldl perform r).names (moves.foldl perform r).segment := by
    intro moves
    induction moves with
    | nil => exact fun r hr hs => ⟨hr, hs⟩
    | cons m rest ih =>
      intro r hr hs
      cases m with
      | meanwhile m =>
        -- Others only add names, so what was resolved before stays right.
        exact ih _ (hr.perform m) (hs.within (hr.within_perform m))
      | attempt k =>
        obtain ⟨hfaithful, hwithin, hadvances, -⟩ := advances_attempt hr k
        exact ih _ hfaithful ((hs.within hwithin).trans hadvances)
  exact key moves _ Registration.faithful_start (.refl _ s)

/-- However an attempt ends, each id of the segment is as it was, or was missing and is now the one
that the store has for its name. Once an attempt succeeds no name waits any more, the segment is
what an attempt without faults makes of the original, and nothing is left to ask for. -/
theorem resumes (s : Segment) (moves : List ResolvingMove) (k : Nat) :
    let before := run s moves
    let after := before.perform (.attempt k)
    before.segment.Advances after.names after.segment ∧ s.Advances after.names after.segment ∧
      (after.refusal = none → after.segment.Complete ∧
        (∀ n : Naming, n.Reliable → n.names = after.names →
          (s.resolve n).refusal = none ∧ (s.resolve n).value = after.segment) ∧
        ∀ n : Naming, after.segment.resolve n = ⟨none, after.segment, n⟩) := by
  intro before after
  obtain ⟨hfaithful, hbefore⟩ := advances_run s moves
  obtain ⟨-, hwithin, hadvances, hcomplete⟩ := advances_attempt hfaithful k
  have hafter : s.Advances after.names after.segment := (hbefore.within hwithin).trans hadvances
  refine ⟨hadvances, hafter, fun hnone => ⟨hcomplete hnone, fun n hn hnames => ?_, fun n => ?_⟩⟩
  · exact Segment.resolve_of_reliable (hnames ▸ hafter) (hcomplete hnone) hn
  · exact Segment.resolve_of_complete (hcomplete hnone) n

/-- A call of an operation, and one to a peer. -/
def order : Segment where
  traceSegmentId := "seg"
  applicationCode := "shop"
  instanceUuid := "agent"
  spans := [
    { spanId := 0, kind := .entry, start := 0, stop := 9, operationName := "/order" },
    { spanId := 1, kind := .exit, start := 1, stop := 5, operationName := "/pay", peer := "db:5432" }]

/-- An attempt while no peer can be registered, then one without faults. -/
def interrupted : List ResolvingMove :=
  [.meanwhile (.elsewhere { Store.fresh with plan := fun _ call => match call with
      | .create "address" _ => .refuse "mapping table"
      | _ => .answer }),
    .attempt 0, .meanwhile (.elsewhere Store.fresh), .meanwhile (.make 1 (.applicationId "cart")), .meanwhile (.step 0),
    .meanwhile (.step 0), .meanwhile (.step 0)]

theorem resumes_interrupted :
    (run order (interrupted.take 2)).refusal ≠ none ∧
      (run order (interrupted.take 2)).segment.spans.map (fun s => (s.operationId, s.operationName, s.peer)) =
        [(1, "", ""), (0, "/pay", "db:5432")] ∧
      ((run order interrupted).perform (.attempt 1)).refusal = none ∧
      ((run order interrupted).perform (.attempt 1)).segment.Complete ∧
      ((run order interrupted).perform (.attempt 1)).segment.spans.map (fun s => (s.operationId, s.peerId)) =
        [(1, 0), (2, 1)] := by
  have hnone : ((run order interrupted).perform (.attempt 1)).refusal = none := by decide +kernel
  exact ⟨by decide +kernel, by decide +kernel, hnone, ((resumes order interrupted 1).2.2 hnone).1, by decide +kernel⟩

end Resolving
end TraceRollup
