import Mathlib.Data.List.Forall2
import TraceRollup.Segment.Names
import TraceRollup.Segment.Records

/-!
# What resolving changes in a segment

However far an attempt gets, it puts ids in the place of names and changes nothing else
(`Segment.becomes_resolve`). A resolved segment has records unless a call in it took longer than
64 bits can tell (`Segment.records?_of_timed`).
-/

namespace TraceRollup

/-! ### Spans -/

namespace Span

/-- The span without its names and their ids. -/
def bare (s : Span) : Span := { s with operationName := "", operationId := 0, peer := "", peerId := 0 }

/-- A call that was made to a peer or answered for an operation: a record can come of it. -/
def IsCall (s : Span) : Prop :=
  s.kind = .exit ∧ (s.peerId ≠ 0 ∨ s.peer ≠ "") ∨ s.kind = .entry ∧ (s.operationId ≠ 0 ∨ s.operationName ≠ "")

instance (s : Span) : Decidable s.IsCall := by unfold IsCall; infer_instance

/-- A call whose peer or operation is resolved: a record does come of it. -/
def IsMeasured (s : Span) : Prop := s.kind = .exit ∧ s.peerId ≠ 0 ∨ s.kind = .entry ∧ s.operationId ≠ 0

theorem IsMeasured.isCall {s : Span} (h : s.IsMeasured) : s.IsCall :=
  h.imp (fun hexit => ⟨hexit.1, Or.inl hexit.2⟩) fun hentry => ⟨hentry.1, Or.inl hentry.2⟩

/-- Another form of a span, with no more than names resolved. -/
structure Becomes (s t : Span) : Prop where
  bare : t.bare = s.bare
  isCall : t.IsCall → s.IsCall

theorem Becomes.refl (s : Span) : s.Becomes s := ⟨rfl, fun h => h⟩

theorem Becomes.trans {s t u : Span} (h : s.Becomes t) (h' : t.Becomes u) : s.Becomes u :=
  ⟨h'.bare.trans h.bare, fun hu => h.isCall (h'.isCall hu)⟩

theorem Becomes.millis? {s t : Span} (h : s.Becomes t) : t.millis? = s.millis? := by
  have hstart : t.bare.start = s.bare.start := congrArg Span.start h.bare
  have hstop : t.bare.stop = s.bare.stop := congrArg Span.stop h.bare
  show t.bare.millis? = s.bare.millis?
  unfold Span.millis?
  rw [hstart, hstop]

variable (s : Span) (application : Int32) (n : NameRegistry.Naming)

theorem becomes_resolvePeer : s.Becomes (s.resolvePeer n).value := by
  unfold resolvePeer
  split
  · rename_i hopen
    rcases n.addressId s.peer with ⟨e | id, m⟩
    · exact .refl s
    · refine ⟨rfl, fun h => ?_⟩
      rcases h with ⟨hkind, _⟩ | ⟨hkind, hoperation⟩
      · exact Or.inl ⟨hkind, Or.inr hopen.2⟩
      · exact Or.inr ⟨hkind, hoperation⟩
  · exact .refl s

theorem becomes_resolveOperation : s.Becomes (s.resolveOperation application n).value := by
  unfold resolveOperation
  split
  · rename_i hopen
    rcases n.serviceId application s.operationName with ⟨e | id, m⟩
    · exact .refl s
    · refine ⟨rfl, fun h => ?_⟩
      rcases h with ⟨hkind, hpeer⟩ | ⟨hkind, _⟩
      · exact Or.inl ⟨hkind, hpeer⟩
      · exact Or.inr ⟨hkind, Or.inr hopen.2⟩
  · exact .refl s

end Span

/-- What goes on from one form to another goes on from the first. -/
theorem Resolution.andThen_value {α : Type} {R : α → α → Prop} (htrans : ∀ a b c, R a b → R b c → R a c) {a : α}
    {r : Resolution α} {f : α → NameRegistry.Naming → Resolution α} (h : R a r.value) (hf : ∀ b n, R b (f b n).value) :
    R a (r.andThen f).value := by
  unfold andThen
  split
  · exact h
  · exact htrans _ _ _ h (hf _ _)

namespace Span

theorem becomes_resolve (application : Int32) (s : Span) (n : NameRegistry.Naming) :
    s.Becomes (s.resolve application n).value :=
  Resolution.andThen_value (fun _ _ _ => .trans) (s.becomes_resolvePeer n) fun t m => t.becomes_resolveOperation application m

theorem becomes_resolveAll (application : Int32) (spans : List Span) (n : NameRegistry.Naming) :
    List.Forall₂ Becomes spans (resolveAll application spans n).value := by
  induction spans generalizing n with
  | nil => exact .nil
  | cons s rest ih =>
    unfold resolveAll
    dsimp only
    split
    · exact .cons (s.becomes_resolve application n) (List.forall₂_same.2 fun t _ => .refl t)
    · exact .cons (s.becomes_resolve application n) (ih _)

end Span

/-! ### Segments -/

theorem mapM_eq_none_iff {α β : Type} {f : α → Option β} {xs : List α} :
    xs.mapM f = none ↔ ∃ x ∈ xs, f x = none := by
  induction xs with
  | nil => simp [List.mapM_nil]
  | cons x rest ih =>
    rw [List.mapM_cons, List.exists_mem_cons_iff, ← ih]
    cases f x with
    | none => simp
    | some y => cases rest.mapM f <;> simp

namespace Segment

/-- Another form of a segment, with no more than names resolved. -/
structure Becomes (s t : Segment) : Prop where
  traceSegmentId : t.traceSegmentId = s.traceSegmentId
  applicationCode : t.applicationCode = s.applicationCode
  instanceUuid : t.instanceUuid = s.instanceUuid
  spans : List.Forall₂ Span.Becomes s.spans t.spans

theorem Becomes.refl (s : Segment) : s.Becomes s := ⟨rfl, rfl, rfl, List.forall₂_same.2 fun t _ => .refl t⟩

theorem Becomes.trans {s t u : Segment} (h : s.Becomes t) (h' : t.Becomes u) : s.Becomes u where
  traceSegmentId := h'.traceSegmentId.trans h.traceSegmentId
  applicationCode := h'.applicationCode.trans h.applicationCode
  instanceUuid := h'.instanceUuid.trans h.instanceUuid
  spans := by
    have key : ∀ {xs ys zs : List Span}, List.Forall₂ Span.Becomes xs ys → List.Forall₂ Span.Becomes ys zs →
        List.Forall₂ Span.Becomes xs zs := by
      intro xs ys zs hxy
      induction hxy generalizing zs with
      | nil => exact fun h => h
      | cons hx _ ih =>
        intro hyz
        cases hyz with
        | cons hy hrest => exact .cons (hx.trans hy) (ih hrest)
    exact key h.spans h'.spans

theorem becomes_resolve (s : Segment) (n : NameRegistry.Naming) : s.Becomes (s.resolve n).value := by
  have hsame : ∀ {s t : Segment}, t.traceSegmentId = s.traceSegmentId → t.applicationCode = s.applicationCode →
      t.instanceUuid = s.instanceUuid → t.spans = s.spans → s.Becomes t := fun htrace hcode huuid hspans =>
    ⟨htrace, hcode, huuid, hspans ▸ List.forall₂_same.2 fun t _ => .refl t⟩
  have happlication : s.Becomes (s.resolveApplication n).value := by
    unfold resolveApplication
    split
    · rcases n.applicationId s.applicationCode with ⟨e | id, m⟩ <;> exact hsame rfl rfl rfl rfl
    · exact .refl s
  have hinstance : ∀ (t : Segment) m, t.Becomes (t.resolveInstance m).value := by
    intro t m
    unfold resolveInstance
    split
    · rcases m.instanceId t.applicationId t.instanceUuid with ⟨e | id, m'⟩ <;> exact hsame rfl rfl rfl rfl
    · exact .refl t
  have hspans : ∀ (t : Segment) m, t.Becomes (t.resolveSpans m).value := fun t m =>
    ⟨rfl, rfl, rfl, Span.becomes_resolveAll t.applicationId t.spans m⟩
  have htrans : ∀ a b c : Segment, a.Becomes b → b.Becomes c → a.Becomes c := fun _ _ _ => .trans
  exact Resolution.andThen_value htrans (Resolution.andThen_value htrans happlication hinstance) hspans

/-! ### Times -/

/-- The calls in a segment took times that 64 bits can tell. -/
def Timed (s : Segment) : Prop := ∀ span ∈ s.spans, span.IsCall → span.millis? ≠ none

instance (s : Segment) : Decidable s.Timed := by unfold Timed; infer_instance

theorem Timed.becomes {s t : Segment} (h : s.Timed) (hb : s.Becomes t) : t.Timed := by
  have key : ∀ {xs ys : List Span}, List.Forall₂ Span.Becomes xs ys → (∀ x ∈ xs, x.IsCall → x.millis? ≠ none) →
      ∀ y ∈ ys, y.IsCall → y.millis? ≠ none := by
    intro xs ys hxy
    induction hxy with
    | nil => exact fun h => h
    | cons hx _ ih =>
      intro h y hy hcall
      rcases List.mem_cons.1 hy with rfl | hy
      · rw [hx.millis?]
        exact h _ (List.mem_cons_self ..) (hx.isCall hcall)
      · exact ih (fun x hx => h x (List.mem_cons_of_mem _ hx)) y hy hcall
  exact key hb.spans h

theorem callOf_eq_none_iff {s : Segment} {span : Span} :
    s.callOf span = none ↔ (span.kind = .exit ∧ span.peerId ≠ 0) ∧ span.millis? = none := by
  unfold callOf
  split
  · cases span.millis? <;> simp_all
  · simp_all

theorem serviceOf_eq_none_iff {s : Segment} {span : Span} :
    s.serviceOf span = none ↔ (span.kind = .entry ∧ span.operationId ≠ 0) ∧ span.millis? = none := by
  unfold serviceOf
  split
  · cases span.millis? <;> simp_all
  · simp_all

/-- There are no records exactly when a call of which a record comes has no duration. -/
theorem records?_eq_none_iff {s : Segment} {now : Int64} :
    s.records? now = none ↔ ∃ span ∈ s.spans, span.IsMeasured ∧ span.millis? = none := by
  have hparts : s.records? now = none ↔ s.spans.mapM s.callOf = none ∨ s.spans.mapM s.serviceOf = none := by
    unfold records?
    cases s.spans.mapM s.callOf <;> cases s.spans.mapM s.serviceOf <;> simp
  rw [hparts, mapM_eq_none_iff, mapM_eq_none_iff]
  simp only [callOf_eq_none_iff, serviceOf_eq_none_iff, Span.IsMeasured]
  constructor
  · rintro (⟨span, hmem, hcall, hnone⟩ | ⟨span, hmem, hcall, hnone⟩)
    · exact ⟨span, hmem, Or.inl hcall, hnone⟩
    · exact ⟨span, hmem, Or.inr hcall, hnone⟩
  · rintro ⟨span, hmem, hcall | hcall, hnone⟩
    · exact Or.inl ⟨span, hmem, hcall, hnone⟩
    · exact Or.inr ⟨span, hmem, hcall, hnone⟩

/-- There are records if every call has a duration. -/
theorem records?_of_timed {s : Segment} (h : s.Timed) (now : Int64) : ∃ records, s.records? now = some records := by
  rw [← Option.ne_none_iff_exists']
  intro hnone
  obtain ⟨span, hspan, hmeasured, hmillis⟩ := records?_eq_none_iff.1 hnone
  exact h span hspan hmeasured.isCall hmillis

end Segment
end TraceRollup
