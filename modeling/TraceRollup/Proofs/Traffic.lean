import TraceRollup.Proofs.ClusterRun
import TraceRollup.Proofs.RunningTotals

/-!
# Totals on their way

The totals that a station has answered for a key travel through its queues, and those of
another station's key over the wire, in order. Along the way some are lost, but none overtakes
another: what is on its way from one station to the store of another is a sublist of the
running totals (`Line`), and every move keeps it so (`Progress.line_out`, `Progress.line_in`,
`Progress.line_home`).
-/

namespace TraceRollup

/-! ### Lines -/

namespace Station
variable {k : RecordKind}

/-- What of an origin's key has come to a station: written, buffered and queued before the ledger. -/
def inbound (s : Station k) (key : OriginKey) : List k.Carrier :=
  (s.log.written key).toList ++ (s.site.ledger.buffer.get? key).toList ++ pick key s.site.arrivals.items

theorem inbound_of_written {s : Station k} {key : OriginKey} (h : s.log.written key ≠ none) : s.inbound key ≠ [] := by
  obtain ⟨w, hw⟩ := Option.ne_none_iff_exists'.1 h
  rw [inbound, hw]
  exact List.cons_ne_nil _ _

/-- What a station holds of its own key for a node. -/
def handed (s : Station k) (name id : String) : List k.Carrier :=
  pick (s.site.name, id) (if name = s.site.name then s.site.kept else Dispatcher.lettersTo name s.site.mail)

theorem handed_self (s : Station k) (id : String) : s.handed s.site.name id = pick (s.site.name, id) s.site.kept := by
  rw [handed, if_pos rfl]

theorem handed_of_ne {s : Station k} {name : String} (h : name ≠ s.site.name) (id : String) :
    s.handed name id = pick (s.site.name, id) (Dispatcher.lettersTo name s.site.mail) := by
  rw [handed, if_neg h]

/-- What a station has not yet divided. -/
def waiting (s : Station k) (id : String) : List k.Carrier :=
  pick (s.site.name, id) s.site.routing.items ++ pick (s.site.name, id) s.site.answered

/-- The running totals that a station has answered. -/
def totals (s : Station k) (id : String) : List k.Carrier := Rollup.totals (s.log.under id)

/-- The node that a station sends the records of a key to. -/
def dest (hash : PointHash) (ring : HashRing) (s : Station k) (id : String) : String :=
  (ring.owner? hash id).getD s.site.name

end Station

/-- What is on its way from one station to the store of another are running totals, in order. -/
def InOrder {k : RecordKind} (o d : Station k) (id : String) : Prop :=
  (d.inbound (o.site.name, id) ++ o.handed d.site.name id ++ o.waiting id).Sublist (o.totals id)

/-- What is on its way from one station to the store of another: running totals in order, of
keys that belong there. -/
structure Line {k : RecordKind} (hash : PointHash) (ring : HashRing) (o d : Station k) (id : String) : Prop where
  order : InOrder o d id
  place : d.inbound (o.site.name, id) ++ o.handed d.site.name id ≠ [] → o.dest hash ring id = d.site.name

/-! ### Moves of one station -/

/-- How a move at a station may change what is on its way there. -/
structure Progress {k : RecordKind} (hash : PointHash) (ring : HashRing) (s t : Station k) : Prop where
  name : t.site.name = s.site.name
  foreign : ∀ key : OriginKey, key.1 ≠ s.site.name → (t.inbound key).Sublist (s.inbound key)
  /-- What is new is new among the totals. -/
  home : ∀ id, ∃ new, t.totals id = s.totals id ++ new ∧
    (∀ name, name ≠ s.site.name →
      (t.handed name id ++ t.waiting id).Sublist (s.handed name id ++ s.waiting id ++ new)) ∧
    (t.inbound (s.site.name, id) ++ t.handed s.site.name id ++ t.waiting id).Sublist
      (s.inbound (s.site.name, id) ++ s.handed s.site.name id ++ s.waiting id ++ new)
  /-- What is for a node belongs there. -/
  place : ∀ name id, name ≠ s.site.name → t.handed name id ≠ [] →
    s.handed name id ≠ [] ∨ s.dest hash ring id = name
  placeHome : ∀ id, t.inbound (s.site.name, id) ++ t.handed s.site.name id ≠ [] →
    s.inbound (s.site.name, id) ++ s.handed s.site.name id ≠ [] ∨ s.dest hash ring id = s.site.name

namespace Progress
variable {k : RecordKind} {hash : PointHash} {ring : HashRing} {s t d : Station k}

theorem dest_eq (h : Progress hash ring s t) (id : String) : t.dest hash ring id = s.dest hash ring id := by
  rw [Station.dest, Station.dest, h.name]

/-- Nothing is divided by owner. -/
theorem of_sublist (hname : t.site.name = s.site.name)
    (hforeign : ∀ key : OriginKey, key.1 ≠ s.site.name → (t.inbound key).Sublist (s.inbound key))
    (hhome : ∀ id, (t.inbound (s.site.name, id) ++ t.handed s.site.name id).Sublist
      (s.inbound (s.site.name, id) ++ s.handed s.site.name id))
    (hhanded : ∀ name id, name ≠ s.site.name → (t.handed name id).Sublist (s.handed name id))
    (hwaiting : ∀ id, ∃ new, t.totals id = s.totals id ++ new ∧ (t.waiting id).Sublist (s.waiting id ++ new)) :
    Progress hash ring s t where
  name := hname
  foreign := hforeign
  home id := by
    obtain ⟨new, htotals, hw⟩ := hwaiting id
    refine ⟨new, htotals, fun name hne => ?_, ?_⟩
    · rw [List.append_assoc]
      exact (hhanded name id hne).append hw
    · rw [List.append_assoc _ _ new]
      exact (hhome id).append hw
  place name id hne hnil := by
    refine Or.inl fun hs => hnil ?_
    have hsub := hhanded name id hne
    rw [hs] at hsub
    exact List.sublist_nil.1 hsub
  placeHome id hnil := by
    refine Or.inl fun hs => hnil ?_
    have hsub := hhome id
    rw [hs] at hsub
    exact List.sublist_nil.1 hsub

theorem order_out (h : Progress hash ring s t) {id : String} (hl : InOrder s d id)
    (hne : d.site.name ≠ s.site.name) : InOrder t d id := by
  obtain ⟨new, htotals, hout, _⟩ := h.home id
  unfold InOrder at *
  rw [htotals, h.name]
  refine List.Sublist.trans ?_ (hl.append (List.Sublist.refl new))
  simp only [List.append_assoc]
  refine (List.Sublist.refl _).append ?_
  have hsub := hout d.site.name hne
  rwa [List.append_assoc] at hsub

theorem order_in (h : Progress hash ring s t) {id : String} (hl : InOrder d s id)
    (hne : d.site.name ≠ s.site.name) : InOrder d t id := by
  have hsub := h.foreign (d.site.name, id) hne
  unfold InOrder at *
  rw [h.name]
  exact ((hsub.append (List.Sublist.refl _)).append (List.Sublist.refl _)).trans hl

theorem order_home (h : Progress hash ring s t) {id : String} (hl : InOrder s s id) : InOrder t t id := by
  obtain ⟨new, htotals, _, hin⟩ := h.home id
  unfold InOrder at *
  rw [htotals, h.name]
  exact hin.trans (hl.append (List.Sublist.refl new))

/-- A station keeps the lines from it to others. -/
theorem line_out (h : Progress hash ring s t) {id : String} (hl : Line hash ring s d id)
    (hne : d.site.name ≠ s.site.name) : Line hash ring t d id := by
  refine ⟨h.order_out hl.order hne, ?_⟩
  rw [h.name, h.dest_eq]
  intro hnil
  by_cases hin : d.inbound (s.site.name, id) = []
  · rw [hin, List.nil_append] at hnil
    rcases h.place d.site.name id hne hnil with hs | hdest
    · exact hl.place (by simp [hs])
    · exact hdest
  · exact hl.place (by simp [hin])

theorem line_in (h : Progress hash ring s t) {id : String} (hl : Line hash ring d s id)
    (hne : d.site.name ≠ s.site.name) : Line hash ring d t id := by
  refine ⟨h.order_in hl.order hne, ?_⟩
  rw [h.name]
  intro hnil
  refine hl.place fun hs => hnil ?_
  have hboth := (h.foreign (d.site.name, id) hne).append (List.Sublist.refl (d.handed s.site.name id))
  rw [hs] at hboth
  exact List.sublist_nil.1 hboth

theorem line_home (h : Progress hash ring s t) {id : String} (hl : Line hash ring s s id) :
    Line hash ring t t id := by
  refine ⟨h.order_home hl.order, ?_⟩
  rw [h.name, h.dest_eq]
  intro hnil
  rcases h.placeHome id hnil with hs | hdest
  · exact hl.place hs
  · exact hdest

end Progress
end TraceRollup
