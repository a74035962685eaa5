import TraceRollup.Proofs.Routing

/-!
# Batches divided by owner

Whatever was heard of the members before, a batch is divided by the ring of the list as it is now
(`Shared.current_hear`). Every record stays, is sent or is lost, and each other owner gets one
parcel with its own records in order (`Dispatcher.route_by_owner`).
-/

namespace TraceRollup

/-! ### Lists heard and rings asked for -/

/-- What can happen to the router of a node between two batches. -/
inductive RouterEvent
  | update (nodes : List String)
  | lookup

def RouterEvent.listed (nodes : List String) : RouterEvent → List String
  | .update heard => heard
  | .lookup => nodes

/-- The ring kept was built from the list of its version. -/
structure Router.Faithful (hash : PointHash) (r : Router) : Prop where
  past : ∀ b, r.built = some b → b.1 ≤ r.members.version
  built : ∀ b, r.built = some b → b.1 = r.members.version →
    b.2 = HashRing.build hash r.members.nodes r.virtualNodes

namespace Router
variable {hash : PointHash} {r : Router}

theorem Faithful.current_eq (h : r.Faithful hash) :
    r.current hash = HashRing.build hash r.members.nodes r.virtualNodes := by
  unfold current kept?
  cases hb : r.built with
  | none => rfl
  | some b =>
    by_cases hv : b.1 = r.members.version
    · simp only [if_pos hv]
      exact h.built b hb hv
    · simp only [if_neg hv]

theorem Faithful.update (h : r.Faithful hash) (nodes : List String) : (r.update nodes).Faithful hash where
  past b hb := Nat.le_succ_of_le (h.past b hb)
  -- a ring kept from before belongs to an older version
  built b hb hv := absurd hv (Nat.ne_of_lt (Nat.lt_succ_of_le (h.past b hb)))

theorem Faithful.ring (h : r.Faithful hash) (c : Counters) : (r.ring hash c).router.Faithful hash := by
  unfold Router.ring
  cases r.kept? with
  | some ring => exact h
  | none =>
    refine ⟨fun b hb => ?_, fun b hb _ => ?_⟩
    · cases hb
      exact Nat.le_refl _
    · cases hb
      rfl

theorem members_ring (hash : PointHash) (r : Router) (c : Counters) :
    (r.ring hash c).router.members = r.members ∧ (r.ring hash c).router.virtualNodes = r.virtualNodes := by
  unfold Router.ring
  cases r.kept? <;> exact ⟨rfl, rfl⟩

end Router

namespace Shared

def hear (hash : PointHash) (sh : Shared) : RouterEvent → Shared
  | .update nodes => { sh with router := sh.router.update nodes }
  | .lookup => ⟨(sh.router.ring hash sh.counters).router, (sh.router.ring hash sh.counters).counters⟩

/-- What a node shares that has asked for no ring yet. -/
def unheard (members : Membership) (virtualNodes : Nat) (reports : Bool) (c : Counters) : Shared :=
  ⟨{ members, virtualNodes, reports }, c⟩

theorem current_hear (hash : PointHash) (members : Membership) (virtualNodes : Nat) (reports : Bool) (c : Counters)
    (events : List RouterEvent) :
    (events.foldl (hear hash) (unheard members virtualNodes reports c)).router.current hash =
      HashRing.build hash (events.foldl RouterEvent.listed members.nodes) virtualNodes := by
  have key : ∀ (events : List RouterEvent) (sh : Shared), sh.router.Faithful hash →
      (events.foldl (hear hash) sh).router.current hash =
        HashRing.build hash (events.foldl RouterEvent.listed sh.router.members.nodes) sh.router.virtualNodes := by
    -- the router is general: what it has kept from before must be faithful, and stays so
    intro events
    induction events with
    | nil => exact fun sh h => h.current_eq
    | cons e rest ih =>
      intro sh h
      rw [List.foldl_cons, List.foldl_cons]
      cases e with
      | update nodes => exact ih _ (h.update nodes)
      | lookup =>
        obtain ⟨hmembers, hvirtual⟩ := sh.router.members_ring hash sh.counters
        have hrest := ih (hear hash sh .lookup) (h.ring sh.counters)
        simp only [hear, hmembers, hvirtual] at hrest
        exact hrest
  refine key events _ ⟨fun b hb => ?_, fun b hb => ?_⟩
  · cases hb
  · cases hb

end Shared

/-! ### Shares of the owners -/

namespace Dispatcher
variable {α : Type} [Rollup α] {hash : PointHash} {d : Dispatcher} {ring : HashRing}

theorem foreignOwner?_eq_some_iff {s : Snapshot α} {node : String} :
    d.foreignOwner? hash ring s = some node ↔
      ring.owner? hash (Rollup.routingKey s.record) = some node ∧ node ≠ d.here := by
  unfold foreignOwner?
  cases ring.owner? hash (Rollup.routingKey s.record) with
  | none => simp
  | some n =>
    by_cases hn : n = d.here
    · simp only [if_pos hn, Option.some.injEq]
      exact ⟨fun h => (by cases h), fun ⟨heq, hne⟩ => absurd (heq ▸ hn) hne⟩
    · simp only [if_neg hn, Option.some.injEq]
      exact ⟨fun heq => ⟨heq, heq ▸ hn⟩, fun h => h.1⟩

theorem foreignOwner?_eq_none_iff {s : Snapshot α} :
    d.foreignOwner? hash ring s = none ↔
      ring.owner? hash (Rollup.routingKey s.record) = none ∨
        ring.owner? hash (Rollup.routingKey s.record) = some d.here := by
  unfold foreignOwner?
  cases ring.owner? hash (Rollup.routingKey s.record) with
  | none => simp
  | some n =>
    by_cases hn : n = d.here
    · simp [hn]
    · simp [hn]

theorem nodup_bundles (hash : PointHash) (d : Dispatcher) (ring : HashRing) (batch : List (Snapshot α)) :
    ((d.bundles hash ring batch).map Prod.fst).Nodup := by
  refine List.foldlRecOn (motive := fun bs : Bundles α => (bs.map Prod.fst).Nodup) batch _ List.nodup_nil
    fun bs hbs s _ => ?_
  unfold bundle
  cases d.foreignOwner? hash ring s with
  | none => exact hbs
  | some node => exact nodup_addToBundle node s hbs

omit [Rollup α] in
theorem ne_nil_addToBundle {node : String} {s : Snapshot α} {bs : Bundles α} (h : ∀ b ∈ bs, b.2 ≠ []) :
    ∀ b ∈ addToBundle node s bs, b.2 ≠ [] := by
  induction bs with
  | nil =>
    intro b hb
    rw [List.mem_singleton.1 hb]
    exact List.cons_ne_nil _ _
  | cons first rest ih =>
    have hrest := ih fun b hb => h b (List.mem_cons_of_mem _ hb)
    intro b hb
    unfold addToBundle at hb
    split at hb
    · rcases List.mem_cons.1 hb with rfl | hb
      · exact List.append_ne_nil_of_right_ne_nil _ (List.cons_ne_nil _ _)
      · exact h b (List.mem_cons_of_mem _ hb)
    · rcases List.mem_cons.1 hb with rfl | hb
      · exact h b (List.mem_cons_self ..)
      · exact hrest b hb

theorem ne_nil_bundles (hash : PointHash) (d : Dispatcher) (ring : HashRing) (batch : List (Snapshot α)) :
    ∀ b ∈ d.bundles hash ring batch, b.2 ≠ [] := by
  refine List.foldlRecOn (motive := fun bs : Bundles α => ∀ b ∈ bs, b.2 ≠ []) batch _
    (fun _ hb => absurd hb List.not_mem_nil) fun bs hbs s _ => ?_
  unfold bundle
  cases d.foreignOwner? hash ring s with
  | none => exact hbs
  | some node => exact ne_nil_addToBundle hbs

omit [Rollup α] in
theorem lettersTo_of_mem {bs : Bundles α} (h : (bs.map Prod.fst).Nodup) {b : String × List (Snapshot α)} (hb : b ∈ bs) :
    lettersTo b.1 (letters bs) = b.2 := by
  induction bs with
  | nil => cases hb
  | cons first rest ih =>
    obtain ⟨hfirst, hrest⟩ := List.nodup_cons.1 h
    have hcons : lettersTo b.1 (letters (first :: rest)) =
        (if first.1 = b.1 then first.2 else []) ++ lettersTo b.1 (letters rest) := by
      rw [← lettersTo_bundle, ← lettersTo_append]
      rfl
    rw [hcons]
    rcases List.mem_cons.1 hb with rfl | hb
    · rw [if_pos rfl, lettersTo_of_notMem hfirst, List.append_nil]
    · have hne : first.1 ≠ b.1 := fun heq => hfirst (heq ▸ List.mem_map_of_mem hb)
      rw [if_neg hne, List.nil_append, ih hrest hb]

/-- There is a bundle for each other owner, with its records in order. -/
theorem mem_bundles_iff {batch : List (Snapshot α)} {b : String × List (Snapshot α)} :
    b ∈ d.bundles hash ring batch ↔
      b.2 ≠ [] ∧ b.2 = batch.filter fun s => decide (d.foreignOwner? hash ring s = some b.1) := by
  have hown : ∀ b ∈ d.bundles hash ring batch,
      b.2 = batch.filter fun s => decide (d.foreignOwner? hash ring s = some b.1) := by
    intro b hb
    rw [← lettersTo_of_mem (nodup_bundles hash d ring batch) hb, lettersTo_bundles]
  refine ⟨fun hb => ⟨ne_nil_bundles hash d ring batch b hb, hown b hb⟩, fun ⟨hne, heq⟩ => ?_⟩
  by_cases hnode : b.1 ∈ (d.bundles hash ring batch).map Prod.fst
  -- a bundle for that node has the same records, and a node without one has none
  · obtain ⟨c, hc, hname⟩ := List.mem_map.1 hnode
    have hsame : c = b := Prod.ext hname (by rw [hown c hc, hname, ← heq])
    exact hsame ▸ hc
  · refine absurd ?_ hne
    rw [heq, ← lettersTo_bundles, lettersTo_of_notMem hnode]

/-! ### Nothing is left over -/

theorem messageCount_addToParcel (f : String → Bool) (node : String) (m : WireMessage) (ps : List Parcel) :
    messageCount ((addToParcel node m ps).filter fun p => f p.node) =
      messageCount (ps.filter fun p => f p.node) + if f node then 1 else 0 := by
  induction ps with
  | nil =>
    cases hf : f node <;> simp [addToParcel, messageCount, hf]
  | cons p rest ih =>
    unfold addToParcel
    by_cases hp : p.node = node
    · rw [if_pos hp, List.filter_cons, List.filter_cons]
      cases hf : f p.node with
      | true =>
        rw [hp] at hf
        simp only [hp, hf, if_true, messageCount, List.foldr_cons, List.length_append, List.length_singleton]
        omega
      | false =>
        rw [hp] at hf
        simp [hf]
    · rw [if_neg hp, List.filter_cons, List.filter_cons]
      cases hf : f p.node with
      | true =>
        simp only [if_true, messageCount, List.foldr_cons] at ih ⊢
        omega
      | false => exact ih

theorem messageCount_split (f : String → Bool) (hash : PointHash) (d : Dispatcher) (ring : HashRing)
    (batch : List (Snapshot α)) : messageCount ((d.split hash ring batch).parcels.filter fun p => f p.node) =
      batch.countP fun s => (d.foreignOwner? hash ring s).any f := by
  have key : ∀ (batch : List (Snapshot α)) (parts : Parts α),
      messageCount ((batch.foldl (d.place hash ring) parts).parcels.filter fun p => f p.node) =
        messageCount (parts.parcels.filter fun p => f p.node) +
          batch.countP fun s => (d.foreignOwner? hash ring s).any f := by
    intro batch
    induction batch with
    | nil => exact fun parts => rfl
    | cons s rest ih =>
      intro parts
      rw [List.foldl_cons, ih, List.countP_cons]
      unfold place
      cases d.foreignOwner? hash ring s with
      | none => simp
      | some node =>
        simp only [messageCount_addToParcel, Option.any_some]
        omega
  exact (key batch {}).trans (Nat.zero_add _)

theorem length_kept_add (f : String → Bool) (hash : PointHash) (d : Dispatcher) (ring : HashRing)
    (batch : List (Snapshot α)) :
    (d.split hash ring batch).kept.length +
        (batch.countP fun s => (d.foreignOwner? hash ring s).any f) +
        (batch.countP fun s => (d.foreignOwner? hash ring s).any fun node => !f node) = batch.length := by
  rw [split_eq, ← List.countP_eq_length_filter]
  induction batch with
  | nil => rfl
  | cons s rest ih =>
    simp only [List.countP_cons, List.length_cons]
    cases d.foreignOwner? hash ring s with
    | none =>
      simp only [Option.isNone_none, Option.any_none, if_true, Bool.false_eq_true, if_false]
      omega
    | some node =>
      simp only [Option.isNone_some, Option.any_some, Bool.false_eq_true, if_false]
      by_cases hf : f node = true
      · simp only [hf, Bool.not_true, Bool.false_eq_true, if_true, if_false]
        omega
      · simp only [Bool.not_eq_true] at hf
        simp only [hf, Bool.not_false, Bool.false_eq_true, if_true, if_false]
        omega

/-! ### Routing a batch -/

theorem kept_split_build (hash : PointHash) (d : Dispatcher) (nodes : List String) (virtualNodes : Nat)
    (batch : List (Snapshot α)) :
    (d.split hash (HashRing.build hash nodes virtualNodes) batch).kept =
      if nodes = [] then batch
      else batch.filter fun s =>
        decide ((HashRing.build hash nodes virtualNodes).owner? hash (Rollup.routingKey s.record) = some d.here) := by
  rw [split_eq]
  split
  · rename_i hnil
    refine List.filter_eq_self.2 fun s _ => ?_
    rw [Option.isNone_iff_eq_none]
    exact foreignOwner?_eq_none_iff.2 (Or.inl (HashRing.owner?_eq_none_iff.2 hnil))
  · rename_i hnodes
    refine List.filter_congr fun s _ => ?_
    rw [Bool.eq_iff_iff, Option.isNone_iff_eq_none, decide_eq_true_eq]
    exact foreignOwner?_eq_none_iff.trans (or_iff_right fun hnone => hnodes (HashRing.owner?_eq_none_iff.1 hnone))

theorem mem_parcels_split_iff {batch : List (Snapshot α)} {p : Parcel} :
    p ∈ (d.split hash ring batch).parcels ↔ p.node ≠ d.here ∧ p.messages ≠ [] ∧
      p.messages = (batch.filter fun s =>
        decide (ring.owner? hash (Rollup.routingKey s.record) = some p.node)).map d.message := by
  have hshare : ∀ node, node ≠ d.here → (batch.filter fun s => decide (d.foreignOwner? hash ring s = some node)) =
      batch.filter fun s => decide (ring.owner? hash (Rollup.routingKey s.record) = some node) := by
    intro node hnode
    refine List.filter_congr fun s _ => ?_
    rw [Bool.eq_iff_iff, decide_eq_true_eq, decide_eq_true_eq]
    exact foreignOwner?_eq_some_iff.trans (and_iff_left hnode)
  rw [split_eq, List.mem_map]
  constructor
  · rintro ⟨b, hb, rfl⟩
    obtain ⟨hne, hrecords⟩ := mem_bundles_iff.1 hb
    obtain ⟨s, hs⟩ := List.exists_mem_of_ne_nil _ hne
    rw [hrecords, List.mem_filter, decide_eq_true_eq] at hs
    have hnode := (foreignOwner?_eq_some_iff.1 hs.2).2
    refine ⟨hnode, by simpa using hne, ?_⟩
    rw [← hshare b.1 hnode, ← hrecords]
  · rintro ⟨hnode, hne, hmessages⟩
    rw [← hshare p.node hnode] at hmessages
    refine ⟨(p.node, batch.filter fun s => decide (d.foreignOwner? hash ring s = some p.node)),
      mem_bundles_iff.2 ⟨fun hnil => hne ?_, rfl⟩, ?_⟩
    · dsimp only at hnil
      rw [hmessages, hnil, List.map_nil]
    · rw [← hmessages]

/-- A batch is divided by the owners on the ring of the list heard last: what this node owns stays
(everything, if no member is known), every other owner gets one parcel with its records in order, and
the records of the nodes that cannot be reached are lost. -/
theorem route_by_owner (hash : PointHash) (d : Dispatcher) (members : Membership) (virtualNodes : Nat)
    (reports : Bool) (c : Counters) (events : List RouterEvent) (links : Links)
    (hends : ∀ node, links node ≠ .stalled) (batch : List (Snapshot α)) :
    let sh := events.foldl (Shared.hear hash) (.unheard members virtualNodes reports c)
    let nodes := events.foldl RouterEvent.listed members.nodes
    let owner? := fun s : Snapshot α =>
      (HashRing.build hash nodes virtualNodes).owner? hash (Rollup.routingKey s.record)
    let ring := (sh.router.ring hash sh.counters).ring
    let parcels := (d.split hash ring batch).parcels
    ∃ r, d.route hash ring links batch (sh.router.ring hash sh.counters).counters = some r ∧
      r.kept = (if nodes = [] then batch else batch.filter fun s => decide (owner? s = some d.here)) ∧
      (parcels.map Parcel.node).Nodup ∧
      (∀ p, p ∈ parcels ↔ p.node ≠ d.here ∧ p.messages ≠ [] ∧
        p.messages = (batch.filter fun s => decide (owner? s = some p.node)).map (.ofSnapshot d.pipeline d.target)) ∧
      r.parcels = parcels.filter (fun p => decide (links p.node = .up)) ∧
      r.kept.length + r.sent + r.failed = batch.length ∧
      r.failed = batch.countP fun s => (owner? s).any fun node => decide (node ≠ d.here ∧ links node ≠ .up) := by
  intro sh nodes owner? ring parcels
  have hring : ring = HashRing.build hash nodes virtualNodes :=
    (Router.ring_ring hash sh.router sh.counters).trans
      (Shared.current_hear hash members virtualNodes reports c events)
  have hgo : parcels.any (fun p => decide (links p.node = .stalled)) = false :=
    List.any_eq_false.2 fun p _ => by simp [hends p.node]
  -- the nodes that are up and the others share what goes out
  have hsent := messageCount_split (fun node => decide (links node = .up)) hash d ring batch
  have hfailed := messageCount_split (fun node => !decide (links node = .up)) hash d ring batch
  refine ⟨_, by rw [route, if_neg (by rw [hgo]; exact Bool.false_ne_true)], ?_, ?_, ?_, ?_, ?_, ?_⟩
  · exact hring ▸ kept_split_build hash d nodes virtualNodes batch
  · show ((d.split hash ring batch).parcels.map Parcel.node).Nodup
    rw [split_eq, List.map_map]
    exact nodup_bundles hash d ring batch
  · intro p
    refine mem_parcels_split_iff.trans ?_
    rw [hring]
    rfl
  · rw [List.partition_eq_filter_filter]
  · rw [List.partition_eq_filter_filter]
    have hall := length_kept_add (fun node => decide (links node = .up)) hash d ring batch
    rw [← hsent, ← hfailed] at hall
    exact hall
  · rw [List.partition_eq_filter_filter]
    refine hfailed.trans (List.countP_congr fun s _ => ?_)
    rw [hring, Option.any_eq_true, Option.any_eq_true]
    simp only [foreignOwner?_eq_some_iff, and_assoc, Bool.not_eq_true', decide_eq_true_eq, decide_eq_false_iff_not]
    rfl

/-- Three keys, each at the place of a node of its own. -/
def paired : PointHash := fun text =>
  if text = "0_1" ∨ text = "a#0" then 1 else if text = "0_2" ∨ text = "b#0" then 2 else 3

def beat (instanceId : Int32) : Snapshot Heartbeat := ⟨"agent", instanceId, 1, ⟨0⟩, 7⟩

/-- The ring is asked for when only one node is known; of the three that are listed later one cannot be reached. -/
theorem route_by_owner_unreachable :
    let links : Links := fun node => if node = "c" then .down "connection refused" else .up
    let events : List RouterEvent := [.update ["b"], .lookup, .update ["c", "a", "b"]]
    let sh := events.foldl (Shared.hear paired) (.unheard ⟨[], 0⟩ 1 true default)
    let d : Dispatcher := ⟨⟨2⟩, ⟨21⟩, "a"⟩
    (∀ node, links node ≠ .stalled) ∧
    ∃ r, d.route paired (sh.router.ring paired sh.counters).ring links [beat 3, beat 1, beat 2, beat 1]
        (sh.router.ring paired sh.counters).counters = some r ∧
      r.kept = [beat 1, beat 1] ∧ r.sent = 1 ∧ r.failed = 1 := by
  intro links events sh d
  have hends : ∀ node, links node ≠ .stalled := by
    intro node
    dsimp only [links]
    split
    · exact Link.noConfusion
    · exact Link.noConfusion
  obtain ⟨r, hr, hkept, _, _, _, hall, hfailed⟩ :=
    route_by_owner paired d ⟨[], 0⟩ 1 true default events links hends [beat 3, beat 1, beat 2, beat 1]
  have hk : r.kept = [beat 1, beat 1] := hkept.trans (by decide +kernel)
  have hf : r.failed = 1 := hfailed.trans (by decide +kernel)
  refine ⟨hends, r, hr, hk, ?_, hf⟩
  rw [hk, hf, List.length_cons, List.length_singleton, List.length_cons, List.length_cons, List.length_cons,
    List.length_singleton] at hall
  omega

end Dispatcher
end TraceRollup
