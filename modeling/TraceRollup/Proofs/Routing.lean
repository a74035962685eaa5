import TraceRollup.Proofs.Keys
import TraceRollup.Proofs.Ring
import TraceRollup.Pipeline.Worker

/-!
# Where records go

All nodes with the same members have the same ring (`HashRing.build_congr`), also after they
have built it once (`Router.current_ring`). A dispatcher keeps the records that its node owns
and sends each other owner its own in order (`Dispatcher.split_kept`, `Dispatcher.lettersTo_bundles`).
-/

namespace TraceRollup

/-! ### Rings of the same members -/

namespace Router

/-- The ring that a router goes by. -/
def current (hash : PointHash) (r : Router) : HashRing :=
  match r.kept? with
  | some ring => ring
  | none => HashRing.build hash r.members.nodes r.virtualNodes

theorem ring_ring (hash : PointHash) (r : Router) (c : Counters) : (r.ring hash c).ring = r.current hash := by
  unfold ring current
  cases r.kept? <;> rfl

/-- Asking for the ring does not change it. -/
theorem current_ring (hash : PointHash) (r : Router) (c : Counters) :
    (r.ring hash c).router.current hash = r.current hash := by
  unfold ring
  cases hk : r.kept? with
  | some ring => rfl
  | none =>
    unfold current
    rw [hk]
    simp [kept?]

/-- A router goes by the ring of its members, if it has not kept another one. -/
theorem current_eq {r : Router} {hash : PointHash} {ring : HashRing} (hbuilt : ∀ b, r.built = some b → b.2 = ring)
    (hmembers : HashRing.build hash r.members.nodes r.virtualNodes = ring) : r.current hash = ring := by
  unfold current kept?
  cases hb : r.built with
  | none => exact hmembers
  | some b =>
    dsimp only
    split
    · rename_i kept hkept
      split at hkept
      · cases hkept
        exact hbuilt b hb
      · cases hkept
    · exact hmembers

end Router

/-! ### Letters -/

namespace Dispatcher
variable {α : Type} [Rollup α]

/-- The message that takes a snapshot to its owner. -/
def message (d : Dispatcher) (s : Snapshot α) : WireMessage := .ofSnapshot d.pipeline d.target s

theorem owner_of_foreign {hash : PointHash} {d : Dispatcher} {ring : HashRing} {s : Snapshot α} {node : String}
    (h : d.foreignOwner? hash ring s = some node) : ring.owner? hash (Rollup.id s.record) = some node := by
  unfold foreignOwner? Rollup.routingKey at h
  cases howner : ring.owner? hash (Rollup.id s.record) with
  | none => simp [howner] at h
  | some n =>
    simp only [howner] at h
    split at h
    · cases h
    · exact h

theorem foreign_ne_here {hash : PointHash} {d : Dispatcher} {ring : HashRing} {s : Snapshot α} {node : String}
    (h : d.foreignOwner? hash ring s = some node) : node ≠ d.here := by
  unfold foreignOwner? at h
  split at h
  · split at h
    · cases h
    · rename_i hne
      exact Option.some.inj h ▸ hne
  · cases h

theorem owner_of_kept {hash : PointHash} {d : Dispatcher} {ring : HashRing} {s : Snapshot α}
    (h : (d.foreignOwner? hash ring s).isNone = true) : (ring.owner? hash (Rollup.id s.record)).getD d.here = d.here := by
  unfold foreignOwner? Rollup.routingKey at h
  cases howner : ring.owner? hash (Rollup.id s.record) with
  | none => rfl
  | some n =>
    simp only [howner] at h
    split at h
    · assumption
    · cases h

/-- Snapshots bundled by the node that they are for. -/
abbrev Bundles (α : Type) := List (String × List (Snapshot α))

def addToBundle (node : String) (s : Snapshot α) : Bundles α → Bundles α
  | [] => [(node, [s])]
  | b :: rest => if b.1 = node then (b.1, b.2 ++ [s]) :: rest else b :: addToBundle node s rest

def bundle (hash : PointHash) (d : Dispatcher) (ring : HashRing) (bs : Bundles α) (s : Snapshot α) : Bundles α :=
  match d.foreignOwner? hash ring s with
  | none => bs
  | some node => addToBundle node s bs

/-- The bundles for the other owners of a batch. -/
def bundles (hash : PointHash) (d : Dispatcher) (ring : HashRing) (batch : List (Snapshot α)) : Bundles α :=
  batch.foldl (d.bundle hash ring) []

/-- The letters of bundles, each with its node. -/
def letters (bs : Bundles α) : List (String × Snapshot α) := bs.flatMap fun b => b.2.map fun s => (b.1, s)

/-- The letters for a node. -/
def lettersTo (node : String) (ls : List (String × Snapshot α)) : List (Snapshot α) :=
  (ls.filter fun l => decide (l.1 = node)).map Prod.snd

theorem addToParcel_map (d : Dispatcher) (node : String) (s : Snapshot α) (bs : Bundles α) :
    addToParcel node (d.message s) (bs.map fun b => ⟨b.1, b.2.map d.message⟩) =
      (addToBundle node s bs).map fun b => ⟨b.1, b.2.map d.message⟩ := by
  induction bs with
  | nil => rfl
  | cons b rest ih =>
    rw [List.map_cons, addToParcel, addToBundle, ih]
    by_cases hb : b.1 = node
    · rw [if_pos hb, if_pos hb, List.map_cons, List.map_append]
      rfl
    · rw [if_neg hb, if_neg hb, List.map_cons]

/-- A batch is divided into what stays and the bundles for the others. -/
theorem split_eq (hash : PointHash) (d : Dispatcher) (ring : HashRing) (batch : List (Snapshot α)) :
    d.split hash ring batch =
      { kept := batch.filter fun s => (d.foreignOwner? hash ring s).isNone
        parcels := (d.bundles hash ring batch).map fun b => ⟨b.1, b.2.map d.message⟩ } := by
  have key : ∀ (batch kept : List (Snapshot α)) (bs : Bundles α),
      batch.foldl (d.place hash ring) { kept, parcels := bs.map fun b => ⟨b.1, b.2.map d.message⟩ } =
        { kept := kept ++ batch.filter fun s => (d.foreignOwner? hash ring s).isNone
          parcels := (batch.foldl (d.bundle hash ring) bs).map fun b => ⟨b.1, b.2.map d.message⟩ } := by
    intro batch
    induction batch with
    | nil =>
      intro kept bs
      rw [List.filter_nil, List.append_nil]
      rfl
    | cons s rest ih =>
      intro kept bs
      rw [List.foldl_cons, List.foldl_cons, List.filter_cons]
      cases hs : d.foreignOwner? hash ring s with
      | none =>
        have hplace : d.place hash ring { kept, parcels := bs.map fun b => ⟨b.1, b.2.map d.message⟩ } s =
            { kept := kept ++ [s], parcels := bs.map fun b => ⟨b.1, b.2.map d.message⟩ } := by
          simp only [place, hs]
        rw [hplace, ih, bundle, hs, List.append_assoc]
        rfl
      | some node =>
        have hplace : d.place hash ring { kept, parcels := bs.map fun b => ⟨b.1, b.2.map d.message⟩ } s =
            { kept := kept, parcels := (addToBundle node s bs).map fun b => ⟨b.1, b.2.map d.message⟩ } := by
          rw [← addToParcel_map]
          simp only [place, hs]
          rfl
        rw [hplace, ih, bundle, hs]
        rfl
  exact key batch [] []

omit [Rollup α] in
theorem names_addToBundle (node : String) (s : Snapshot α) (bs : Bundles α) (n : String) :
    n ∈ (addToBundle node s bs).map Prod.fst ↔ n = node ∨ n ∈ bs.map Prod.fst := by
  induction bs with
  | nil => simp [addToBundle]
  | cons b rest ih =>
    unfold addToBundle
    by_cases hb : b.1 = node
    · rw [if_pos hb]
      simp [hb]
    · rw [if_neg hb, List.map_cons, List.mem_cons, ih, List.map_cons, List.mem_cons]
      exact or_left_comm

omit [Rollup α] in
theorem nodup_addToBundle (node : String) (s : Snapshot α) {bs : Bundles α} (h : (bs.map Prod.fst).Nodup) :
    ((addToBundle node s bs).map Prod.fst).Nodup := by
  induction bs with
  | nil => exact List.pairwise_singleton _ _
  | cons b rest ih =>
    obtain ⟨hb, hrest⟩ := List.nodup_cons.1 h
    unfold addToBundle
    by_cases hnode : b.1 = node
    · rw [if_pos hnode]
      exact h
    · rw [if_neg hnode, List.map_cons, List.nodup_cons, names_addToBundle, not_or]
      exact ⟨⟨hnode, hb⟩, ih hrest⟩

omit [Rollup α] in
theorem lettersTo_append (node : String) (ls ms : List (String × Snapshot α)) :
    lettersTo node (ls ++ ms) = lettersTo node ls ++ lettersTo node ms := by
  rw [lettersTo, List.filter_append, List.map_append]
  rfl

omit [Rollup α] in
theorem lettersTo_bundle (node n : String) (ss : List (Snapshot α)) :
    lettersTo node (ss.map fun s => (n, s)) = if n = node then ss else [] := by
  unfold lettersTo
  induction ss with
  | nil => exact (ite_self _).symm
  | cons s rest ih =>
    rw [List.map_cons, List.filter_cons]
    by_cases hn : n = node
    · rw [if_pos hn] at ih ⊢
      rw [if_pos (decide_eq_true hn), List.map_cons, ih]
    · rw [if_neg hn] at ih ⊢
      rw [if_neg (by rw [decide_eq_true_eq]; exact hn), ih]

omit [Rollup α] in
theorem lettersTo_of_notMem {node : String} {bs : Bundles α} (h : node ∉ bs.map Prod.fst) :
    lettersTo node (letters bs) = [] := by
  induction bs with
  | nil => rfl
  | cons b rest ih =>
    rw [List.map_cons, List.mem_cons, not_or] at h
    have hcons : letters (b :: rest) = (b.2.map fun s => (b.1, s)) ++ letters rest := rfl
    rw [hcons, lettersTo_append, lettersTo_bundle, if_neg (Ne.symm h.1), ih h.2, List.append_nil]

omit [Rollup α] in
/-- A snapshot goes to the end of what is for its node. -/
theorem lettersTo_addToBundle (node n : String) (s : Snapshot α) {bs : Bundles α} (h : (bs.map Prod.fst).Nodup) :
    lettersTo node (letters (addToBundle n s bs)) =
      lettersTo node (letters bs) ++ if n = node then [s] else [] := by
  induction bs with
  | nil => exact lettersTo_bundle node n [s]
  | cons b rest ih =>
    obtain ⟨hb, hrest⟩ := List.nodup_cons.1 h
    have hcons : ∀ (c : String × List (Snapshot α)) (cs : Bundles α),
        lettersTo node (letters (c :: cs)) = (if c.1 = node then c.2 else []) ++ lettersTo node (letters cs) := by
      intro c cs
      rw [← lettersTo_bundle, ← lettersTo_append]
      rfl
    unfold addToBundle
    by_cases hn : b.1 = n
    · rw [if_pos hn, hcons, hcons, ← hn]
      by_cases hnode : b.1 = node
      · have hno : lettersTo node (letters rest) = [] := lettersTo_of_notMem (hnode ▸ hb)
        rw [if_pos hnode, if_pos hnode, if_pos hnode, hno, List.append_nil, List.append_nil]
      · rw [if_neg hnode, if_neg hnode, if_neg hnode, List.append_nil]
    · rw [if_neg hn, hcons, hcons, ih hrest, List.append_assoc]

/-- Every node gets the snapshots that it owns, in order. -/
theorem lettersTo_bundles (hash : PointHash) (d : Dispatcher) (ring : HashRing) (batch : List (Snapshot α))
    (node : String) : lettersTo node (letters (d.bundles hash ring batch)) =
      batch.filter fun s => decide (d.foreignOwner? hash ring s = some node) := by
  have key : ∀ (batch : List (Snapshot α)) (bs : Bundles α), (bs.map Prod.fst).Nodup →
      lettersTo node (letters (batch.foldl (d.bundle hash ring) bs)) =
        lettersTo node (letters bs) ++ batch.filter fun s => decide (d.foreignOwner? hash ring s = some node) := by
    intro batch
    induction batch with
    | nil => exact fun bs _ => (List.append_nil _).symm
    | cons s rest ih =>
      intro bs hbs
      rw [List.foldl_cons, List.filter_cons, bundle]
      cases hs : d.foreignOwner? hash ring s with
      | none => exact ih bs hbs
      | some n =>
        rw [ih _ (nodup_addToBundle n s hbs), lettersTo_addToBundle node n s hbs, List.append_assoc]
        by_cases hn : n = node
        · rw [if_pos hn, if_pos (decide_eq_true (congrArg some hn))]
          rfl
        · rw [if_neg hn, if_neg (by rw [decide_eq_true_eq]; exact fun h => hn (Option.some.inj h)), List.nil_append]
  exact key batch [] List.nodup_nil

theorem mem_letters {hash : PointHash} {d : Dispatcher} {ring : HashRing} {batch : List (Snapshot α)}
    {l : String × Snapshot α} (h : l ∈ letters (d.bundles hash ring batch)) :
    l.2 ∈ batch ∧ d.foreignOwner? hash ring l.2 = some l.1 := by
  have hl : l.2 ∈ lettersTo l.1 (letters (d.bundles hash ring batch)) :=
    List.mem_map.2 ⟨l, List.mem_filter.2 ⟨h, decide_eq_true rfl⟩, rfl⟩
  rw [lettersTo_bundles, List.mem_filter, decide_eq_true_eq] at hl
  exact hl

omit [Rollup α] in
theorem letters_filter (bs : Bundles α) (f : String × List (Snapshot α) → Bool) :
    (letters (bs.filter f)).Sublist (letters bs) := by
  unfold letters
  induction bs with
  | nil => exact List.Sublist.refl _
  | cons b rest ih =>
    rw [List.filter_cons, List.flatMap_cons]
    split
    · rw [List.flatMap_cons]
      exact (List.Sublist.refl _).append ih
    · exact ih.trans (List.sublist_append_right _ _)

omit [Rollup α] in
theorem lettersTo_filter (node : String) (bs : Bundles α) (f : String × List (Snapshot α) → Bool) :
    (lettersTo node (letters (bs.filter f))).Sublist (lettersTo node (letters bs)) :=
  ((letters_filter bs f).filter _).map _

/-- The messages of parcels are those of the bundles. -/
theorem mailOf_bundles (d : Dispatcher) (bs : Bundles α) :
    Worker.mailOf (bs.map fun b => ⟨b.1, b.2.map d.message⟩) = (letters bs).map fun l => (l.1, d.message l.2) := by
  unfold Worker.mailOf letters
  rw [List.flatMap_map, List.map_flatMap]
  simp only [List.map_map]
  rfl

end Dispatcher
end TraceRollup
