import TraceRollup.HashRing

/-!
# Owners on a ring

The owner of a key holds the point that is nearest going clockwise, and at equal distance it has
the smallest name (`HashRing.owner?_eq_some_iff`). So the owner depends on the set of nodes
alone, and a node that joins takes keys for itself only.
-/

namespace TraceRollup.HashRing

/-! ### Names in order -/

theorem pairwise_insertName {name : String} {ns : List String} (h : ns.Pairwise (· < ·)) :
    (insertName name ns).Pairwise (· < ·) := by
  induction ns with
  | nil => exact List.pairwise_singleton _ _
  | cons n rest ih =>
    obtain ⟨hn, hrest⟩ := List.pairwise_cons.1 h
    unfold insertName
    split
    · rename_i hlt
      refine List.pairwise_cons.2 ⟨fun m hm => ?_, h⟩
      rcases List.mem_cons.1 hm with rfl | hm
      · exact hlt
      · exact String.lt_trans hlt (hn m hm)
    · split
      · exact h
      · rename_i hnlt hne
        refine List.pairwise_cons.2 ⟨fun m hm => ?_, ih hrest⟩
        rcases mem_insertName.1 hm with rfl | hm
        · by_cases hgt : n < m
          · exact hgt
          · exact absurd (String.le_antisymm hgt hnlt) hne
        · exact hn m hm

theorem pairwise_sortNames (ns : List String) : (sortNames ns).Pairwise (· < ·) := by
  have key : ∀ (ns acc : List String), acc.Pairwise (· < ·) →
      (ns.foldl (fun ns n => insertName n ns) acc).Pairwise (· < ·) := by
    intro ns
    induction ns with
    | nil => exact fun acc h => h
    | cons n rest ih => exact fun acc h => ih _ (pairwise_insertName h)
  exact key ns [] List.Pairwise.nil

/-- The sorted names depend on the set of names alone. -/
theorem sortNames_congr {xs ys : List String} (h : ∀ n, n ∈ xs ↔ n ∈ ys) : sortNames xs = sortNames ys := by
  have hnodup : ∀ {ns : List String}, ns.Pairwise (· < ·) → ns.Nodup :=
    fun hp => List.Pairwise.imp (fun {a b} (hlt : a < b) (heq : a = b) => String.lt_irrefl a (heq ▸ hlt)) hp
  have hx := pairwise_sortNames xs
  have hy := pairwise_sortNames ys
  have hperm : (sortNames xs).Perm (sortNames ys) := by
    rw [List.perm_ext_iff_of_nodup (hnodup hx) (hnodup hy)]
    intro n
    rw [mem_sortNames, mem_sortNames, h]
  exact hperm.eq_of_pairwise (fun a b _ _ hab hba => absurd (String.lt_trans hab hba) (String.lt_irrefl a)) hx hy

theorem build_congr {xs ys : List String} (h : ∀ n, n ∈ xs ↔ n ∈ ys) (hash : PointHash) (virtualNodes : Nat) :
    build hash xs virtualNodes = build hash ys virtualNodes := by
  unfold build
  rw [sortNames_congr h]

/-- Names that stand earlier are smaller. -/
theorem le_of_getElem? {ns : List String} (h : ns.Pairwise (· < ·)) {i j : Nat} {m n : String} (hij : i ≤ j)
    (hm : ns[i]? = some m) (hn : ns[j]? = some n) : m ≤ n := by
  obtain ⟨hi, rfl⟩ := List.getElem?_eq_some_iff.1 hm
  obtain ⟨hj, rfl⟩ := List.getElem?_eq_some_iff.1 hn
  rcases Nat.lt_or_eq_of_le hij with hlt | rfl
  · exact fun hgt => String.lt_irrefl _ (String.lt_trans hgt (List.pairwise_iff_getElem.1 h i j hi hj hlt))
  · exact String.le_refl _

/-! ### Points in order -/

/-- Points in order of place, no two at one place. -/
abbrev Ordered (ps : List RingPoint) : Prop := ps.Pairwise fun p q => p.place < q.place

/-- The first of the points at a place. -/
def at? (ps : List RingPoint) (place : UInt64) : Option RingPoint := ps.find? fun p => decide (p.place = place)

theorem place_of_at? {ps : List RingPoint} {place : UInt64} {p : RingPoint} (h : at? ps place = some p) :
    p.place = place := by
  simpa using List.find?_some h

theorem mem_insertPoint {p q : RingPoint} {ps : List RingPoint} (h : q ∈ insertPoint p ps) : q = p ∨ q ∈ ps := by
  induction ps with
  | nil => exact Or.inl (List.mem_singleton.1 h)
  | cons r rest ih =>
    unfold insertPoint at h
    split at h
    · exact List.mem_cons.1 h
    · split at h
      · exact Or.inr h
      · rcases List.mem_cons.1 h with rfl | h
        · exact Or.inr (List.mem_cons_self ..)
        · exact (ih h).imp_right (List.mem_cons_of_mem r)

theorem ordered_insertPoint {p : RingPoint} {ps : List RingPoint} (h : Ordered ps) : Ordered (insertPoint p ps) := by
  induction ps with
  | nil => exact List.pairwise_singleton _ _
  | cons q rest ih =>
    obtain ⟨hq, hrest⟩ := List.pairwise_cons.1 h
    unfold insertPoint
    split
    · rename_i hlt
      refine List.pairwise_cons.2 ⟨fun r hr => ?_, h⟩
      rcases List.mem_cons.1 hr with rfl | hr
      · exact hlt
      · exact UInt64.lt_trans hlt (hq r hr)
    · split
      · exact h
      · rename_i hnlt hne
        refine List.pairwise_cons.2 ⟨fun r hr => ?_, ih hrest⟩
        rcases mem_insertPoint hr with rfl | hr
        · exact UInt64.lt_of_le_of_ne (UInt64.not_lt.1 hnlt) (Ne.symm hne)
        · exact hq r hr

/-- A point that is put in is the one at its place if none was there. -/
theorem at?_insertPoint {p : RingPoint} {ps : List RingPoint} (h : Ordered ps) (place : UInt64) :
    at? (insertPoint p ps) place = (at? ps place).or (at? [p] place) := by
  induction ps with
  | nil => simp [insertPoint, at?]
  | cons q rest ih =>
    obtain ⟨hq, hrest⟩ := List.pairwise_cons.1 h
    unfold insertPoint
    split
    · rename_i hlt
      -- Nothing is at the place of `p`, as all that follows lies beyond it.
      by_cases hp : p.place = place
      · have hnone : at? (q :: rest) place = none := by
          refine List.find?_eq_none.2 fun r hr => ?_
          have hbeyond : p.place < r.place := by
            rcases List.mem_cons.1 hr with rfl | hr
            · exact hlt
            · exact UInt64.lt_trans hlt (hq r hr)
          simpa using fun heq : r.place = place => UInt64.lt_irrefl _ (heq.trans hp.symm ▸ hbeyond)
        rw [hnone]
        simp [at?, hp]
      · simp [at?, hp]
    · split
      · rename_i hpq
        by_cases hp : q.place = place
        · simp [at?, hp]
        · simp [at?, hpq, hp]
      · by_cases hp : q.place = place
        · simp [at?, hp]
        · have hih := ih hrest
          simp only [at?] at hih ⊢
          simp [hp, hih]

theorem layOut_spec (ps : List RingPoint) : Ordered (layOut ps) ∧ ∀ place, at? (layOut ps) place = at? ps place := by
  have key : ∀ (ps acc : List RingPoint), Ordered acc →
      Ordered (ps.foldl (fun ps p => insertPoint p ps) acc) ∧
        ∀ place, at? (ps.foldl (fun ps p => insertPoint p ps) acc) place = (at? acc place).or (at? ps place) := by
    intro ps
    induction ps with
    | nil => exact fun acc h => ⟨h, fun place => by simp [at?]⟩
    | cons p rest ih =>
      intro acc h
      obtain ⟨hordered, hat⟩ := ih _ (ordered_insertPoint (p := p) h)
      refine ⟨hordered, fun place => (hat place).trans ?_⟩
      rw [at?_insertPoint h, Option.or_assoc]
      congr 1
      by_cases hp : p.place = place <;> simp [at?, hp]
  exact ⟨(key ps [] List.Pairwise.nil).1, fun place => ((key ps [] List.Pairwise.nil).2 place).trans (by simp [at?])⟩

/-- Each place of some points is taken by the first of them there. -/
theorem mem_layOut {ps : List RingPoint} {p : RingPoint} : p ∈ layOut ps ↔ at? ps p.place = some p := by
  obtain ⟨hordered, hat⟩ := layOut_spec ps
  rw [← hat]
  generalize layOut ps = qs at hordered
  refine ⟨fun hmem => ?_, List.mem_of_find?_eq_some⟩
  induction qs with
  | nil => cases hmem
  | cons q rest ih =>
    obtain ⟨hq, hrest⟩ := List.pairwise_cons.1 hordered
    rcases List.mem_cons.1 hmem with rfl | hmem
    · simp [at?]
    · have hne : q.place ≠ p.place := fun heq => UInt64.lt_irrefl _ (heq ▸ hq p hmem)
      have hih := ih hrest hmem
      simp only [at?] at hih ⊢
      simp [hne, hih]

/-! ### Going clockwise -/

theorem toNat_ahead (p place : UInt64) :
    (p - place).toNat = if place.toNat ≤ p.toNat then p.toNat - place.toNat
      else 18446744073709551616 - place.toNat + p.toNat := by
  have hp := p.toNat_lt
  have hplace := place.toNat_lt
  rw [UInt64.toNat_sub]
  split <;> omega

theorem firstFrom?_eq_none {ps : List RingPoint} {place : UInt64} : firstFrom? ps place = none ↔ ps = [] := by
  unfold firstFrom?
  cases hfind : ps.find? fun p => decide (place ≤ p.place) with
  | some p =>
    have hmem := List.mem_of_find?_eq_some hfind
    simpa using List.ne_nil_of_mem hmem
  | none => exact List.head?_eq_none_iff

/-- The first point from a place on is the nearest. -/
theorem firstFrom?_spec {ps : List RingPoint} (h : Ordered ps) {place : UInt64} {p : RingPoint}
    (hp : firstFrom? ps place = some p) : p ∈ ps ∧ ∀ q ∈ ps, p.place - place ≤ q.place - place := by
  unfold firstFrom? at hp
  split at hp
  · rename_i r hfind
    cases hp
    obtain ⟨hahead, before, after, rfl, hbefore⟩ := List.find?_eq_some_iff_append.1 hfind
    refine ⟨by simp, fun q hq => ?_⟩
    have hplace : place.toNat ≤ p.place.toNat := UInt64.le_iff_toNat_le.1 (by simpa using hahead)
    rw [UInt64.le_iff_toNat_le, toNat_ahead, toNat_ahead]
    rcases List.mem_append.1 hq with hq | hq
    · have hbehind : ¬ place ≤ q.place := by simpa using hbefore q hq
      rw [UInt64.le_iff_toNat_le] at hbehind
      have hbound := p.place.toNat_lt
      rw [if_pos hplace, if_neg hbehind]
      omega
    · have hle : p.place.toNat ≤ q.place.toNat := by
        rcases List.mem_cons.1 hq with rfl | hq
        · exact Nat.le_refl _
        · have hlt := (List.pairwise_cons.1 (List.pairwise_append.1 h).2.1).1 q hq
          exact Nat.le_of_lt (UInt64.lt_iff_toNat_lt.1 hlt)
      rw [if_pos hplace, if_pos (by omega)]
      omega
  · rename_i hfind
    -- All points lie behind the place, so the way to each goes round.
    have hbehind : ∀ q ∈ ps, ¬ place.toNat ≤ q.place.toNat := by
      intro q hq
      have hq := List.find?_eq_none.1 hfind q hq
      rw [← UInt64.le_iff_toNat_le]
      simpa using hq
    cases ps with
    | nil => cases hp
    | cons r rest =>
      cases hp
      refine ⟨List.mem_cons_self .., fun q hq => ?_⟩
      have hle : p.place.toNat ≤ q.place.toNat := by
        rcases List.mem_cons.1 hq with rfl | hmem
        · exact Nat.le_refl _
        · exact Nat.le_of_lt (UInt64.lt_iff_toNat_lt.1 ((List.pairwise_cons.1 h).1 q hmem))
      rw [UInt64.le_iff_toNat_le, toNat_ahead, toNat_ahead, if_neg (hbehind p (List.mem_cons_self ..)),
        if_neg (hbehind q hq)]
      omega

/-! ### Points of nodes -/

variable {hash : PointHash} {nodes : List String} {virtualNodes : Nat} {key : String}

/-- A node has a replica at a place. -/
def Marks (hash : PointHash) (virtualNodes : Nat) (node : String) (place : UInt64) : Prop :=
  ∃ r < max virtualNodes 1, hash (replicaLabel node r) = place

theorem mem_nodePoints {p : RingPoint} :
    p ∈ (sortNames nodes).zipIdx.flatMap (nodePoints hash virtualNodes) ↔
      ∃ node, (sortNames nodes)[p.node]? = some node ∧ Marks hash virtualNodes node p.place := by
  constructor
  · intro h
    obtain ⟨⟨node, i⟩, hnode, hp⟩ := List.mem_flatMap.1 h
    obtain ⟨r, hr, rfl⟩ := List.mem_map.1 hp
    exact ⟨node, List.mem_zipIdx_iff_getElem?.1 hnode, r, List.mem_range.1 hr, rfl⟩
  · rintro ⟨node, hnode, r, hr, hplace⟩
    refine List.mem_flatMap.2 ⟨(node, p.node), List.mem_zipIdx_iff_getElem?.2 hnode, ?_⟩
    exact List.mem_map.2 ⟨r, List.mem_range.2 hr, by rw [hplace]⟩

/-- The nodes lay their points one after another. -/
theorem pairwise_nodePoints :
    ((sortNames nodes).zipIdx.flatMap (nodePoints hash virtualNodes)).Pairwise fun p q => p.node ≤ q.node := by
  refine List.pairwise_flatMap.2 ⟨fun e _ => ?_, ?_⟩
  · exact List.pairwise_map.2 (List.pairwise_iff_forall_sublist.2 fun _ => Nat.le_refl _)
  · refine List.pairwise_iff_getElem.2 fun i j hi hj hij p hp q hq => ?_
    obtain ⟨_, _, rfl⟩ := List.mem_map.1 hp
    obtain ⟨_, _, rfl⟩ := List.mem_map.1 hq
    simp only [List.getElem_zipIdx]
    omega

/-- The smallest of the nodes with a replica at a place holds the point there. -/
theorem holder_of_mem_points {p : RingPoint} (h : p ∈ (build hash nodes virtualNodes).points) :
    ∃ node, (build hash nodes virtualNodes).nodes[p.node]? = some node ∧ node ∈ nodes ∧
      Marks hash virtualNodes node p.place ∧ ∀ m ∈ nodes, Marks hash virtualNodes m p.place → node ≤ m := by
  have hat := mem_layOut.1 h
  obtain ⟨node, hnode, hmarks⟩ := mem_nodePoints.1 (List.mem_of_find?_eq_some hat)
  refine ⟨node, hnode, mem_sortNames.1 (List.mem_of_getElem? hnode), hmarks, fun m hm hmarked => ?_⟩
  obtain ⟨j, hj⟩ := List.mem_iff_getElem?.1 (mem_sortNames.2 hm)
  have hmem : (⟨p.place, j⟩ : RingPoint) ∈ (sortNames nodes).zipIdx.flatMap (nodePoints hash virtualNodes) :=
    mem_nodePoints.2 ⟨m, hj, hmarked⟩
  obtain ⟨_, before, after, hsplit, hbefore⟩ := List.find?_eq_some_iff_append.1 hat
  have hpair : ((sortNames nodes).zipIdx.flatMap (nodePoints hash virtualNodes)).Pairwise fun p q => p.node ≤ q.node :=
    pairwise_nodePoints
  rw [hsplit] at hmem hpair
  have hle : p.node ≤ j := by
    rcases List.mem_append.1 hmem with hmem | hmem
    · have hno := hbefore _ hmem
      simp at hno
    · rcases List.mem_cons.1 hmem with heq | hmem
      · exact Nat.le_of_eq (congrArg RingPoint.node heq).symm
      · exact (List.pairwise_cons.1 (List.pairwise_append.1 hpair).2.1).1 _ hmem
  exact le_of_getElem? (pairwise_sortNames nodes) hle hnode hj

theorem exists_mem_points {m : String} {place : UInt64} (hm : m ∈ nodes) (h : Marks hash virtualNodes m place) :
    ∃ p ∈ (build hash nodes virtualNodes).points, p.place = place := by
  obtain ⟨j, hj⟩ := List.mem_iff_getElem?.1 (mem_sortNames.2 hm)
  have hmem : (⟨place, j⟩ : RingPoint) ∈ (sortNames nodes).zipIdx.flatMap (nodePoints hash virtualNodes) :=
    mem_nodePoints.2 ⟨m, hj, h⟩
  have hsome : (at? ((sortNames nodes).zipIdx.flatMap (nodePoints hash virtualNodes)) place).isSome :=
    List.find?_isSome.2 ⟨_, hmem, by simp⟩
  obtain ⟨p, hp⟩ := Option.isSome_iff_exists.1 hsome
  have hplace := place_of_at? hp
  exact ⟨p, mem_layOut.2 (hplace.symm ▸ hp), hplace⟩

/-! ### Owners -/

/-- How far a replica of a node lies ahead of a key on the way round. -/
def ahead (hash : PointHash) (key node : String) (replica : Nat) : UInt64 := hash (replicaLabel node replica) - hash key

/-- A node has a replica that is nearer than all others, or as near and of a smaller name. -/
def Nearest (hash : PointHash) (nodes : List String) (virtualNodes : Nat) (key node : String) : Prop :=
  node ∈ nodes ∧ ∃ r < max virtualNodes 1, ∀ m ∈ nodes, ∀ q < max virtualNodes 1,
    ahead hash key node r < ahead hash key m q ∨ ahead hash key node r = ahead hash key m q ∧ node ≤ m

theorem Nearest.unique {m n : String} (hm : Nearest hash nodes virtualNodes key m)
    (hn : Nearest hash nodes virtualNodes key n) : m = n := by
  obtain ⟨hmem, r, hr, hfirst⟩ := hm
  obtain ⟨hnem, q, hq, hsecond⟩ := hn
  rcases hfirst n hnem q hq with hlt | ⟨heq, hle⟩
  · rcases hsecond m hmem r hr with hgt | ⟨heq, _⟩
    · exact absurd (UInt64.lt_trans hlt hgt) (UInt64.lt_irrefl _)
    · exact absurd (heq ▸ hlt) (UInt64.lt_irrefl _)
  · rcases hsecond m hmem r hr with hgt | ⟨_, hge⟩
    · exact absurd (heq ▸ hgt) (UInt64.lt_irrefl _)
    · exact String.le_antisymm hle hge

theorem nearest_of_owner? {node : String} (h : (build hash nodes virtualNodes).owner? hash key = some node) :
    Nearest hash nodes virtualNodes key node := by
  obtain ⟨p, hfirst, hnode⟩ := Option.bind_eq_some_iff.1 h
  obtain ⟨hmem, hnearest⟩ := firstFrom?_spec (layOut_spec _).1 hfirst
  obtain ⟨n, hn, hin, ⟨r, hr, hplace⟩, hsmallest⟩ := holder_of_mem_points hmem
  cases hn.symm.trans hnode
  refine ⟨hin, r, hr, fun m hm q hq => ?_⟩
  have hmarked : Marks hash virtualNodes m (hash (replicaLabel m q)) := ⟨q, hq, rfl⟩
  obtain ⟨p', hmem', hplace'⟩ := exists_mem_points hm hmarked
  have hle : ahead hash key node r ≤ ahead hash key m q := by
    unfold ahead
    rw [hplace, ← hplace']
    exact hnearest p' hmem'
  rcases UInt64.lt_or_eq_of_le hle with hlt | heq
  · exact Or.inl hlt
  · refine Or.inr ⟨heq, hsmallest m hm ⟨q, hq, ?_⟩⟩
    have hsame := (UInt64.sub_left_inj _).1 heq
    exact hsame.symm.trans hplace

theorem owner?_eq_none_iff : (build hash nodes virtualNodes).owner? hash key = none ↔ nodes = [] := by
  constructor
  · intro h
    refine List.eq_nil_iff_forall_not_mem.2 fun m hm => ?_
    have hmarked : Marks hash virtualNodes m (hash (replicaLabel m 0)) := ⟨0, by omega, rfl⟩
    obtain ⟨p, hmem, _⟩ := exists_mem_points hm hmarked
    have hfirst : firstFrom? (build hash nodes virtualNodes).points (hash key) ≠ none :=
      fun hnone => List.ne_nil_of_mem hmem (firstFrom?_eq_none.1 hnone)
    obtain ⟨q, hq⟩ := Option.ne_none_iff_exists'.1 hfirst
    obtain ⟨node, hnode, _⟩ := holder_of_mem_points (firstFrom?_spec (layOut_spec _).1 hq).1
    have howner : (build hash nodes virtualNodes).owner? hash key = some node :=
      Option.bind_eq_some_iff.2 ⟨q, hq, hnode⟩
    rw [h] at howner
    cases howner
  · rintro rfl
    rfl

theorem owner?_eq_some_iff {node : String} :
    (build hash nodes virtualNodes).owner? hash key = some node ↔ Nearest hash nodes virtualNodes key node := by
  refine ⟨nearest_of_owner?, fun h => ?_⟩
  cases howner : (build hash nodes virtualNodes).owner? hash key with
  | none =>
    have hnil := owner?_eq_none_iff.1 howner
    exact absurd (hnil ▸ h.1) List.not_mem_nil
  | some n => rw [(nearest_of_owner? howner).unique h]

/-- A ring with members owns every key. -/
theorem owner?_build {members : List String} (h : members ≠ []) (hash : PointHash) (virtualNodes : Nat) (key : String) :
    ∃ node, (build hash members virtualNodes).owner? hash key = some node :=
  Option.ne_none_iff_exists'.1 fun hnone => h (owner?_eq_none_iff.1 hnone)

/-- The owner of a key is a member. -/
theorem mem_of_owner? {members : List String} {node : String}
    (h : (build hash members virtualNodes).owner? hash key = some node) : node ∈ members :=
  (nearest_of_owner? h).1

/-! ### The same nodes in other lists -/

/-- The owner is the node of the nearest replica, there is none only without nodes, and neither
order nor repetition in the list of nodes matters. -/
theorem owner?_nearest (hash : PointHash) (nodes : List String) (virtualNodes : Nat) (key : String) :
    (∀ node, (build hash nodes virtualNodes).owner? hash key = some node ↔
      Nearest hash nodes virtualNodes key node) ∧
    ((build hash nodes virtualNodes).owner? hash key = none ↔ nodes = []) ∧
    ∀ others : List String, (∀ n, n ∈ others ↔ n ∈ nodes) →
      (build hash others virtualNodes).owner? hash key = (build hash nodes virtualNodes).owner? hash key :=
  ⟨fun _ => owner?_eq_some_iff, owner?_eq_none_iff, fun _ hsame => by rw [build_congr hsame]⟩

/-- Three points, two of them at one place, and a key that lies beyond all of them. -/
def sharedPlace : PointHash := fun text => if text = "key" then 9 else if text = "c#0" then 7 else 4

theorem owner?_nearest_sharedPlace :
    (∀ n, n ∈ ["c", "b", "a", "b"] ↔ n ∈ ["a", "b", "c"]) ∧
      (build sharedPlace ["c", "b", "a", "b"] 1).owner? sharedPlace "key" =
        (build sharedPlace ["a", "b", "c"] 1).owner? sharedPlace "key" ∧
      (build sharedPlace ["a", "b", "c"] 1).owner? sharedPlace "key" = some "a" := by
  have hsame : ∀ n, n ∈ ["c", "b", "a", "b"] ↔ n ∈ ["a", "b", "c"] := by
    intro n
    simp only [List.mem_cons, List.not_mem_nil, or_false]
    constructor
    · rintro (h | h | h | h) <;> simp [h]
    · rintro (h | h | h) <;> simp [h]
  exact ⟨hsame, (owner?_nearest sharedPlace ["a", "b", "c"] 1 "key").2.2 _ hsame, by decide +kernel⟩

/-! ### Nodes that come and go -/

/-- A node that is nearest among many is nearest among fewer. -/
theorem Nearest.among {few many : List String} {n : String} (h : Nearest hash many virtualNodes key n)
    (hsub : ∀ m ∈ few, m ∈ many) (hn : n ∈ few) : Nearest hash few virtualNodes key n := by
  obtain ⟨_, r, hr, hfirst⟩ := h
  exact ⟨hn, r, hr, fun m hm => hfirst m (hsub m hm)⟩

/-- A node that joins leaves every key with its owner or takes it for itself; a node that leaves
gives up its own keys and no others change their owner. -/
theorem owner?_join_leave (hash : PointHash) (virtualNodes : Nat) (key : String) (nodes joined : List String)
    (c : String) (hjoined : ∀ n, n ∈ joined ↔ n = c ∨ n ∈ nodes) :
    ((build hash joined virtualNodes).owner? hash key = (build hash nodes virtualNodes).owner? hash key ∨
      (build hash joined virtualNodes).owner? hash key = some c) ∧
    ((build hash nodes virtualNodes).owner? hash key ≠ some c →
      (build hash (nodes.filter fun n => decide (n ≠ c)) virtualNodes).owner? hash key =
        (build hash nodes virtualNodes).owner? hash key) := by
  constructor
  · obtain ⟨n, howner⟩ := owner?_build (List.ne_nil_of_mem ((hjoined c).2 (Or.inl rfl))) hash virtualNodes key
    have hnearest := nearest_of_owner? howner
    rcases (hjoined n).1 hnearest.1 with rfl | hn
    · exact Or.inr howner
    · have hbefore := hnearest.among (fun m hm => (hjoined m).2 (Or.inr hm)) hn
      exact Or.inl (howner.trans (owner?_eq_some_iff.2 hbefore).symm)
  · intro hother
    cases howner : (build hash nodes virtualNodes).owner? hash key with
    | none =>
      rw [owner?_eq_none_iff.1 howner]
      rfl
    | some n =>
      have hne : n ≠ c := fun heq => hother (heq ▸ howner)
      have hnearest := nearest_of_owner? howner
      have hn : n ∈ nodes.filter fun n => decide (n ≠ c) := List.mem_filter.2 ⟨hnearest.1, by simpa using hne⟩
      exact owner?_eq_some_iff.2 (hnearest.among (fun m hm => (List.mem_filter.1 hm).1) hn)

/-- A node that sorts first joins, and takes the place which it shares with another. -/
theorem owner?_join_leave_sharedPlace :
    (∀ n, n ∈ ["b", "c", "a"] ↔ n = "a" ∨ n ∈ ["c", "b"]) ∧
      ((build sharedPlace ["b", "c", "a"] 1).owner? sharedPlace "key" =
          (build sharedPlace ["c", "b"] 1).owner? sharedPlace "key" ∨
        (build sharedPlace ["b", "c", "a"] 1).owner? sharedPlace "key" = some "a") ∧
      (build sharedPlace ["c", "b"] 1).owner? sharedPlace "key" = some "b" := by
  have hjoined : ∀ n, n ∈ ["b", "c", "a"] ↔ n = "a" ∨ n ∈ ["c", "b"] := by
    intro n
    simp only [List.mem_cons, List.not_mem_nil, or_false]
    constructor
    · rintro (h | h | h) <;> simp [h]
    · rintro (h | h | h) <;> simp [h]
  exact ⟨hjoined, (owner?_join_leave sharedPlace 1 "key" ["c", "b"] ["b", "c", "a"] "a" hjoined).1, by decide +kernel⟩

end TraceRollup.HashRing
