import TraceRollup.Digest.Sha256
import TraceRollup.Counters

/-!
# The hash ring

A ring places every node of a cluster at several points of the circle of 64-bit numbers. A
key belongs to the node of the first point clockwise from the key's own place. Points come
from a hash of the node's name and a replica number, so all nodes build the same ring from
the same names. A node keeps the ring while its member list stays the same (`Router.ring`).
-/

namespace TraceRollup

/-! ### Rings -/

/-- Where a key or a replica of a node lies on the circle. -/
abbrev PointHash := String → UInt64

/-- A place on the circle with the position, in the list of nodes, of the node that holds it. -/
structure RingPoint where
  place : UInt64
  node : Nat
  deriving DecidableEq, Inhabited

/-- The distinct nodes in order, and the points in order of place, no two at one place. -/
structure HashRing where
  nodes : List String
  points : List RingPoint
  deriving DecidableEq, Inhabited

namespace HashRing

/-- Puts a name into a sorted list without repetitions. -/
def insertName (name : String) : List String → List String
  | [] => [name]
  | n :: rest =>
    if name < n then name :: n :: rest
    else if name = n then n :: rest
    else n :: insertName name rest

def sortNames (names : List String) : List String := names.foldl (fun ns n => insertName n ns) []

/-- The text whose hash places a replica. -/
def replicaLabel (node : String) (replica : Nat) : String := node ++ "#" ++ toString replica

/-- The points of a node at a position, one per replica; there is at least one replica. -/
def nodePoints (hash : PointHash) (virtualNodes : Nat) (e : String × Nat) : List RingPoint :=
  (List.range (max virtualNodes 1)).map fun r => ⟨hash (replicaLabel e.1 r), e.2⟩

/-- Puts a point among points in order of place, unless its place is taken. -/
def insertPoint (p : RingPoint) : List RingPoint → List RingPoint
  | [] => [p]
  | q :: rest =>
    if p.place < q.place then p :: q :: rest
    else if p.place = q.place then q :: rest
    else q :: insertPoint p rest

/-- The points in order of place; of several at one place the first counts. -/
def layOut (points : List RingPoint) : List RingPoint := points.foldl (fun ps p => insertPoint p ps) []

/-- The ring of a list of nodes. The nodes lay their points in order, so a point shared by two
of them stays with the one that sorts first. -/
def build (hash : PointHash) (nodes : List String) (virtualNodes : Nat) : HashRing :=
  let names := sortNames nodes
  { nodes := names, points := layOut (names.zipIdx.flatMap (nodePoints hash virtualNodes)) }

def isEmpty (r : HashRing) : Bool := r.nodes.isEmpty

/-- The first point at or after a place, going round past the last point. -/
def firstFrom? (points : List RingPoint) (place : UInt64) : Option RingPoint :=
  match points.find? fun p => decide (place ≤ p.place) with
  | some p => some p
  | none => points.head?

/-- The node that holds the first point at or after a place. -/
def holder? (r : HashRing) (place : UInt64) : Option String :=
  (firstFrom? r.points place).bind fun p => r.nodes[p.node]?

/-- The node that owns a key; none on an empty ring. -/
def owner? (hash : PointHash) (r : HashRing) (key : String) : Option String := r.holder? (hash key)

theorem mem_insertName {n m : String} {ns : List String} : n ∈ insertName m ns ↔ n = m ∨ n ∈ ns := by
  induction ns with
  | nil => simp [insertName]
  | cons k rest ih =>
    unfold insertName
    split
    · simp
    · split
      · rename_i _ h; subst h; simp
      · simp only [List.mem_cons, ih]
        constructor
        · rintro (h | h | h) <;> simp [h]
        · rintro (h | h | h) <;> simp [h]

/-- Sorting loses no name and adds none. -/
theorem mem_sortNames {n : String} {ns : List String} : n ∈ sortNames ns ↔ n ∈ ns := by
  have key : ∀ (ns acc : List String),
      n ∈ ns.foldl (fun ns n => insertName n ns) acc ↔ n ∈ acc ∨ n ∈ ns := by
    intro ns
    induction ns with
    | nil => simp
    | cons m rest ih =>
      intro acc
      rw [List.foldl_cons, ih, mem_insertName, List.mem_cons]
      constructor
      · rintro ((h | h) | h) <;> simp [h]
      · rintro (h | h | h) <;> simp [h]
  simpa [sortNames] using key ns []

end HashRing

/-! ### Membership -/

/-- The member list of a cluster. The version tells one list from another, even an equal one:
each update makes a new version. -/
structure Membership where
  nodes : List String
  version : Nat := 0
  deriving DecidableEq, Inhabited

def Membership.update (m : Membership) (nodes : List String) : Membership := ⟨nodes, m.version + 1⟩

/-- Knows the members of the cluster and keeps the ring last built, with the version of the
list that it was built from. -/
structure Router where
  members : Membership
  virtualNodes : Nat
  /-- The number of members is reported on a gauge. -/
  reports : Bool := true
  built : Option (Nat × HashRing) := none
  deriving DecidableEq, Inhabited

namespace Router

def update (r : Router) (nodes : List String) : Router := { r with members := r.members.update nodes }

/-- The ring kept, if it was built from the current list. -/
def kept? (r : Router) : Option HashRing :=
  match r.built with
  | some (version, ring) => if version = r.members.version then some ring else none
  | none => none

structure Answer where
  ring : HashRing
  router : Router
  counters : Counters
  rebuilt : Bool

/-- The ring of the current member list, built anew when the list is another one. -/
def ring (hash : PointHash) (r : Router) (c : Counters) : Answer :=
  match r.kept? with
  | some ring => ⟨ring, r, c, false⟩
  | none =>
    let ring := HashRing.build hash r.members.nodes r.virtualNodes
    { ring, router := { r with built := some (r.members.version, ring) }
      counters := if r.reports then c.put .clusterNodes ring.nodes.length else c
      rebuilt := true }

end Router
end TraceRollup
