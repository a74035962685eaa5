import TraceRollup.Dict
import TraceRollup.Json.Basic

/-!
# Tables and names

What a store holds: tables of rows under ids, and spaces of names with their ids. A space gives
out its ids one after another, from 1 on, and an id once given never changes. The operations
here cannot fail; see `Store` for those that can.
-/

namespace TraceRollup

/-! ### Tables -/

/-- A table: rows under ids. -/
abbrev Table := Dict String Json

def rowBucket? (row : Json) : Option UInt64 := (row.member? "time_bucket").bind Json.uint64?

namespace Table

/-- The rows of those ids that have one. -/
def getMany (t : Table) (ids : List String) : List (String × Json) :=
  ids.filterMap fun id => (t.get? id).map fun row => (id, row)

/-- Puts rows in order, each replacing the one that was there. -/
def upsert (t : Table) (rows : List (String × Json)) : Table := rows.foldl (fun t r => t.set r.1 r.2) t

/-- A row with a bucket below the limit is expired. -/
def rowExpired (before : UInt64) (row : Json) : Bool :=
  match rowBucket? row with
  | some b => decide (b < before)
  | none => false

def deleteExpired (t : Table) (before : UInt64) : Table := t.filter fun _ row => !rowExpired before row

theorem get?_deleteExpired (t : Table) (before : UInt64) (id : String) :
    (t.deleteExpired before).get? id = (t.get? id).filter fun row => !rowExpired before row :=
  Dict.get?_filter _ _ _

end Table

/-! ### Names -/

/-- Names with their ids, and the id that each space has given last. -/
structure NameTable where
  ids : Dict (String × String) Int32 := Dict.empty
  last : Dict String Int32 := Dict.empty

namespace NameTable

def find? (t : NameTable) (space name : String) : Option Int32 := t.ids.get? (space, name)

/-- The names of a space with their ids. -/
def inSpace (t : NameTable) (space : String) : List (String × Int32) :=
  t.ids.toList.filterMap fun e => if e.1.1 = space then some (e.1.2, e.2) else none

/-- Gives an id out; the first one is 1. -/
def nextId (t : NameTable) (space : String) : Int32 × NameTable :=
  let id := (t.last.get? space).getD 0 + 1
  (id, { t with last := t.last.set space id })

/-- The id of a name, given out now if it has none. -/
def create (t : NameTable) (space name : String) : Int32 × NameTable :=
  match t.find? space name with
  | some id => (id, t)
  | none =>
    let r := t.nextId space
    (r.1, { r.2 with ids := r.2.ids.set (space, name) r.1 })

theorem find?_create (t : NameTable) (space name space' name' : String) :
    (t.create space name).2.find? space' name' =
      if (space', name') = (space, name) then some (t.create space name).1 else t.find? space' name' := by
  unfold create
  cases h : t.find? space name with
  | some id =>
    by_cases hk : (space', name') = (space, name)
    · cases hk
      rw [if_pos rfl]
      exact h
    · rw [if_neg hk]
  | none => exact Dict.get?_set _ _ _ _

/-- An id once given stays. -/
theorem find?_create_of_some {t : NameTable} {space' name' : String} {id : Int32}
    (h : t.find? space' name' = some id) (space name : String) :
    (t.create space name).2.find? space' name' = some id := by
  rw [find?_create]
  split
  · rename_i hk
    cases hk
    simp [create, h]
  · exact h

end NameTable

/-! ### Contents -/

structure Contents where
  tables : Dict String Table
  names : NameTable

namespace Contents

def empty : Contents := ⟨Dict.empty, {}⟩
instance : Inhabited Contents := ⟨empty⟩

def table (c : Contents) (name : String) : Table := (c.tables.get? name).getD Dict.empty
def nameSpace (c : Contents) (space : String) : List (String × Int32) := c.names.inSpace space

/-- Puts rows into a table, which exists afterwards even if there are none. -/
def upsert (c : Contents) (name : String) (rows : List (String × Json)) : Contents :=
  { c with tables := c.tables.set name ((c.table name).upsert rows) }

/-- Deletes the rows with buckets below the limit. A table that does not exist is not made. -/
def deleteExpired (c : Contents) (name : String) (before : UInt64) : Contents × Nat :=
  match c.tables.get? name with
  | none => (c, 0)
  | some t =>
    let kept := t.deleteExpired before
    ({ c with tables := c.tables.set name kept }, t.size - kept.size)

def findName? (c : Contents) (space name : String) : Option Int32 := c.names.find? space name

/-- The id of a name, registered now if it was not. -/
def createName (c : Contents) (space name : String) : Int32 × Contents :=
  let r := c.names.create space name
  (r.1, { c with names := r.2 })

end Contents
end TraceRollup
