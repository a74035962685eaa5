import TraceRollup.Store.Basic

/-!
# A store that can fail

Every call to a store is recorded and may be interfered with: refused, or for names answered
with nothing or with id 0. A fault plan decides that from the calls made so far, so any
pattern of failures is a plan. A refused call changes nothing but the record of calls.
-/

namespace TraceRollup

/-! ### Calls and faults -/

inductive StoreCall
  | read (table : String) (ids : List String)
  | write (table : String) (ids : List String)
  | delete (table : String)
  | find (space name : String)
  | create (space name : String)
  deriving DecidableEq

/-- What befalls a call. -/
inductive Verdict
  | answer
  | refuse (what : String)
  | findNothing
  | giveZero
  deriving DecidableEq

/-- A call with what befell it. -/
structure CallRecord where
  call : StoreCall
  verdict : Verdict
  deriving DecidableEq

/-- Decides about a call from the calls before it, the latest first. -/
abbrev FaultPlan := List CallRecord → StoreCall → Verdict

inductive StoreError
  | unavailable (what : String)
  | malformed (tag id : String)
  deriving DecidableEq, Repr

def StoreError.message : StoreError → String
  | .unavailable what => "storage backend unavailable: " ++ what ++ " offline"
  | .malformed tag id => "row " ++ id ++ " of " ++ tag ++ " is malformed"

/-- A store: what it holds, the faults that befall it, and the calls made so far, the latest
first. -/
structure Store where
  contents : Contents
  plan : FaultPlan
  history : List CallRecord

namespace Store

/-- A store that holds nothing and never fails. -/
def fresh : Store := ⟨Contents.empty, fun _ _ => .answer, []⟩
instance : Inhabited Store := ⟨fresh⟩

/-- Records a call and tells what befalls it. -/
def meet (s : Store) (call : StoreCall) : Verdict × Store :=
  let v := s.plan s.history call
  (v, { s with history := ⟨call, v⟩ :: s.history })

/-! ### Operations -/

def getMany (s : Store) (table : String) (ids : List String) :
    Except StoreError (List (String × Json)) × Store :=
  match s.meet (.read table ids) with
  | (.refuse what, s) => (.error (.unavailable what), s)
  | (_, s) => (.ok ((s.contents.table table).getMany ids), s)

def upsert (s : Store) (table : String) (rows : List (String × Json)) : Except StoreError Unit × Store :=
  match s.meet (.write table (rows.map Prod.fst)) with
  | (.refuse what, s) => (.error (.unavailable what), s)
  | (_, s) => (.ok (), { s with contents := s.contents.upsert table rows })

/-- Deletes the rows with buckets below the limit and tells how many. -/
def deleteExpired (s : Store) (table : String) (before : UInt64) : Except StoreError Nat × Store :=
  match s.meet (.delete table) with
  | (.refuse what, s) => (.error (.unavailable what), s)
  | (_, s) =>
    let r := s.contents.deleteExpired table before
    (.ok r.2, { s with contents := r.1 })

def findName (s : Store) (space name : String) : Except StoreError (Option Int32) × Store :=
  match s.meet (.find space name) with
  | (.refuse what, s) => (.error (.unavailable what), s)
  | (.findNothing, s) => (.ok none, s)
  | (.giveZero, s) => (.ok (some 0), s)
  | (.answer, s) => (.ok (s.contents.findName? space name), s)

def createName (s : Store) (space name : String) : Except StoreError Int32 × Store :=
  match s.meet (.create space name) with
  | (.refuse what, s) => (.error (.unavailable what), s)
  | (.giveZero, s) => (.ok 0, s)
  | (_, s) =>
    let r := s.contents.createName space name
    (.ok r.1, { s with contents := r.2 })

end Store
end TraceRollup
