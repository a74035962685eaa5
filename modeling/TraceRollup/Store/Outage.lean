import TraceRollup.Store

/-!
# Outages

An outage is a standing set of faults: tables that cannot be read, written or purged, a number
of writes after which no more succeed, and how look-ups and registrations of names go wrong.
-/

namespace TraceRollup

inductive NameFault
  | down | zero | nothing
  deriving DecidableEq

structure Outage where
  find : Option NameFault := none
  create : Option NameFault := none
  readDown : List String := []
  writeDown : List String := []
  deleteDown : List String := []
  writeBudget : Option Nat := none
  deriving DecidableEq, Inhabited

namespace Outage

def nameVerdict : Option NameFault → Verdict
  | none => .answer
  | some .down => .refuse "mapping table"
  | some .zero => .giveZero
  | some .nothing => .findNothing

def writesDone (calls : List CallRecord) : Nat :=
  calls.countP fun r =>
    match r.call, r.verdict with
    | .write _ _, .answer => true
    | _, _ => false

/-- The faults of an outage that began after `since` calls. A refused write does not use up the
budget. -/
def plan (o : Outage) (since : Nat) : FaultPlan := fun history call =>
  match call with
  | .read table _ => if table ∈ o.readDown then .refuse "reads" else .answer
  | .write table _ =>
    if table ∈ o.writeDown then .refuse "writes"
    else
      match o.writeBudget with
      | none => .answer
      | some n =>
        if writesDone (history.take (history.length - since)) < n then .answer else .refuse "write budget"
  | .delete table => if table ∈ o.deleteDown then .refuse "deletes" else .answer
  | .find _ _ => nameVerdict o.find
  | .create _ _ => nameVerdict o.create

def begin (o : Outage) (s : Store) : Store := { s with plan := o.plan s.history.length }

end Outage
end TraceRollup
