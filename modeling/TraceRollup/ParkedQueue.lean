/-!
# Parked items

Items whose turn has not come wait in a bounded queue, each with the number of its failed
attempts. An item with too many of them, or one that finds no room, is turned away.
-/

namespace TraceRollup

/-- An item with its failed attempts so far. -/
structure Parked (α : Type) where
  item : α
  attempts : Nat
  deriving DecidableEq

inductive TurnedAway
  | exhausted | full
  deriving DecidableEq, Repr

def TurnedAway.reason : TurnedAway → String
  | .exhausted => "exhausted"
  | .full => "full"

structure ParkedQueue (α : Type) where
  maxRetries : Nat
  maxPending : Nat
  items : List (Parked α) := []
  deriving DecidableEq

namespace ParkedQueue
variable {α : Type}

def length (q : ParkedQueue α) : Nat := q.items.length
def isEmpty (q : ParkedQueue α) : Bool := q.items.isEmpty

def push (q : ParkedQueue α) (item : α) (attempts : Nat) : Except TurnedAway Unit × ParkedQueue α :=
  if q.maxRetries < attempts then (.error .exhausted, q)
  else if q.maxPending ≤ q.items.length then (.error .full, q)
  else (.ok (), { q with items := q.items ++ [⟨item, attempts⟩] })

/-- Takes out everything, oldest first. -/
def takeAll (q : ParkedQueue α) : List (Parked α) × ParkedQueue α := (q.items, { q with items := [] })

end ParkedQueue
end TraceRollup
