import TraceRollup.Binary64

/-!
# JSON values

The values of the wire and of stored rows. An object keeps its members as written, in
order and with repetitions, because a record read from text refuses a repeated member;
`normal` is the form in which rows are stored: sorted keys, the last of equal ones kept.
The typed readers at the end say which values stand for a number, a text or a record.
-/

namespace TraceRollup

/-- A JSON value. `unreadable` is a token that is well formed but denotes no value (half of a
surrogate pair, a number beyond the doubles): whoever skips it need not care, whoever looks
at it refuses. Whole numbers outside `-2^63 … 2^64 - 1` are doubles. -/
inductive Json
  | null
  | bool (b : Bool)
  | int (n : Int)
  | float (x : Binary64)
  | str (s : String)
  | arr (items : List Json)
  | obj (members : List (String × Json))
  | unreadable
  deriving Inhabited

namespace Json

/-! ### Shape -/

mutual
def depth : Json → Nat
  | .arr items => depthItems items + 1
  | .obj members => depthMembers members + 1
  | _ => 0
def depthItems : List Json → Nat
  | [] => 0
  | j :: rest => max j.depth (depthItems rest)
def depthMembers : List (String × Json) → Nat
  | [] => 0
  | (_, j) :: rest => max j.depth (depthMembers rest)
end

mutual
def readable : Json → Bool
  | .unreadable => false
  | .arr items => readableItems items
  | .obj members => readableMembers members
  | _ => true
def readableItems : List Json → Bool
  | [] => true
  | j :: rest => j.readable && readableItems rest
def readableMembers : List (String × Json) → Bool
  | [] => true
  | (_, j) :: rest => j.readable && readableMembers rest
end

/-! ### Normal form -/

/-- Puts a member into a list sorted by key, replacing the one with the same key. -/
def insertMember (k : String) (v : Json) : List (String × Json) → List (String × Json)
  | [] => [(k, v)]
  | (j, w) :: rest =>
    if k < j then (k, v) :: (j, w) :: rest
    else if k = j then (k, v) :: rest
    else (j, w) :: insertMember k v rest

mutual
/-- Objects sorted by key, a later member replacing an earlier one of the same key. -/
def normal : Json → Json
  | .arr items => .arr (normalItems items)
  | .obj members => .obj (normalMembers members [])
  | j => j
def normalItems : List Json → List Json
  | [] => []
  | j :: rest => j.normal :: normalItems rest
def normalMembers : List (String × Json) → List (String × Json) → List (String × Json)
  | [], sorted => sorted
  | (k, j) :: rest, sorted => normalMembers rest (insertMember k j.normal sorted)
end

/-! ### Members -/

/-- The value of a member, if there is one; of several the last. -/
def member? (key : String) : Json → Option Json
  | .obj members => members.foldl (fun found m => if m.1 = key then some m.2 else found) none
  | _ => none

def valuesOf (key : String) (members : List (String × Json)) : List Json :=
  members.filterMap fun m => if m.1 = key then some m.2 else none

/-- A record is an object in which each of the names occurs at most once, other names not
counting, or an array of the first few fields in order. -/
def record? (names : List String) : Json → Option (List (Option Json))
  | .obj members =>
    names.mapM fun name =>
      match valuesOf name members with
      | [] => some none
      | [v] => some (some v)
      | _ => none
  | .arr items =>
    if items.length ≤ names.length then
      some (items.map some ++ List.replicate (names.length - items.length) none)
    else none
  | _ => none

/-! ### Typed readers -/

/-- A whole number between two bounds; `1.0` is none. -/
def intBetween? (low high : Int) : Json → Option Int
  | .int n => if low ≤ n ∧ n ≤ high then some n else none
  | _ => none

def int64? (j : Json) : Option Int64 := (j.intBetween? (-9223372036854775808) 9223372036854775807).map Int64.ofInt
def int32? (j : Json) : Option Int32 := (j.intBetween? (-2147483648) 2147483647).map Int32.ofInt
def nat? (bits : Nat) (j : Json) : Option Nat := (j.intBetween? 0 ((Nat.pow 2 bits : Nat) - 1)).map Int.toNat
def uint64? (j : Json) : Option UInt64 := (j.nat? 64).map UInt64.ofNat

/-- A double; a whole number stands for the nearest one. -/
def double? : Json → Option Binary64
  | .float x => some x
  | .int n => some (Binary64.ofInt n)
  | _ => none

def bool? : Json → Option Bool
  | .bool b => some b
  | _ => none

def string? : Json → Option String
  | .str s => some s
  | _ => none

def list? : Json → Option (List Json)
  | .arr items => some items
  | _ => none

/-- A plain alternative is written as its name, or as an object with that name over `null`. -/
def alternative? : Json → Option String
  | .str s => some s
  | .obj [(s, .null)] => some s
  | _ => none

def ofInt64 (n : Int64) : Json := .int n.toInt
def ofInt32 (n : Int32) : Json := .int n.toInt
def ofUInt64 (n : UInt64) : Json := .int n.toNat
def ofNat (n : Nat) : Json := .int n

theorem int64?_ofInt64 (n : Int64) : (ofInt64 n).int64? = some n := by
  have lo := n.minValue_le_toInt
  have hi := n.toInt_le
  have hlo : Int64.minValue.toInt = -9223372036854775808 := by decide
  have hhi : Int64.maxValue.toInt = 9223372036854775807 := by decide
  rw [hlo] at lo
  rw [hhi] at hi
  simp only [ofInt64, int64?, intBetween?, lo, hi, and_self, if_true, Option.map_some,
    Int64.ofInt_toInt]

theorem int32?_ofInt32 (n : Int32) : (ofInt32 n).int32? = some n := by
  have lo := n.minValue_le_toInt
  have hi := n.toInt_le
  have hlo : Int32.minValue.toInt = -2147483648 := by decide
  have hhi : Int32.maxValue.toInt = 2147483647 := by decide
  rw [hlo] at lo
  rw [hhi] at hi
  simp only [ofInt32, int32?, intBetween?, lo, hi, and_self, if_true, Option.map_some,
    Int32.ofInt_toInt]

theorem uint64?_ofUInt64 (n : UInt64) : (ofUInt64 n).uint64? = some n := by
  have h := n.toNat_lt
  have hlt : (n.toNat : Int) ≤ 18446744073709551615 := by omega
  simp [ofUInt64, uint64?, nat?, intBetween?]
  omega

/-! ### Reading what was written, as a step of a longer reading -/

theorem some_bind {α β : Type} (a : α) (f : α → Option β) : (some a >>= f) = f a := rfl

theorem int64?_bind {β : Type} (n : Int64) (f : Int64 → Option β) : ((ofInt64 n).int64? >>= f) = f n := by
  rw [int64?_ofInt64]; rfl

theorem int32?_bind {β : Type} (n : Int32) (f : Int32 → Option β) : ((ofInt32 n).int32? >>= f) = f n := by
  rw [int32?_ofInt32]; rfl

theorem uint64?_bind {β : Type} (n : UInt64) (f : UInt64 → Option β) : ((ofUInt64 n).uint64? >>= f) = f n := by
  rw [uint64?_ofUInt64]; rfl

end Json
end TraceRollup
