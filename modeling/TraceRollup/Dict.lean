/-!
# Dictionaries

A dictionary is a finite map, kept as a list of entries with pairwise different keys in
the order in which the keys were first set. `get?` is the view through which every other
operation is described: see `get?_empty`, `get?_set`, `get?_erase` and `get?_filter`.
-/

namespace TraceRollup

/-! ### Entry lists -/

namespace Entries
variable {κ α : Type} [DecidableEq κ]

def find (k : κ) : List (κ × α) → Option α
  | [] => none
  | e :: rest => if e.1 = k then some e.2 else find k rest

/-- Replaces the value of the first entry with key `k`, or adds an entry at the end. -/
def put (k : κ) (v : α) : List (κ × α) → List (κ × α)
  | [] => [(k, v)]
  | e :: rest => if e.1 = k then (k, v) :: rest else e :: put k v rest

theorem find_put_self (k : κ) (v : α) (es : List (κ × α)) : find k (put k v es) = some v := by
  induction es with
  | nil => simp [put, find]
  | cons e rest ih => by_cases h : e.1 = k <;> simp [put, find, h, ih]

theorem find_put_of_ne {k j : κ} (h : j ≠ k) (v : α) (es : List (κ × α)) :
    find j (put k v es) = find j es := by
  induction es with
  | nil => simp [put, find, Ne.symm h]
  | cons e rest ih =>
    by_cases he : e.1 = k
    · simp [put, find, he, Ne.symm h]
    · simp [put, find, he, ih]

theorem mem_keys_put {k j : κ} {v : α} {es : List (κ × α)} :
    j ∈ (put k v es).map Prod.fst ↔ j = k ∨ j ∈ es.map Prod.fst := by
  induction es with
  | nil => simp [put]
  | cons e rest ih =>
    by_cases he : e.1 = k
    · subst he; simp [put]
    · simp only [put, he, if_false, List.map_cons, List.mem_cons, ih]
      constructor
      · rintro (h | h | h) <;> simp [h]
      · rintro (h | h | h) <;> simp [h]

theorem nodup_put {k : κ} {v : α} {es : List (κ × α)} (h : (es.map Prod.fst).Nodup) :
    ((put k v es).map Prod.fst).Nodup := by
  induction es with
  | nil => simp [put]
  | cons e rest ih =>
    rw [List.map_cons, List.nodup_cons] at h
    by_cases he : e.1 = k
    · subst he; simpa [put] using h
    · simp only [put, he, if_false, List.map_cons, List.nodup_cons]
      refine ⟨fun hm => ?_, ih h.2⟩
      rcases mem_keys_put.1 hm with heq | hin
      · exact he heq
      · exact h.1 hin

theorem find_filter {p : κ × α → Bool} {es : List (κ × α)} (h : (es.map Prod.fst).Nodup) (k : κ) :
    find k (es.filter p) = (find k es).filter fun v => p (k, v) := by
  induction es with
  | nil => simp [find]
  | cons e rest ih =>
    rw [List.map_cons, List.nodup_cons] at h
    have ih := ih h.2
    have absent : ∀ es : List (κ × α), k ∉ es.map Prod.fst → find k es = none := by
      intro es
      induction es with
      | nil => simp [find]
      | cons e rest ih =>
        intro hk
        rw [List.map_cons, List.mem_cons, not_or] at hk
        simp [find, Ne.symm hk.1, ih hk.2]
    by_cases hk : e.1 = k
    · subst hk
      by_cases hp : p e
      · simp [List.filter, hp, find, Option.filter]
      · have hno := absent rest h.1
        simp [List.filter, hp, find, ih, hno, Option.filter]
    · by_cases hp : p e <;> simp [List.filter, hp, find, hk, ih]

end Entries

/-! ### Dictionaries and their view -/

structure Dict (κ α : Type) where
  entries : List (κ × α)
  distinct : (entries.map Prod.fst).Nodup
  deriving DecidableEq

namespace Dict
variable {κ α : Type}

def empty : Dict κ α := ⟨[], by simp⟩

instance : Inhabited (Dict κ α) := ⟨empty⟩
instance : EmptyCollection (Dict κ α) := ⟨empty⟩

def toList (d : Dict κ α) : List (κ × α) := d.entries
def keys (d : Dict κ α) : List κ := d.entries.map Prod.fst
def size (d : Dict κ α) : Nat := d.entries.length
def isEmpty (d : Dict κ α) : Bool := d.entries.isEmpty

def filter (p : κ → α → Bool) (d : Dict κ α) : Dict κ α where
  entries := d.entries.filter fun e => p e.1 e.2
  distinct := (d.distinct.sublist ((List.filter_sublist (l := d.entries)).map Prod.fst))

variable [DecidableEq κ]

def get? (d : Dict κ α) (k : κ) : Option α := Entries.find k d.entries

def contains (d : Dict κ α) (k : κ) : Bool := (d.get? k).isSome

/-- Puts `v` under `k`, replacing what was there. -/
def set (d : Dict κ α) (k : κ) (v : α) : Dict κ α where
  entries := Entries.put k v d.entries
  distinct := Entries.nodup_put d.distinct

/-- Puts `v` under `k` unless something is there already. -/
def setNew (d : Dict κ α) (k : κ) (v : α) : Dict κ α :=
  if (d.get? k).isSome then d else d.set k v

def erase (d : Dict κ α) (k : κ) : Dict κ α := d.filter fun j _ => decide (j ≠ k)

/-- The dictionary of a list of entries; of two entries with one key the later one counts. -/
def ofList (es : List (κ × α)) : Dict κ α := es.foldl (fun d e => d.set e.1 e.2) empty

@[simp] theorem get?_empty (k : κ) : (empty : Dict κ α).get? k = none := rfl

theorem get?_set (d : Dict κ α) (k j : κ) (v : α) :
    (d.set k v).get? j = if j = k then some v else d.get? j := by
  by_cases h : j = k
  · subst h; simp [get?, set, Entries.find_put_self]
  · simp [get?, set, h, Entries.find_put_of_ne h]

@[simp] theorem get?_set_self (d : Dict κ α) (k : κ) (v : α) : (d.set k v).get? k = some v := by
  simp [get?_set]

theorem get?_filter (p : κ → α → Bool) (d : Dict κ α) (k : κ) :
    (d.filter p).get? k = (d.get? k).filter fun v => p k v := by
  simp [get?, filter, Entries.find_filter d.distinct]

theorem get?_erase (d : Dict κ α) (k j : κ) :
    (d.erase k).get? j = if j = k then none else d.get? j := by
  rw [erase, get?_filter]
  by_cases h : j = k
  · subst h; cases d.get? j <;> simp
  · cases d.get? j <;> simp [h]

theorem get?_setNew (d : Dict κ α) (k j : κ) (v : α) :
    (d.setNew k v).get? j = if j = k then some ((d.get? k).getD v) else d.get? j := by
  unfold setNew
  cases h : d.get? k with
  | none => simp [get?_set]
  | some w =>
    by_cases hj : j = k
    · subst hj; simp [h]
    · simp [hj]

end Dict
end TraceRollup
