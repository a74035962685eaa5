import TraceRollup.Stage.Ledger

/-!
# What stands in a store

Lookups in lists of entries and in tables, the ids that answered calls wrote rows under
(`writesIn`), and the snapshots that stand after such writes (`Standing.advance`).
-/

namespace TraceRollup

/-! ### Entries -/

namespace Entries
variable {κ α : Type} [DecidableEq κ]

theorem find_eq_some_iff {es : List (κ × α)} (h : (es.map Prod.fst).Nodup) {k : κ} {v : α} :
    find k es = some v ↔ (k, v) ∈ es := by
  induction es with
  | nil => simp [find]
  | cons e rest ih =>
    rw [List.map_cons, List.nodup_cons] at h
    unfold find
    by_cases hk : e.1 = k
    · rw [if_pos hk, List.mem_cons, Option.some.injEq]
      constructor
      · rintro rfl
        exact Or.inl (by rw [← hk])
      · rintro (heq | hm)
        · rw [← heq]
        · exact absurd (List.mem_map.2 ⟨_, hm, hk.symm⟩) h.1
    · rw [if_neg hk, ih h.2, List.mem_cons]
      constructor
      · exact Or.inr
      · rintro (heq | hm)
        · exact absurd (by rw [← heq]) hk
        · exact hm

theorem find_eq_none_iff {es : List (κ × α)} {k : κ} : find k es = none ↔ k ∉ es.map Prod.fst := by
  induction es with
  | nil => simp [find]
  | cons e rest ih =>
    unfold find
    by_cases hk : e.1 = k
    · simp [hk]
    · rw [if_neg hk, ih, List.map_cons, List.mem_cons, not_or]
      exact ⟨fun h => ⟨fun heq => hk heq.symm, h⟩, fun h => h.2⟩

/-- Setting entries with different keys one after another. -/
theorem get?_foldl_set {es : List (κ × α)} (h : (es.map Prod.fst).Nodup) (d : Dict κ α) (k : κ) :
    (es.foldl (fun d e => d.set e.1 e.2) d).get? k = (find k es).or (d.get? k) := by
  induction es generalizing d with
  | nil => rfl
  | cons e rest ih =>
    rw [List.map_cons, List.nodup_cons] at h
    rw [List.foldl_cons, ih h.2, find, Dict.get?_set]
    by_cases hk : e.1 = k
    · have hno : find k rest = none := find_eq_none_iff.2 (hk ▸ h.1)
      rw [hno, if_pos hk, if_pos hk.symm]
      rfl
    · rw [if_neg hk, if_neg (Ne.symm hk)]

end Entries

/-! ### Tables -/

namespace Table

theorem lookup_getMany (t : Table) (ids : List String) (id : String) :
    (t.getMany ids).lookup id = if id ∈ ids then t.get? id else none := by
  unfold getMany
  induction ids with
  | nil => rfl
  | cons j rest ih =>
    rw [List.filterMap_cons]
    cases hj : t.get? j with
    | none =>
      simp only [Option.map_none, ih, List.mem_cons]
      by_cases hid : id = j
      · rw [if_pos (Or.inl hid), hid, hj, ite_self]
      · simp only [hid, false_or]
    | some row =>
      simp only [Option.map_some, List.lookup_cons, ih, List.mem_cons]
      by_cases hid : id = j
      · rw [if_pos (Or.inl hid), hid, hj, beq_self_eq_true]
      · simp only [beq_eq_false_iff_ne.2 hid, hid, false_or]

/-- After rows were put in, an id has one of them, or the row that it had before. -/
theorem get?_upsert (t : Table) (rows : List (String × Json)) (id : String) :
    (∃ row, (id, row) ∈ rows ∧ (t.upsert rows).get? id = some row) ∨
      (id ∉ rows.map Prod.fst ∧ (t.upsert rows).get? id = t.get? id) := by
  unfold upsert
  induction rows generalizing t with
  | nil => exact Or.inr ⟨List.not_mem_nil, rfl⟩
  | cons r rest ih =>
    rw [List.foldl_cons]
    rcases ih (t.set r.1 r.2) with ⟨row, hm, hget⟩ | ⟨hno, hget⟩
    · exact Or.inl ⟨row, List.mem_cons_of_mem _ hm, hget⟩
    · rw [Dict.get?_set] at hget
      by_cases hid : id = r.1
      · rw [if_pos hid] at hget
        exact Or.inl ⟨r.2, by rw [hid]; exact List.mem_cons_self .., hget⟩
      · rw [if_neg hid] at hget
        refine Or.inr ⟨?_, hget⟩
        rw [List.map_cons, List.mem_cons, not_or]
        exact ⟨hid, hno⟩

end Table

theorem Contents.table_upsert (c : Contents) (name : String) (rows : List (String × Json)) :
    (c.upsert name rows).table name = (c.table name).upsert rows := by
  simp only [upsert, table, Dict.get?_set_self, Option.getD_some]

/-! ### Answered writes -/

def CallRecord.writes (table : String) (r : CallRecord) : List String :=
  match r.call, r.verdict with
  | .write _ _, .refuse _ => []
  | .write t ids, _ => if t = table then ids else []
  | _, _ => []

/-- The ids that calls wrote rows under. -/
def writesIn (table : String) (calls : List CallRecord) : List String := calls.flatMap (CallRecord.writes table)

theorem writesIn_append (table : String) (xs ys : List CallRecord) :
    writesIn table (xs ++ ys) = writesIn table xs ++ writesIn table ys := List.flatMap_append

theorem mem_writesIn_reverse {name : String} {calls : List CallRecord} {id : String} :
    id ∈ writesIn name calls.reverse ↔ id ∈ writesIn name calls := by
  simp only [writesIn, List.mem_flatMap, List.mem_reverse]

def CallRecord.Refused (r : CallRecord) : Prop := ∃ what, r.verdict = .refuse what

namespace Store

def table (s : Store) (name : String) : Table := s.contents.table name

/-- The calls made since an earlier state of the store. -/
def callsSince (s before : Store) : List CallRecord := s.history.take (s.history.length - before.history.length)

theorem callsSince_append {s before : Store} {added : List CallRecord}
    (h : s.history = added ++ before.history) : s.callsSince before = added := by
  unfold callsSince
  rw [h, List.length_append, Nat.add_sub_cancel]
  exact List.take_left

end Store

/-! ### Standing snapshots -/

/-- The snapshot last written of each origin under each id. -/
abbrev Standing (α : Type) := OriginKey → Option α

namespace Standing
variable {α : Type}

/-- A list with every origin, once, that has a snapshot under an id. -/
structure Covers (W : Standing α) (id : String) (origins : List String) : Prop where
  distinct : origins.Nodup
  all : ∀ o, W (o, id) ≠ none → o ∈ origins

def under (W : Standing α) (id : String) (origins : List String) : List α := origins.filterMap fun o => W (o, id)

/-- What stands once entries under some ids were written. -/
def advance (W : Standing α) (entries : List (Ledger.Entry α)) (ids : List String) : Standing α := fun k =>
  if k.2 ∈ ids then (Entries.find k entries).or (W k) else W k

theorem advance_nil (W : Standing α) (entries : List (Ledger.Entry α)) : W.advance entries [] = W := by
  funext k
  simp [advance]

theorem advance_append (W : Standing α) (entries : List (Ledger.Entry α)) (xs ys : List String) :
    (W.advance entries xs).advance entries ys = W.advance entries (xs ++ ys) := by
  funext k
  unfold advance
  by_cases hx : k.2 ∈ xs <;> by_cases hy : k.2 ∈ ys <;> simp [hx, hy]
  cases Entries.find k entries <;> rfl

theorem advance_congr (W : Standing α) (entries : List (Ledger.Entry α)) {xs ys : List String}
    (h : ∀ id, id ∈ xs ↔ id ∈ ys) : W.advance entries xs = W.advance entries ys := by
  funext k
  simp only [advance, h]

theorem advance_of_mem (W : Standing α) {entries : List (Ledger.Entry α)} (hd : (entries.map Prod.fst).Nodup)
    {ids : List String} {e : Ledger.Entry α} (he : e ∈ entries) (hid : e.1.2 ∈ ids) :
    W.advance entries ids e.1 = some e.2 := by
  rw [advance, if_pos hid, (Entries.find_eq_some_iff hd).2 he]
  rfl

theorem advance_eq_some {W : Standing α} {entries : List (Ledger.Entry α)} (hd : (entries.map Prod.fst).Nodup)
    {ids : List String} {k : OriginKey} {w : α} (h : W.advance entries ids k = some w) :
    (k, w) ∈ entries ∧ k.2 ∈ ids ∨ W k = some w ∧ (k.2 ∈ ids → Entries.find k entries = none) := by
  unfold advance at h
  split at h
  · rename_i hid
    cases hf : Entries.find k entries with
    | none =>
      rw [hf] at h
      exact Or.inr ⟨h, fun _ => rfl⟩
    | some v =>
      rw [hf] at h
      cases h
      exact Or.inl ⟨(Entries.find_eq_some_iff hd).1 hf, hid⟩
  · rename_i hid
    exact Or.inr ⟨h, fun hin => absurd hin hid⟩

theorem advance_of_find {W : Standing α} {entries : List (Ledger.Entry α)} {ids : List String} {k : OriginKey} {w : α}
    (hW : W k = some w) (hno : k.2 ∈ ids → Entries.find k entries = none) : W.advance entries ids k = some w := by
  unfold advance
  split
  · rename_i hid
    rw [hno hid]
    exact hW
  · exact hW

/-- Nothing written is ever forgotten. -/
theorem advance_ne_none {W : Standing α} {entries : List (Ledger.Entry α)} {ids : List String} {k : OriginKey}
    (h : W k ≠ none) : W.advance entries ids k ≠ none := by
  unfold advance
  split
  · cases Entries.find k entries with
    | none => exact h
    | some v => exact fun h => by cases h
  · exact h

end Standing
end TraceRollup
