import Mathlib.Data.List.Nodup
import Mathlib.Logic.Function.Basic
import TraceRollup.NameRegistry
import TraceRollup.Proofs.Standing

/-!
# Registries over one store

Any number of registries share a store, and many calls to them are under way at once. A call
looks into its registry, asks the store, has the store register the name, and puts the id into
the registry, one step at a time (`NameRegistry.Call`). Without other steps in between it answers
as the registry does (`Call.advance_alone`). In every state of every run each name has one id,
whoever asked for it, and the ids of a space are counted from 1 (`Registration.converges`).
-/

namespace TraceRollup

/-! ### Numbered names -/

theorem Entries.put_of_find_none {κ α : Type} [DecidableEq κ] {k : κ} {es : List (κ × α)} (h : find k es = none) (v : α) :
    put k v es = es ++ [(k, v)] := by
  induction es with
  | nil => rfl
  | cons e rest ih =>
    unfold find at h
    split at h
    · cases h
    · rename_i hne
      rw [put, if_neg hne, ih h]
      rfl

namespace NameTable

theorem mem_inSpace {t : NameTable} {space name : String} {id : Int32} :
    (name, id) ∈ t.inSpace space ↔ t.find? space name = some id := by
  unfold inSpace find? Dict.get? Dict.toList
  rw [Entries.find_eq_some_iff t.ids.distinct, List.mem_filterMap]
  constructor
  · rintro ⟨⟨⟨s, n⟩, i⟩, hmem, he⟩
    simp only [Option.ite_none_right_eq_some, Option.some.injEq, Prod.mk.injEq] at he
    obtain ⟨rfl, rfl, rfl⟩ := he
    exact hmem
  · exact fun hmem => ⟨_, hmem, by simp⟩

theorem create_of_some {t : NameTable} {space name : String} {id : Int32} (h : t.find? space name = some id) :
    t.create space name = (id, t) := by
  unfold create
  rw [h]

theorem create_of_none {t : NameTable} {space name : String} (h : t.find? space name = none) :
    t.create space name = ((t.nextId space).1,
      { (t.nextId space).2 with ids := t.ids.set (space, name) (t.nextId space).1 }) := by
  unfold create
  rw [h]
  rfl

theorem inSpace_create {t : NameTable} {space name : String} (h : t.find? space name = none) (space' : String) :
    (t.create space name).2.inSpace space' =
      t.inSpace space' ++ if space = space' then [(name, (t.nextId space).1)] else [] := by
  have hput : (t.ids.set (space, name) (t.nextId space).1).toList =
      t.ids.toList ++ [((space, name), (t.nextId space).1)] := Entries.put_of_find_none h _
  rw [create_of_none h]
  unfold inSpace
  dsimp only
  rw [hput, List.filterMap_append]
  split
  · rename_i heq
    simp [heq]
  · rename_i hne
    simp [hne]

/-- The ids of a space are counted from 1 in the order in which they were given. -/
structure Numbered (t : NameTable) (space : String) : Prop where
  ids : (t.inSpace space).map Prod.snd = (List.range (t.inSpace space).length).map fun i => Int32.ofNat (i + 1)
  last : (t.last.get? space).getD 0 = Int32.ofNat (t.inSpace space).length

theorem Numbered.empty (space : String) : Numbered {} space := ⟨rfl, rfl⟩

theorem Numbered.create {t : NameTable} {space' : String} (h : t.Numbered space') (space name : String) :
    (t.create space name).2.Numbered space' := by
  cases hfind : t.find? space name with
  | some id =>
    rw [create_of_some hfind]
    exact h
  | none =>
    have hspace := inSpace_create hfind space'
    have hlast : (t.create space name).2.last = t.last.set space ((t.last.get? space).getD 0 + 1) := by
      rw [create_of_none hfind]
      rfl
    by_cases heq : space = space'
    · subst heq
      have hid : (t.nextId space).1 = Int32.ofNat ((t.inSpace space).length + 1) := by
        rw [Int32.ofNat_add, ← h.last]
        rfl
      rw [if_pos rfl, hid] at hspace
      refine ⟨?_, ?_⟩
      · rw [hspace, List.map_append, h.ids, List.length_append, List.length_singleton, List.range_succ, List.map_append]
        rfl
      · rw [hlast, Dict.get?_set_self, hspace, List.length_append, List.length_singleton, ← hid]
        rfl
    · rw [if_neg heq, List.append_nil] at hspace
      refine ⟨hspace ▸ h.ids, ?_⟩
      rw [hlast, Dict.get?_set, if_neg (Ne.symm heq), hspace]
      exact h.last

variable {t : NameTable} {space : String}

theorem Numbered.toInt_ids (h : t.Numbered space) (hfew : (t.inSpace space).length < 2147483648) :
    ((t.inSpace space).map fun e => e.2.toInt) = (List.range (t.inSpace space).length).map fun i : Nat => (i : Int) + 1 := by
  have hids := congrArg (List.map Int32.toInt) h.ids
  rw [List.map_map, List.map_map] at hids
  refine hids.trans (List.map_congr_left fun i hi => ?_)
  have hlt := List.mem_range.1 hi
  have hsucc : i + 1 < 2 ^ 31 := by omega
  exact Int32.toInt_ofNat_of_lt hsucc

/-- Two names of a space never share an id. -/
theorem Numbered.apart (h : t.Numbered space) (hfew : (t.inSpace space).length < 2147483648) {a b : String} {id : Int32}
    (ha : t.find? space a = some id) (hb : t.find? space b = some id) : a = b := by
  have hnodup : ((t.inSpace space).map fun e => e.2.toInt).Nodup := by
    rw [h.toInt_ids hfew]
    exact List.Nodup.map (fun i j hij => Int.ofNat.inj (by simpa using hij)) List.nodup_range
  exact congrArg Prod.fst (List.inj_on_of_nodup_map hnodup (mem_inSpace.2 ha) (mem_inSpace.2 hb) rfl)

/-- The ids of a space are the numbers from 1 to the number of its names. -/
theorem Numbered.exact (h : t.Numbered space) (hfew : (t.inSpace space).length < 2147483648) (id : Int32) :
    (∃ name, t.find? space name = some id) ↔ 1 ≤ id.toInt ∧ id.toInt ≤ (t.inSpace space).length := by
  have hmem : (∃ name, t.find? space name = some id) ↔ id.toInt ∈ (t.inSpace space).map fun e => e.2.toInt := by
    rw [List.mem_map]
    constructor
    · rintro ⟨name, hname⟩
      exact ⟨(name, id), mem_inSpace.2 hname, rfl⟩
    · rintro ⟨⟨name, i⟩, hi, heq⟩
      cases Int32.toInt_inj.1 heq
      exact ⟨name, mem_inSpace.1 hi⟩
  rw [hmem, h.toInt_ids hfew, List.mem_map]
  constructor
  · rintro ⟨i, hi, heq⟩
    have hlt := List.mem_range.1 hi
    omega
  · rintro ⟨hpos, hle⟩
    exact ⟨id.toInt.toNat - 1, List.mem_range.2 (by omega), by omega⟩

end NameTable

/-! ### Calls in steps -/

namespace NameRegistry

/-- What a registry is asked for. -/
inductive Request
  | resolve (space : NameSpace) (name : String)
  | obtain (space : NameSpace) (name : String)
  | applicationId (code : String)
  | addressId (address : String)
  | serviceId (application : Int32) (operation : String)
  | instanceId (application : Int32) (uuid : String)
  deriving DecidableEq

namespace Request

def space : Request → NameSpace
  | .resolve space _ | .obtain space _ => space
  | .applicationId _ => .application
  | .addressId _ => .address
  | .serviceId _ _ => .serviceName
  | .instanceId _ _ => .agentInstance

def name : Request → String
  | .resolve _ name | .obtain _ name | .applicationId name | .addressId name => name
  | .serviceId application name | .instanceId application name => scopedName application name

/-- A name that is not found is registered. -/
def registers : Request → Bool
  | .resolve _ _ => false
  | _ => true

/-- The answer of a registry that is asked for nothing else meanwhile. -/
def answer (n : Naming) : Request → Except Refusal (Option Int32) × Naming
  | .resolve space name => n.resolve space name
  | .obtain space name => let r := n.obtain space name; (r.1.map some, r.2)
  | .applicationId code => let r := n.applicationId code; (r.1.map some, r.2)
  | .addressId address => let r := n.addressId address; (r.1.map some, r.2)
  | .serviceId application operation => let r := n.serviceId application operation; (r.1.map some, r.2)
  | .instanceId application uuid => let r := n.instanceId application uuid; (r.1.map some, r.2)

end Request

/-- What a call does next, or its answer. -/
inductive Progress
  | recalling
  | finding
  | creating
  | remembering (id : Int32)
  | answered (answer : Except Refusal (Option Int32))

/-- The id that a call has got. -/
def Progress.id? : Progress → Option Int32
  | .remembering id => some id
  | .answered (.ok id) => id
  | _ => none

structure Call where
  request : Request
  progress : Progress := .recalling

namespace Call

def become (c : Call) (p : Progress) : Call := { c with progress := p }

/-- How a call goes on when the store has no id for the name. -/
def notFound (c : Call) : Call := if c.request.registers then c.become .creating else c.become (.answered (.ok none))

/-- The next step of a call. -/
def step (c : Call) (n : Naming) : Call × Naming :=
  match c.progress with
  | .recalling =>
    match n.registry.known? c.request.space c.request.name with
    | some id => (c.become (.answered (.ok (some id))), n)
    | none => (c.become .finding, n)
  | .finding =>
    match n.store.findName c.request.space.name c.request.name with
    | (.error e, store) => (c.become (.answered (.error (.storage e))), { n with store })
    | (.ok none, store) => (c.notFound, { n with store })
    | (.ok (some id), store) => (if id = 0 then c.notFound else c.become (.remembering id), { n with store })
  | .creating =>
    match n.store.createName c.request.space.name c.request.name with
    | (.error e, store) => (c.become (.answered (.error (.storage e))), { n with store })
    | (.ok id, store) =>
      (if id = 0 then c.become (.answered (.error (.unresolvedName c.request.space c.request.name)))
        else c.become (.remembering id), { n with store })
  | .remembering id =>
    let r := n.registry.remember c.request.space c.request.name id
    (c.become (.answered (.ok (some r.1))), { n with registry := r.2 })
  | .answered _ => (c, n)

/-- Steps of a call with none of other calls in between. -/
def advance : Nat → Call × Naming → Call × Naming
  | 0, r => r
  | k + 1, r => advance k (r.1.step r.2)

theorem advance_answered (k : Nat) (q : Request) (a : Except Refusal (Option Int32)) (n : Naming) :
    advance k (⟨q, .answered a⟩, n) = (⟨q, .answered a⟩, n) := by
  induction k with
  | zero => rfl
  | succ k ih => exact ih

theorem advance_remembering (k : Nat) (q : Request) (id : Int32) (n : Naming) :
    advance (k + 1) (⟨q, .remembering id⟩, n) =
      (⟨q, .answered (.ok (some (n.registry.remember q.space q.name id).1))⟩,
        { n with registry := (n.registry.remember q.space q.name id).2 }) :=
  advance_answered k q _ _

theorem advance_creating (k : Nat) (q : Request) (n : Naming) :
    advance (k + 2) (⟨q, .creating⟩, n) =
      (⟨q, .answered ((n.register q.space q.name).1.map some)⟩, (n.register q.space q.name).2) := by
  unfold advance step Naming.register
  rcases n.store.createName q.space.name q.name with ⟨e | id, store⟩
  · exact advance_answered (k + 1) q _ _
  · by_cases hid : id = 0
    · simp only [hid, if_true]
      exact advance_answered (k + 1) q _ _
    · simp only [hid, if_false]
      exact advance_remembering k q id _

/-- How a call goes on that has looked for its name. -/
theorem advance_recalling (k : Nat) (q : Request) (n : Naming) :
    advance (k + 4) (⟨q, .recalling⟩, n) =
      match n.resolve q.space q.name with
      | (.ok none, n) => advance (k + 2) (Call.notFound ⟨q, .finding⟩, n)
      | (a, n) => (⟨q, .answered a⟩, n) := by
  unfold advance step Naming.resolve
  cases n.registry.known? q.space q.name with
  | some id => exact advance_answered (k + 3) q _ _
  | none =>
    dsimp only [become]
    unfold advance step
    rcases n.store.findName q.space.name q.name with ⟨e | _ | id, store⟩
    · exact advance_answered (k + 2) q _ _
    · rfl
    · by_cases hid : id = 0
      · simp only [hid, if_true]
        rfl
      · simp only [hid, if_false]
        exact advance_remembering (k + 1) q id _

/-- A call that nothing comes between answers as the registry does, after four steps at most. -/
theorem advance_alone (q : Request) (n : Naming) :
    advance 4 (⟨q, .recalling⟩, n) = (⟨q, .answered (q.answer n).1⟩, (q.answer n).2) := by
  have hobtain : q.registers = true → advance 4 (⟨q, .recalling⟩, n) =
      (⟨q, .answered ((n.obtain q.space q.name).1.map some)⟩, (n.obtain q.space q.name).2) := by
    intro hregisters
    rw [advance_recalling 0]
    unfold Naming.obtain
    rcases n.resolve q.space q.name with ⟨e | _ | id, m⟩
    · rfl
    · simp only [notFound, hregisters, if_true]
      exact advance_creating 0 q m
    · rfl
  cases q with
  | resolve space name =>
    rw [advance_recalling 0]
    show _ = (_, (n.resolve space name).2)
    unfold Request.answer Request.space Request.name
    dsimp only
    rcases n.resolve space name with ⟨e | _ | id, m⟩ <;> rfl
  | obtain space name => exact hobtain rfl
  | applicationId code => exact hobtain rfl
  | addressId address => exact hobtain rfl
  | serviceId application operation => exact hobtain rfl
  | instanceId application uuid => exact hobtain rfl

end Call
end NameRegistry

/-! ### What a step keeps -/

/-- The table has an id for a name. -/
structure NameTable.Gives (t : NameTable) (space : NameSpace) (name : String) (id : Int32) : Prop where
  nonzero : id ≠ 0
  find : t.find? space.name name = some id

/-- What a registry knows stands in the table. -/
def NameRegistry.Recalls (r : NameRegistry) (t : NameTable) : Prop :=
  ∀ space name id, r.known? space name = some id → t.Gives space name id

/-- The id that a call has got stands in the table. -/
def NameRegistry.Call.Holds (c : NameRegistry.Call) (t : NameTable) : Prop :=
  ∀ id, c.progress.id? = some id → t.Gives c.request.space c.request.name id

/-- The ids of one table stand in another. -/
def NameTable.Within (t u : NameTable) : Prop :=
  ∀ space name id, t.find? space name = some id → u.find? space name = some id

theorem NameTable.Within.refl (t : NameTable) : t.Within t := fun _ _ _ h => h

theorem NameTable.within_create (t : NameTable) (space name : String) : t.Within (t.create space name).2 :=
  fun _ _ _ h => find?_create_of_some h space name

section
variable {t u : NameTable} (h : t.Within u)
include h

theorem NameTable.Gives.within {space : NameSpace} {name : String} {id : Int32} (hg : t.Gives space name id) :
    u.Gives space name id :=
  ⟨hg.nonzero, h _ _ _ hg.find⟩

theorem NameRegistry.Recalls.within {r : NameRegistry} (hr : r.Recalls t) : r.Recalls u :=
  fun space name id hk => (hr space name id hk).within h

theorem NameRegistry.Call.Holds.within {c : NameRegistry.Call} (hc : c.Holds t) : c.Holds u :=
  fun id hid => (hc id hid).within h

end

/-- A registry that remembers what stands in the table gives just that. -/
theorem NameRegistry.Recalls.remember {r : NameRegistry} {t : NameTable} (hr : r.Recalls t) {space : NameSpace}
    {name : String} {id : Int32} (hg : t.Gives space name id) :
    (r.remember space name id).1 = id ∧ (r.remember space name id).2.Recalls t := by
  have hsame : (r.known? space name).getD id = id := by
    cases hk : r.known? space name with
    | none => rfl
    | some known =>
      have hknown := (hr space name known hk).find
      exact Option.some.inj (hknown.symm.trans hg.find)
  refine ⟨?_, fun space' name' id' hk => ?_⟩
  · unfold NameRegistry.remember
    rw [if_neg hg.nonzero]
    exact hsame
  · rw [known?_remember, hsame] at hk
    split at hk
    · rename_i hkey
      cases hk
      cases hkey.1
      exact hg
    · exact hr space' name' id' hk

namespace Store

theorem findName_spec (s : Store) (space name : String) :
    (s.findName space name).2.contents = s.contents ∧
      ∀ id, (s.findName space name).1 = .ok (some id) → id = 0 ∨ s.contents.names.find? space name = some id := by
  unfold findName meet
  cases s.plan s.history (.find space name) with
  | answer => exact ⟨rfl, fun id h => Or.inr (Except.ok.inj h)⟩
  | refuse what => exact ⟨rfl, fun id h => by cases h⟩
  | findNothing => exact ⟨rfl, fun id h => by cases h⟩
  | giveZero => exact ⟨rfl, fun id h => Or.inl (by cases h; rfl)⟩

theorem createName_spec (s : Store) (space name : String) :
    ((s.createName space name).2.contents.names = s.contents.names ∨
        (s.createName space name).2.contents.names = (s.contents.names.create space name).2) ∧
      ∀ id, (s.createName space name).1 = .ok id →
        id = 0 ∨ (s.createName space name).2.contents.names.find? space name = some id := by
  have hcreated : ∀ id, (s.contents.names.create space name).1 = id →
      (s.contents.names.create space name).2.find? space name = some id := by
    rintro id rfl
    rw [NameTable.find?_create, if_pos rfl]
  unfold createName meet
  cases s.plan s.history (.create space name) with
  | answer => exact ⟨Or.inr rfl, fun id h => Or.inr (hcreated id (Except.ok.inj h))⟩
  | refuse what => exact ⟨Or.inl rfl, fun id h => by cases h⟩
  | findNothing => exact ⟨Or.inr rfl, fun id h => Or.inr (hcreated id (Except.ok.inj h))⟩
  | giveZero => exact ⟨Or.inl rfl, fun id h => Or.inl (Except.ok.inj h).symm⟩

end Store

namespace NameRegistry

def Naming.names (n : Naming) : NameTable := n.store.contents.names

namespace Call

/-- What a step leaves is in order again, and no more than the name of the call is registered. -/
structure Stepped (c : Call) (n : Naming) (r : Call × Naming) : Prop where
  request : r.1.request = c.request
  names : r.2.names = n.names ∨ r.2.names = (n.names.create c.request.space.name c.request.name).2
  recalls : r.2.registry.Recalls r.2.names
  holds : r.1.Holds r.2.names

variable {c : Call} {n : Naming}

/-- A step that leaves the registry alone and gets no id. -/
theorem Stepped.without (hr : n.registry.Recalls n.names) {r : Call × Naming} (hrequest : r.1.request = c.request)
    (hregistry : r.2.registry = n.registry)
    (hnames : r.2.names = n.names ∨ r.2.names = (n.names.create c.request.space.name c.request.name).2)
    (hid : r.1.progress.id? = none) : Stepped c n r where
  request := hrequest
  names := hnames
  recalls := by
    rw [hregistry]
    rcases hnames with heq | heq
    · rw [heq]
      exact hr
    · rw [heq]
      exact hr.within (n.names.within_create _ _)
  holds id h := by
    rw [hid] at h
    cases h

theorem id?_notFound (c : Call) : c.notFound.progress.id? = none := by
  unfold notFound
  split <;> rfl

theorem request_notFound (c : Call) : c.notFound.request = c.request := by
  unfold notFound
  split <;> rfl

theorem stepped (hr : n.registry.Recalls n.names) (hc : c.Holds n.names) : Stepped c n (c.step n) := by
  unfold step
  cases hp : c.progress with
  | recalling =>
    dsimp only
    cases hk : n.registry.known? c.request.space c.request.name with
    | none => exact .without hr rfl rfl (Or.inl rfl) rfl
    | some id =>
      refine ⟨rfl, Or.inl rfl, hr, fun id' hid => ?_⟩
      cases hid
      exact hr _ _ id hk
  | finding =>
    dsimp only
    obtain ⟨hcontents, hfound⟩ := n.store.findName_spec c.request.space.name c.request.name
    rcases hfind : n.store.findName c.request.space.name c.request.name with ⟨e | _ | id, store⟩
    all_goals
      rw [hfind] at hcontents hfound
      have hnames : store.contents.names = n.names := congrArg Contents.names hcontents
    · exact .without hr rfl rfl (Or.inl hnames) rfl
    · exact .without hr (request_notFound c) rfl (Or.inl hnames) (id?_notFound c)
    · by_cases hzero : id = 0
      · simp only [hzero, if_true]
        exact .without hr (request_notFound c) rfl (Or.inl hnames) (id?_notFound c)
      · simp only [hzero, if_false]
        have hstill : n.registry.Recalls store.contents.names := by
          rw [hnames]
          exact hr
        have hgives : store.contents.names.Gives c.request.space c.request.name id := by
          rw [hnames]
          exact ⟨hzero, (hfound id rfl).resolve_left hzero⟩
        refine ⟨rfl, Or.inl hnames, hstill, fun id' hid => ?_⟩
        cases hid
        exact hgives
  | creating =>
    dsimp only
    obtain ⟨hnames, hgiven⟩ := n.store.createName_spec c.request.space.name c.request.name
    rcases hcreate : n.store.createName c.request.space.name c.request.name with ⟨e | id, store⟩
    all_goals rw [hcreate] at hnames hgiven
    · exact .without hr rfl rfl hnames rfl
    · by_cases hzero : id = 0
      · simp only [hzero, if_true]
        exact .without hr rfl rfl hnames rfl
      · simp only [hzero, if_false]
        have hstill : n.registry.Recalls store.contents.names := by
          rcases hnames with heq | heq
          · rw [heq]
            exact hr
          · rw [heq]
            exact hr.within (n.names.within_create _ _)
        refine ⟨rfl, hnames, hstill, fun id' hid => ?_⟩
        cases hid
        exact ⟨hzero, (hgiven id rfl).resolve_left hzero⟩
  | remembering id =>
    dsimp only
    have hgives : n.names.Gives c.request.space c.request.name id := hc id (by rw [hp]; rfl)
    obtain ⟨hid, hrecalls⟩ := hr.remember hgives
    refine ⟨rfl, Or.inl rfl, hrecalls, fun id' hid' => ?_⟩
    cases hid'
    rw [hid]
    exact hgives
  | answered a => exact ⟨rfl, Or.inl rfl, hr, hc⟩

end Call
end NameRegistry

/-! ### Runs -/

/-- Registries over one store, and the calls to them, each with the registry that it is made to.
A call that is answered stays with its answer. -/
structure Registration where
  registries : Nat → NameRegistry
  store : Store
  calls : List (Nat × NameRegistry.Call)

inductive RegistrationMove
  /-- A call is made to a registry. -/
  | make (registry : Nat) (request : NameRegistry.Request)
  /-- A call takes its next step. -/
  | step (call : Nat)
  /-- Something else happens to the store, which leaves its names alone; its faults may change. -/
  | elsewhere (store : Store)

namespace Registration

def names (s : Registration) : NameTable := s.store.contents.names

/-- Nothing is registered and nobody knows anything. -/
def start : Registration := ⟨fun _ => {}, .fresh, []⟩

def perform (s : Registration) : RegistrationMove → Registration
  | .make k request => { s with calls := s.calls ++ [(k, ⟨request, .recalling⟩)] }
  | .step i =>
    match s.calls[i]? with
    | none => s
    | some (k, c) =>
      let r := c.step ⟨s.registries k, s.store⟩
      ⟨Function.update s.registries k r.2.registry, r.2.store, s.calls.set i (k, r.1)⟩
  | .elsewhere store => { s with store := { store with contents := { store.contents with names := s.names } } }

def run (moves : List RegistrationMove) : Registration := moves.foldl perform start

/-- All that is known or was answered stands in the table, whose ids are in order. -/
structure Faithful (s : Registration) : Prop where
  numbered : ∀ space, s.names.Numbered space
  recalls : ∀ k, (s.registries k).Recalls s.names
  holds : ∀ c ∈ s.calls, c.2.Holds s.names

theorem faithful_start : Faithful start where
  numbered := NameTable.Numbered.empty
  recalls k space name id h := by cases h
  holds c hc := by cases hc

theorem Faithful.perform {s : Registration} (h : s.Faithful) (m : RegistrationMove) : (s.perform m).Faithful := by
  cases m with
  | make k request =>
    refine ⟨h.numbered, h.recalls, fun c hc => ?_⟩
    rcases List.mem_append.1 hc with hc | hc
    · exact h.holds c hc
    · rw [List.mem_singleton.1 hc]
      exact fun id hid => by cases hid
  | elsewhere store => exact ⟨h.numbered, h.recalls, h.holds⟩
  | step i =>
    unfold Registration.perform
    dsimp only
    split
    · exact h
    · rename_i k c hget
      have hmem := List.mem_of_getElem? hget
      obtain ⟨hrequest, hnames, hrecalls, hholds⟩ :=
        NameRegistry.Call.stepped (n := ⟨s.registries k, s.store⟩) (h.recalls k) (h.holds _ hmem)
      generalize c.step ⟨s.registries k, s.store⟩ = r at hrequest hnames hrecalls hholds
      have hwithin : s.names.Within r.2.names := by
        rcases hnames with heq | heq
        · rw [heq]
          exact .refl _
        · rw [heq]
          exact s.names.within_create _ _
      refine ⟨fun space => ?_, fun j => ?_, fun d hd => ?_⟩
      · show r.2.names.Numbered space
        rcases hnames with heq | heq
        · rw [heq]
          exact h.numbered space
        · rw [heq]
          exact (h.numbered space).create _ _
      · show (Function.update s.registries k r.2.registry j).Recalls r.2.names
        by_cases hj : j = k
        · subst hj
          rw [Function.update_self]
          exact hrecalls
        · rw [Function.update_of_ne hj]
          exact (h.recalls j).within hwithin
      · rcases List.mem_or_eq_of_mem_set hd with hd | rfl
        · exact (h.holds d hd).within hwithin
        · exact hholds

theorem faithful_run (moves : List RegistrationMove) : (run moves).Faithful := by
  have key : ∀ (moves : List RegistrationMove) (s : Registration), s.Faithful →
      (moves.foldl Registration.perform s).Faithful := by
    intro moves
    induction moves with
    | nil => exact fun s h => h
    | cons m rest ih => exact fun s h => ih _ (h.perform m)
  exact key moves start faithful_start

/-! ### One id for each name -/

/-- The calls, the registries and the store agree. -/
structure Converged (s : Registration) : Prop where
  same : ∀ c ∈ s.calls, ∀ d ∈ s.calls, c.2.request.space = d.2.request.space → c.2.request.name = d.2.request.name →
    ∀ i j, c.2.progress = .answered (.ok (some i)) → d.2.progress = .answered (.ok (some j)) → i = j ∧ i ≠ 0
  stored : ∀ c ∈ s.calls, ∀ id, c.2.progress = .answered (.ok (some id)) →
    s.store.contents.findName? c.2.request.space.name c.2.request.name = some id
  apart : ∀ space a b id, s.store.contents.findName? space a = some id →
    s.store.contents.findName? space b = some id → a = b
  exact : ∀ space id, (∃ name, s.store.contents.findName? space name = some id) ↔
    1 ≤ id.toInt ∧ id.toInt ≤ (s.store.contents.nameSpace space).length
  known : ∀ k space name id, (s.registries k).known? space name = some id →
    s.store.contents.findName? space.name name = some id

theorem Faithful.converged {s : Registration} (h : s.Faithful)
    (hfew : ∀ space, (s.store.contents.nameSpace space).length < 2147483648) : s.Converged := by
  have hgives : ∀ c ∈ s.calls, ∀ id, c.2.progress = .answered (.ok (some id)) →
      s.names.Gives c.2.request.space c.2.request.name id :=
    fun c hc id hid => h.holds c hc id (by rw [hid]; rfl)
  refine ⟨fun c hc d hd hspace hname i j hi hj => ?_, fun c hc id hid => (hgives c hc id hid).find,
    fun space a b id ha hb => (h.numbered space).apart (hfew space) ha hb,
    fun space id => (h.numbered space).exact (hfew space) id,
    fun k space name id hk => (h.recalls k space name id hk).find⟩
  have hci := hgives c hc i hi
  have hdj := hgives d hd j hj
  rw [← hspace, ← hname] at hdj
  exact ⟨Option.some.inj (hci.find.symm.trans hdj.find), hci.nonzero⟩

/-- An answer stands for good. -/
theorem answered_perform {s : Registration} {c : Nat × NameRegistry.Call} {a : Except Refusal (Option Int32)}
    (hc : c ∈ s.calls) (ha : c.2.progress = .answered a) (m : RegistrationMove) : c ∈ (s.perform m).calls := by
  cases m with
  | make k request => exact List.mem_append_left _ hc
  | elsewhere store => exact hc
  | step i =>
    unfold perform
    dsimp only
    split
    · exact hc
    · rename_i k d hget
      obtain ⟨j, hj⟩ := List.mem_iff_getElem?.1 hc
      refine List.mem_iff_getElem?.2 ⟨j, ?_⟩
      dsimp only
      rw [List.getElem?_set]
      split
      · rename_i heq
        subst heq
        cases hget.symm.trans hj
        have hstep : d.step ⟨s.registries k, s.store⟩ = (d, ⟨s.registries k, s.store⟩) := by
          unfold NameRegistry.Call.step
          rw [ha]
        rw [hstep, if_pos (List.getElem?_eq_some_iff.1 hget).1]
      · exact hj

/-- In every state of every run, in which a space has fewer than 2³¹ names, each name has one id,
which all calls answered so far have got, and ids are counted from 1 in each space. -/
theorem converges (moves : List RegistrationMove)
    (hfew : ∀ space, ((run moves).store.contents.nameSpace space).length < 2147483648) :
    (run moves).Converged ∧
      ∀ before after, moves = before ++ after → ∀ c ∈ (run before).calls, ∀ a, c.2.progress = .answered a →
        c ∈ (run moves).calls := by
  refine ⟨(faithful_run moves).converged hfew, ?_⟩
  rintro before after rfl c hc a ha
  have key : ∀ (after : List RegistrationMove) (s : Registration), c ∈ s.calls → c ∈ (after.foldl perform s).calls := by
    intro after
    induction after with
    | nil => exact fun s h => h
    | cons m rest ih => exact fun s h => ih _ (answered_perform h ha m)
  rw [run, List.foldl_append]
  exact key after _ hc

/-- Two registries register a name at once, and one of them a second name while the store finds
id 0 only. -/
def race : List RegistrationMove :=
  [.make 0 (.applicationId "shop"), .make 1 (.applicationId "shop"), .step 0, .step 1, .step 0, .step 1, .step 1, .step 0,
    .elsewhere { Store.fresh with plan := fun _ call => match call with | .find _ _ => .giveZero | _ => .answer },
    .make 0 (.obtain .application "cart"), .step 2, .step 2, .step 2, .step 0, .step 2, .step 1,
    .make 1 (.resolve .application "shop"), .step 3]

theorem converges_race :
    (∀ space, ((run race).store.contents.nameSpace space).length < 2147483648) ∧ (run race).Converged ∧
      (run race).calls.map (fun c => c.2.progress.id?) = [some 1, some 1, some 2, some 1] := by
  have hfew : ∀ space, ((run race).store.contents.nameSpace space).length < 2147483648 := by
    intro space
    have htotal : (run race).names.ids.toList.length = 2 := by decide +kernel
    have hle := List.length_filterMap_le
      (fun e : (String × String) × Int32 => if e.1.1 = space then some (e.1.2, e.2) else none) (run race).names.ids.toList
    rw [htotal] at hle
    exact Nat.lt_of_le_of_lt hle (by decide)
  exact ⟨hfew, (converges race hfew).1, by decide +kernel⟩

end Registration
end TraceRollup
