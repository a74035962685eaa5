import TraceRollup.Refusal

/-!
# The name registry

A node remembers the ids of names that the store has confirmed. A look-up asks the memory
first, then the store; registering a name asks the store to give it an id. An id once
remembered is never replaced, and id 0 stands for none.
-/

namespace TraceRollup

structure NameRegistry where
  known : Dict (NameSpace × String) Int32 := Dict.empty

namespace NameRegistry

instance : Inhabited NameRegistry := ⟨{}⟩

/-- The name under which something that belongs to an application is registered. -/
def scopedName (application : Int32) (name : String) : String := toString application.toInt ++ "_" ++ name

/-! ### Memory -/

def known? (r : NameRegistry) (space : NameSpace) (name : String) : Option Int32 := r.known.get? (space, name)

/-- Remembers an id unless another is known already; gives the id that is known afterwards. -/
def remember (r : NameRegistry) (space : NameSpace) (name : String) (id : Int32) : Int32 × NameRegistry :=
  if id = 0 then (0, r)
  else ((r.known? space name).getD id, ⟨r.known.setNew (space, name) id⟩)

def sizeOf (r : NameRegistry) (space : NameSpace) : Nat := r.known.toList.countP fun e => e.1.1 = space

theorem known?_remember (r : NameRegistry) (space : NameSpace) (name : String) (id : Int32)
    (space' : NameSpace) (name' : String) :
    (r.remember space name id).2.known? space' name' =
      if (space', name') = (space, name) ∧ id ≠ 0 then some ((r.known? space name).getD id)
      else r.known? space' name' := by
  unfold remember
  by_cases hid : id = 0
  · simp [hid]
  · by_cases hk : (space', name') = (space, name)
    · simp [hid, known?, Dict.get?_setNew, hk]
    · simp [hid, known?, Dict.get?_setNew, hk]

/-! ### Look-up and registration -/

/-- A registry with the store behind it. -/
structure Naming where
  registry : NameRegistry
  store : Store
  deriving Inhabited

namespace Naming

/-- The id of a name, if one is known or the store has one. -/
def resolve (n : Naming) (space : NameSpace) (name : String) : Except Refusal (Option Int32) × Naming :=
  match n.registry.known? space name with
  | some id => (.ok (some id), n)
  | none =>
    match n.store.findName space.name name with
    | (.error e, store) => (.error (.storage e), { n with store })
    | (.ok none, store) => (.ok none, { n with store })
    | (.ok (some id), store) =>
      if id = 0 then (.ok none, { n with store })
      else
        let r := n.registry.remember space name id
        (.ok (some r.1), ⟨r.2, store⟩)

/-- Has the store register a name that was not found. -/
def register (n : Naming) (space : NameSpace) (name : String) : Except Refusal Int32 × Naming :=
  match n.store.createName space.name name with
  | (.error e, store) => (.error (.storage e), { n with store })
  | (.ok id, store) =>
    if id = 0 then (.error (.unresolvedName space name), { n with store })
    else
      let r := n.registry.remember space name id
      (.ok r.1, ⟨r.2, store⟩)

/-- The id of a name, registered if it has none. -/
def obtain (n : Naming) (space : NameSpace) (name : String) : Except Refusal Int32 × Naming :=
  match n.resolve space name with
  | (.error e, n) => (.error e, n)
  | (.ok (some id), n) => (.ok id, n)
  | (.ok none, n) => n.register space name

def applicationId (n : Naming) (code : String) : Except Refusal Int32 × Naming := n.obtain .application code
def addressId (n : Naming) (address : String) : Except Refusal Int32 × Naming := n.obtain .address address

def serviceId (n : Naming) (application : Int32) (operation : String) : Except Refusal Int32 × Naming :=
  n.obtain .serviceName (scopedName application operation)

def instanceId (n : Naming) (application : Int32) (uuid : String) : Except Refusal Int32 × Naming :=
  n.obtain .agentInstance (scopedName application uuid)

end Naming
end NameRegistry
end TraceRollup
