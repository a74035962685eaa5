import TraceRollup.Segment.Basic
import TraceRollup.NameRegistry

/-!
# Resolving the names of a segment

The application, the instance, and the peer and operation of every span are resolved in this
order, and only where an id is still missing. The first refusal ends the attempt; what was
resolved before it is kept, so another attempt asks only for the rest.
-/

namespace TraceRollup

/-- What an attempt leaves: the refusal that ended it, if any, the thing as far as it is
resolved, and the registry. -/
structure Resolution (α : Type) where
  refusal : Option Refusal
  value : α
  naming : NameRegistry.Naming

/-- Goes on with what has been resolved, unless the attempt has ended. -/
def Resolution.andThen {α : Type} (r : Resolution α) (f : α → NameRegistry.Naming → Resolution α) : Resolution α :=
  match r.refusal with
  | some _ => r
  | none => f r.value r.naming

namespace Span

def resolvePeer (s : Span) (n : NameRegistry.Naming) : Resolution Span :=
  if s.peerId = 0 ∧ s.peer ≠ "" then
    match n.addressId s.peer with
    | (.ok id, n) => ⟨none, { s with peerId := id, peer := "" }, n⟩
    | (.error e, n) => ⟨some e, s, n⟩
  else ⟨none, s, n⟩

def resolveOperation (application : Int32) (s : Span) (n : NameRegistry.Naming) : Resolution Span :=
  if s.operationId = 0 ∧ s.operationName ≠ "" then
    match n.serviceId application s.operationName with
    | (.ok id, n) => ⟨none, { s with operationId := id, operationName := "" }, n⟩
    | (.error e, n) => ⟨some e, s, n⟩
  else ⟨none, s, n⟩

def resolve (application : Int32) (s : Span) (n : NameRegistry.Naming) : Resolution Span :=
  (s.resolvePeer n).andThen (resolveOperation application)

def resolveAll (application : Int32) : List Span → NameRegistry.Naming → Resolution (List Span)
  | [], n => ⟨none, [], n⟩
  | s :: rest, n =>
    let r := s.resolve application n
    match r.refusal with
    | some e => ⟨some e, r.value :: rest, r.naming⟩
    | none =>
      let t := resolveAll application rest r.naming
      ⟨t.refusal, r.value :: t.value, t.naming⟩

end Span

namespace Segment

def resolveApplication (s : Segment) (n : NameRegistry.Naming) : Resolution Segment :=
  if s.applicationId = 0 then
    match n.applicationId s.applicationCode with
    | (.ok id, n) => ⟨none, { s with applicationId := id }, n⟩
    | (.error e, n) => ⟨some e, s, n⟩
  else ⟨none, s, n⟩

def resolveInstance (s : Segment) (n : NameRegistry.Naming) : Resolution Segment :=
  if s.instanceId = 0 then
    match n.instanceId s.applicationId s.instanceUuid with
    | (.ok id, n) => ⟨none, { s with instanceId := id }, n⟩
    | (.error e, n) => ⟨some e, s, n⟩
  else ⟨none, s, n⟩

def resolveSpans (s : Segment) (n : NameRegistry.Naming) : Resolution Segment :=
  let r := Span.resolveAll s.applicationId s.spans n
  ⟨r.refusal, { s with spans := r.value }, r.naming⟩

/-- One attempt at resolving all names of a segment. -/
def resolve (s : Segment) (n : NameRegistry.Naming) : Resolution Segment :=
  ((s.resolveApplication n).andThen resolveInstance).andThen resolveSpans

end Segment
end TraceRollup
