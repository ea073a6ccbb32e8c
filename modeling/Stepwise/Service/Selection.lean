import Stepwise.Service.Registry
import Stepwise.Settings

/-!
# Selecting a service

Finds the service for a function by its preferences, in their order. A preference with a service
identifier asks for the service under it; one with a model identifier only asks for the first
service with that model; one with neither takes the default service if no other preference is met.
A function without preferences gets the default service.
-/

namespace Stepwise

namespace Selection

/-- A service and the preference that it was chosen by, with its place among the preferences. -/
structure Choice where
  service : Service
  preference : Option (Nat × ModelSettings)

/-- How a preference was met, for the log. -/
inductive Note where
  | byServiceId (c : Capability) (id : String)
  | byModelId (c : Capability) (id : String)
  deriving DecidableEq, Repr

/-- The text of a note. -/
def Note.message : Note → String
  | byServiceId c id => "Selected " ++ c.name ++ " by service id " ++ Text.quoted id
  | byModelId c id => "Selected " ++ c.name ++ " by model id " ++ Text.quoted id

/-- No service was found for these names. -/
structure NotRegistered where
  capability : Capability
  names : String
  deriving DecidableEq, Repr

/-- The text of the error. -/
def NotRegistered.message (e : NotRegistered) : String :=
  "Service of type " ++ e.capability.name ++ " and name " ++ e.names ++ " not registered."

/-- The text of an identifier, if it is given and not empty. -/
def given? (id : Option String) : Option String := id.filter (· ≠ "")

/-- The first service of a capability with a model. -/
def byModel? (r : ServiceRegistry) (c : Capability) (model : String) : Option Service :=
  (r.services c).find? fun s => given? s.modelId == some model

/-- The service that a preference asks for by an identifier, and a note of it. -/
def match? (r : ServiceRegistry) (c : Capability) (p : ModelSettings) : Option (Service × Note) :=
  match given? p.serviceId, given? p.modelId with
  | some id, _ => (r.keyed? c (some id)).map fun s => (s, .byServiceId c id)
  | none, some model => (byModel? r c model).map fun s => (s, .byModelId c model)
  | none, none => none

/-- Whether a preference asks for no service in particular. -/
def isOpen (p : ModelSettings) : Bool :=
  (given? p.serviceId).isNone && (given? p.modelId).isNone

/-- The identifiers that a list of preferences asks for, as the error names them. -/
def names : List ModelSettings → String
  | [] => "<NONE>"
  | ps => "|".intercalate (ps.map fun p => p.serviceId.getD "")

/-- The default service with the first open preference, or with none if there are no preferences. -/
def fallback? (r : ServiceRegistry) (c : Capability) (ps : List ModelSettings) : Option Choice :=
  let first := ps.zipIdx.find? fun (p, _) => isOpen p
  if ps.isEmpty || first.isSome then
    (r.default? c).map fun s => ⟨s, first.map fun (p, i) => (i, p)⟩
  else none

/-- Selects the service of a capability for a list of preferences, with a note for the log. -/
def select (r : ServiceRegistry) (c : Capability) (ps : List ModelSettings) :
    Except NotRegistered (Choice × Option Note) :=
  match ps.zipIdx.findSome? fun (p, i) => (match? r c p).map fun (s, note) => (s, note, i, p) with
  | some (s, note, i, p) => .ok (⟨s, some (i, p)⟩, some note)
  | none =>
    match fallback? r c ps with
    | some choice => .ok (choice, none)
    | none => .error ⟨c, names ps⟩

end Selection

end Stepwise
