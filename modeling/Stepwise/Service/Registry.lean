import Stepwise.Entries
import Stepwise.Service.Basic

/-!
# A registry of services

Services by capability. A capability has its services in the order in which they were registered,
some of them under an identifier of their own, and one of them is the default: the first one,
until another is registered as the default. Looking up never fails; what is not there is absent.
-/

namespace Stepwise

/-- A service under an identifier, if it has one. -/
structure Registration where
  service : Service
  id : Option String
  deriving DecidableEq, Repr

/-- The services by capability, and the default of each. -/
structure ServiceRegistry where
  registrations : Entries Capability (List Registration) := []
  defaults : Entries Capability Service := []

namespace ServiceRegistry

/-- Why a service is not registered. -/
inductive Error where
  | notOffered (type : String) (c : Capability)
  | taken (id : String) (c : Capability)
  deriving DecidableEq, Repr

/-- The text of an error. -/
def Error.message : Error → String
  | notOffered type c => type ++ " does not implement " ++ c.name
  | taken id c => "Service id '" ++ id ++ "' is already registered for " ++ c.name

variable (r : ServiceRegistry)

/-- The registrations for a capability. -/
def entries (c : Capability) : List Registration := (r.registrations.get? c).getD []

/-- An identifier, the empty one counting as none. -/
def proper (id : Option String) : Option String := id.filter (· ≠ "")

/-- Registers a service for a capability, by default without an identifier. A capability that has no
registrations yet gets its empty row before the identifier is looked at. -/
def register (c : Capability) (s : Service) (id : Option String) (asDefault : Bool) :
    ServiceRegistry × Except Error Unit :=
  if !s.offers c then (r, .error (.notOffered s.type c))
  else
    let r := { r with registrations := r.registrations.insertNew c [] }
    let used (k : String) : Bool := (r.entries c).any fun e => e.id == some k
    match (proper id).filter used with
    | some k => (r, .error (.taken k c))
    | none =>
      let registrations := r.registrations.insert c (r.entries c ++ [⟨s, proper id⟩])
      let defaults :=
        if asDefault || !r.defaults.hasKey c then r.defaults.insert c s else r.defaults
      ({ registrations, defaults }, .ok ())

/-- The default service of a capability. -/
def default? (c : Capability) : Option Service := r.defaults.get? c

/-- The service of a capability under an identifier; without one, the first that has none. -/
def keyed? (c : Capability) (id : Option String) : Option Service :=
  ((r.entries c).find? fun e => e.id == id).map Registration.service

/-- The services of a capability. -/
def services (c : Capability) : List Service := (r.entries c).map Registration.service

end ServiceRegistry

end Stepwise
