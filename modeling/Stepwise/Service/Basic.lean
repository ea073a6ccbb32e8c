/-!
# Services

A service is a model behind an interface. It offers capabilities, each of which makes it a service
of the most general kind as well, and may know the identifier of its model.
-/

namespace Stepwise

/-- What a service can be asked for. -/
inductive Capability where
  | any
  | chat
  | text
  | embedding
  /-- one of a client's own; the number tells those of one name apart -/
  | own (name : String) (number : Nat)
  deriving DecidableEq, Repr

/-- The name of a capability in messages. -/
def Capability.name : Capability → String
  | any => "AIService"
  | chat => "ChatCompletionService"
  | text => "TextCompletionService"
  | embedding => "EmbeddingGenerationService"
  | own name _ => name

/-- A service. The label tells services apart. -/
structure Service where
  label : String
  /-- the name of its type in messages -/
  type : String
  /-- the capabilities that it declares -/
  declared : List Capability
  modelId : Option String
  deriving DecidableEq, Repr

/-- Whether a service has a capability: one that it declares, or the general one if it declares
any. -/
def Service.offers (s : Service) (c : Capability) : Bool :=
  s.declared.contains c || (c == .any && !s.declared.isEmpty)

end Stepwise
