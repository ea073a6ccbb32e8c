import Stepwise.Flow.Document
import Stepwise.Json.Reader
import Stepwise.Yaml.Unfolding

/-!
# Loading flows

Flows from texts in YAML and in JSON: the text is read as data and the data as a flow.
-/

namespace Stepwise

/-- Why a text holds no flow. -/
inductive LoadError where
  | yaml (fault : Yaml.Fault)
  | json (e : Json.ReadError)
  | document (fault : Document.Fault)

namespace Flow

/-- The flow that a mapping describes. -/
def ofDocument [Limits] (v : Value) : Except LoadError Flow := (Document.flow v).mapError .document

/-- The flow of a YAML text. -/
def ofYaml [Limits] (text : String) : Except LoadError Flow := do
  (Document.flowWithin (← (Yaml.read text).mapError .yaml)).mapError .document

/-- The flow of a JSON text. -/
def ofJson [Limits] (text : Text) : Except LoadError Flow := do
  ofDocument (← (Json.read text).mapError .json)

end Flow

end Stepwise
