import Stepwise.Progress.Text

/-!
# A store of progress

Keeps the progress of sessions and the chat histories of their steps as texts under keys, so that
what is stored does not change with the progress it was made from. A text that cannot be read back
is an error that shows it, unless it is its depth that forbids it; a missing or an empty text counts
as nothing stored.
-/

namespace Stepwise

/-- Texts under keys. -/
structure ProgressStore where
  records : Entries Text Text := []

namespace ProgressStore

/-- Why stored data cannot be read back. -/
inductive Error where
  | unreadableProgress (session text : Text) (cause : Progress.ReadError)
  /-- the text is no JSON text, or holds something else than a list -/
  | unreadableHistory (session text : Text) (cause : Option Json.ReadError)
  /-- an array, or else an object, of the text stands too deep in others -/
  | tooDeep (isArray : Bool)

/-- The text of an error. -/
def Error.message : Error → Text
  | unreadableProgress session text _ =>
    "Failed to deserialize execution state for sessionId=" ++ session ++ ", data=" ++ text
  | unreadableHistory session text _ =>
    "Failed to deserialize chat history for session " ++ session ++ ", data=" ++ text
  | tooDeep isArray => (Json.ReadError.tooDeep isArray).message

/-- The key of the progress of a session. -/
def progressKey (session : Text) : Text := "FlowStatus_" ++ session

/-- The key of the chat history of a step in a session. -/
def historyKey (session step : Text) : Text := "ChatHistory_" ++ session ++ "_" ++ step

/-- What the log says when progress has been saved. -/
def savedNote (session : Text) : Text := "Saved execution state for session " ++ session

variable (st : ProgressStore)

/-- The text under a key. -/
def text? (key : Text) : Option Text := st.records.get? key

/-- Puts a text under a key. -/
def put (key text : Text) : ProgressStore := ⟨st.records.insert key text⟩

/-- The text under a key unless it is missing or empty. -/
def stored? (key : Text) : Option Text := (st.text? key).filter (· ≠ [])

/-- The progress of a session, fresh if none is stored. -/
def progress [Limits] (session : Text) : Except Error Progress :=
  match st.stored? (progressKey session) with
  | none => .ok {}
  | some text => (Progress.ofText text).mapError fun
    | .text (.tooDeep isArray) => .tooDeep isArray
    | cause => .unreadableProgress session text cause

/-- Stores the progress of a session. -/
def saveProgress [Limits] (session : Text) (p : Progress) :
    Except Progress.WriteError ProgressStore := do
  pure (st.put (progressKey session) (← p.toText))

/-- The chat history of a step in a session, if one is stored. -/
def history [Limits] (session step : Text) : Except Error (Option (List Value)) :=
  match st.stored? (historyKey session step) with
  | none => .ok none
  | some text =>
    match Json.read text with
    | .error (.tooDeep isArray) => .error (.tooDeep isArray)
    | .error e => .error (.unreadableHistory session text (some e))
    | .ok (.list xs) => .ok (some xs)
    | .ok _ => .error (.unreadableHistory session text none)

/-- Stores the chat history of a step in a session. -/
def saveHistory [Limits] (session step : Text) (history : Value) :
    Except Json.WriteError ProgressStore := do
  pure (st.put (historyKey session step) (← Json.write false history))

end ProgressStore

end Stepwise
