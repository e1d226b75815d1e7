import Montage.Json.Value

/-!
# What a render comes to
-/

namespace Montage

/-- How a preview or an export ended. -/
inductive RenderStatus
  | ready
  /-- The timeline has no clips, so that there is nothing to render. -/
  | empty
  | error
deriving DecidableEq, Repr

namespace RenderStatus

/-- The status as messages name it. -/
def label : RenderStatus → String
  | ready => "Ready"
  | empty => "Empty"
  | error => "Error"

/-- The status as documents name it. -/
def wireName : RenderStatus → String
  | ready => "ready"
  | empty => "empty"
  | error => "error"

/-- A status's name. -/
def toJson (status : RenderStatus) : Json := Json.str status.wireName

/-- The status with the given name. -/
def ofJson? (j : Json) : Option RenderStatus :=
  match j.caseName? with
  | some "ready" => some .ready
  | some "empty" => some .empty
  | some "error" => some .error
  | _ => none

end RenderStatus

/-- What the service answers about a preview or an export. -/
structure RenderOutput where
  status : RenderStatus
  /-- Where the rendering is, relative to the service; empty if there is none. -/
  url : String := ""
deriving DecidableEq, Repr

namespace RenderOutput

/-- Whether there is a rendering to look at. -/
def isReady (output : RenderOutput) : Bool :=
  output.status = .ready && output.url ≠ ""

/-- The document of an output. -/
def toJson (output : RenderOutput) : Json :=
  .record [("status", output.status.toJson), ("url", Json.str output.url)]

/-- Reads the document of an output. -/
def ofJson? (j : Json) : Option RenderOutput := do
  let fields ← j.fields? ["status", "url"]
  return {
    status := ← fields.need "status" RenderStatus.ofJson?
    url := ← fields.orElse "url" "" Json.text? }

end RenderOutput

end Montage
