import Montage.Json.Printer
import Montage.Json.Reader
import Montage.Legible
import Montage.Render.Address
import Montage.Render.Output
import Montage.Render.ReasonPhrase
import Montage.Settings
import Montage.Wire.Timeline

/-!
# The render server

The server takes media and timelines and answers with documents. Each kind of exchange has the
request it sends and the reading of the reply, so that whoever carries requests needs to know
nothing else.
-/

namespace Montage

/-! ## Requests and replies -/

/-- What a request carries. -/
inductive Payload
  | document (text : String)
  /-- A file, sent as one part of a form. -/
  | file (name : String) (content : ByteArray)

/-- Something that is posted. -/
structure Request where
  url : String
  payload : Payload

/-- What comes of a request. -/
inductive Reply
  | answered (status : Nat) (body : String)
  /-- No answer came; the reason is the sender's. -/
  | lost (reason : String)

/-- What comes of a request on a network that leads nowhere. -/
def unreachable (request : Request) : Reply :=
  .lost <| match Address.ofText request.url with
    | .error fault => fault.message
    | .ok address => s!"error sending request for url ({address.text}): "
        ++ "error trying to connect: tcp connect error: Network is unreachable (os error 101)"

/-- The body of a reply as a document of the given kind. -/
def Reply.read {β : Type} (reply : Reply) (url : String) (ofJson? : Json → Option β) :
    Except Failure β :=
  match reply with
  | .lost reason => .error (.transport s!"{url}: {reason}")
  | .answered status body =>
      if 200 ≤ status && status < 300 then
        match Json.parse? body >>= ofJson? with
        | some value => .ok value
        | none => .error (.transport s!"{url}: invalid response body: {malformedText}")
      else .error (.transport s!"{url} returned {statusText status}: {body}")

/-! ## The server -/

/-- A render server, known by its address. -/
structure Server where
  /-- The address, without slashes at its end. -/
  baseUrl : String
deriving DecidableEq, Repr

namespace Server

variable {α : Type} [Scalar α] [WireNumber α]

/-- The server that the settings name. -/
def ofSettings (settings : ServiceSettings) : Server :=
  ⟨Text.trimRight '/' settings.baseUrl⟩

/-- Where something is that the server names relative to itself. -/
def absoluteUrl (server : Server) (url : String) : String :=
  if url.startsWith "http://" || url.startsWith "https://" then url
  else if url.startsWith "/" then server.baseUrl ++ url
  else server.baseUrl ++ "/" ++ url

/-- Where the server takes requests of a kind. -/
def endpoint (server : Server) (kind : String) : String :=
  server.baseUrl ++ "/" ++ kind

/-- A request that carries a timeline. -/
def timelineRequest (server : Server) (kind : String) (t : Timeline α) : Request :=
  ⟨server.endpoint kind, .document t.toJson.compact⟩

/-! ## Uploads -/

/-- The request to store a file; there has to be something in it. -/
def uploadRequest (server : Server) (name : String) (content : ByteArray) :
    Except Failure Request :=
  if content.isEmpty then .error (.upload s!"{name} is empty")
  else .ok ⟨server.endpoint "upload", .file name content⟩

omit [Scalar α] in
/-- The asset that a stored file has become. -/
def readUpload (server : Server) (reply : Reply) : Except Failure (Asset α) :=
  reply.read (server.endpoint "upload") Asset.ofJson?

/-! ## Renderings -/

/-- The request to render a run of clips into one asset. -/
def mergeRequest (server : Server) (run : Timeline α) : Request :=
  server.timelineRequest "merge" run

/-- The asset that a run of clips has become; it has to play for some time. -/
def readMerge [Legible α] (server : Server) (reply : Reply) : Except Failure (Asset α) := do
  let asset : Asset α ← reply.read (server.endpoint "merge") Asset.ofJson?
  if !(0 < asset.duration : Bool) then
    throw (.render
      s!"merge returned asset {asset.id} with duration {Legible.text asset.duration}")
  return asset

/-- The request for a quick rendering of the whole timeline. -/
def previewRequest (server : Server) (t : Timeline α) : Request :=
  server.timelineRequest "preview" t

/-- What a preview came to. -/
def readPreview (server : Server) (reply : Reply) : Except Failure RenderOutput :=
  reply.read (server.endpoint "preview") RenderOutput.ofJson?

/-- The request for a rendering of the whole timeline at full quality. -/
def exportRequest (server : Server) (t : Timeline α) : Request :=
  server.timelineRequest "export" t

/-- What an export came to; only a rendering will do. -/
def readExport (server : Server) (reply : Reply) : Except Failure RenderOutput := do
  let output ← reply.read (server.endpoint "export") RenderOutput.ofJson?
  if output.status ≠ .ready then
    throw (.render s!"export finished with status {output.status.label}")
  return output

end Server

end Montage
