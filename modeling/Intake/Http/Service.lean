import Intake.EventStream
import Intake.Http.Message
import Intake.Http.Query
import Intake.Http.Upload
import Intake.Product

/-!
# The service

Which path leads where, what each of them does with a request, and how the answer looks.
Some requests are answered at once. An upload is answered with the stream of its session's
events, a request for events with those that a sink gets once it is attached.
-/

namespace Intake.Http

/-- The ends that requests can reach. -/
inductive Endpoint where
  | upload
  | events
  | health
  deriving DecidableEq, Repr

namespace Endpoint

/-- The end that a path leads to. -/
def ofPath? (path : String) : Option Endpoint :=
  if path = "/upload" then some upload
  else if path = "/sse" then some events
  else if path = "/health" then some health
  else none

/-- The methods that an end answers. -/
def methods : Endpoint → List String
  | upload => ["POST"]
  | events | health => ["GET", "HEAD"]

end Endpoint

/-- What the service works with. -/
structure Service where
  config : Config
  table : ExtractorTable
  /-- How the fields of forms are read as texts. -/
  decode : Decoder

namespace Service

/-- The service of a configuration, with the usual extractors. -/
def ofConfig (config : Config) (decode : Decoder) : Service where
  config := config
  table := .standard config.upload.csvPreviewRows
  decode := decode

/-- The limits of its sessions. -/
def settings (s : Service) : SessionSettings :=
  .ofConfig s.config.upload

/-- What the service does with a request. -/
inductive Reaction where
  | answer (response : Response)
  /-- Wait for a session, then stream what a sink gets. -/
  | attach (attachment : Attachment)
  /-- Run a session and stream what its mirror gets. -/
  | run (session : Prepared)

/-- The response to an error. -/
def ofError (e : ApiError) : Response :=
  .ofJson e.status e.body

/-- A stream as it begins, or with its records at the end. -/
def ofStream (records : List Record) : Response where
  status := 200
  headers := [("content-type", EventStream.mediaType), ("cache-control", "no-cache"),
    ("x-accel-buffering", "no"), Response.openToAll]
  body := .stream records

/-- The health of the service. -/
def health (hub : Hub) : Response :=
  .ofJson 200 (String.ofList
    ("\x7b\"status\":\"ok\",\"module\":".toList ++ Json.writeString Product.name
      ++ ",\"version\":".toList ++ Json.writeString Product.version
      ++ ",\"uptime_seconds\":".toList ++ (toString (hub.now / 1000)).toList
      ++ ",\"active_sessions\":".toList ++ (toString hub.registry.size).toList
      ++ "\x7d".toList))

/-- The session that a query asks for; the name may not stand there twice. -/
def sessionOf? (query : String) : Option String :=
  match ((Query.read query).filter (·.1 == "guid")).map Prod.snd with
  | [] => some ""
  | [id] => some id
  | _ => none

/-- A request for the events of a session. -/
def events (s : Service) (r : Request) (hub : Hub) : Reaction :=
  match sessionOf? (r.query.getD "") with
  | none =>
    .answer (.refusal "Failed to deserialize query string: duplicate field `guid`")
  | some id =>
    match Attachment.start id hub.now s.settings.attachGrace with
    | .ok a => .attach a
    | .error e => .answer (ofError (.ofSink e))

/-- The boundary between the fields of a form. -/
def boundaryOf? (r : Request) : Option String :=
  match r.contentType.bind Media.Header.read? with
  | some h => if h.isForm then h.parameter? "boundary" else none
  | none => none

/-- An upload. -/
def upload (s : Service) (r : Request) (hub : Hub) : Reaction × Hub :=
  match boundaryOf? r with
  | none =>
    (.answer (.refusal "Invalid `boundary` for `multipart/form-data` request"), hub)
  | some boundary =>
    let form := Form.readWithin s.config.upload.maxBodyBytes boundary r.body
    match Upload.open? s.decode s.table s.settings form hub with
    | (.error e, hub) => (.answer (ofError e), hub)
    | (.ok p, hub) => (.run p, hub)

/-- What the service does with a request. The question what is allowed from elsewhere is
answered for every path. -/
def react (s : Service) (r : Request) (hub : Hub) : Reaction × Hub :=
  if r.method = "OPTIONS" then
    (.answer (.empty 200
      [("access-control-allow-methods", "*"), ("access-control-allow-headers", "*")]), hub)
  else
    match Endpoint.ofPath? r.path with
    | none => (.answer (.empty 404 []), hub)
    | some e =>
      if !e.methods.contains r.method then
        (.answer (.empty 405 [("allow", ",".intercalate e.methods)]), hub)
      else
        match e with
        | .upload => s.upload r hub
        | .events => (s.events r hub, hub)
        | .health => (.answer (health hub), hub)

end Service
end Intake.Http
