import Intake.Json
import Intake.Session
import Intake.Sink

/-!
# Errors of the service

What can go wrong with a request, how it is worded, and the response that tells the
client: a status, and a body with a code and a message.
-/

namespace Intake

/-- What goes wrong outside of requests. -/
inductive CommonError where
  | io (detail : String)
  | config (detail : String)
  deriving DecidableEq, Repr

/-- The wording. -/
def CommonError.message : CommonError → String
  | io detail => "IO error: " ++ detail
  | config detail => "Configuration error: " ++ detail

/-- What goes wrong with a request. -/
inductive ApiError where
  | badRequest (detail : String)
  /-- The session's id is in use, or its stream has a reader. -/
  | conflict (detail : String)
  | payloadTooLarge (detail : String)
  | internal (detail : String)
  | io (detail : String)
  /-- Anything else; of a chain of causes the outermost is given. -/
  | other (detail : String)
  | common (error : CommonError)
  deriving DecidableEq, Repr

namespace ApiError

/-- The error of a session that was not opened. -/
def ofSession : SessionError → ApiError
  | .batch e => badRequest e.message
  | .alreadyOpen id => conflict (SessionError.alreadyOpenMessage id)

/-- The error of a sink that was not attached. -/
def ofSink (e : SinkError) : ApiError :=
  match e with
  | .missingSessionId | .unknownSession _ => badRequest e.message
  | .alreadyAttached _ => conflict e.message

/-- The wording. -/
def display : ApiError → String
  | badRequest d | conflict d | payloadTooLarge d | other d => d
  | internal d => "Internal server error: " ++ d
  | io d => "IO error: " ++ d
  | common e => "Common error: " ++ e.message

/-- The status of the response. -/
def status : ApiError → Nat
  | badRequest _ => 400
  | conflict _ => 409
  | payloadTooLarge _ => 413
  | internal _ | io _ | other _ | common _ => 500

/-- The code in the response. -/
def code : ApiError → String
  | badRequest _ => "BAD_REQUEST"
  | conflict _ => "CONFLICT"
  | payloadTooLarge _ => "PAYLOAD_TOO_LARGE"
  | internal _ | other _ => "INTERNAL_ERROR"
  | io _ => "IO_ERROR"
  | common _ => "COMMON_ERROR"

/-- The message in the response. -/
def message : ApiError → String
  | badRequest d | conflict d | payloadTooLarge d | internal d | io d | other d => d
  | common e => e.message

/-- The body of the response. -/
def body (e : ApiError) : String :=
  String.ofList
    ("\x7b\"error\":\x7b\"code\":".toList ++ Json.writeString e.code ++ ",\"message\":".toList
      ++ Json.writeString e.message ++ "\x7d\x7d".toList)

end ApiError
end Intake
