import Intake.Event
import Intake.Text.Utf8

/-!
# Requests and responses

What a client asks for and what it is answered. A body is a text or a stream of records,
which is the list of its records once the stream is over.
-/

namespace Intake.Http

/-- What a client asks for. -/
structure Request where
  method : String
  path : String
  /-- What follows the first question mark. -/
  query : Option String := none
  /-- The declared type of the body. -/
  contentType : Option String := none
  body : Bytes := []

namespace Request

/-- A request for a target, which is a path with or without a query. Nothing is asked of
what follows a number sign. -/
def ofTarget (method target : String) : Request :=
  let cs := target.toList.takeWhile (· != '#')
  { method
    path := String.ofList (cs.takeWhile (· != '?'))
    query := match cs.dropWhile (· != '?') with
      | _ :: q => some (String.ofList q)
      | [] => none }

end Request

/-- What a stream consists of. -/
inductive Record where
  | event (event : Event)
  | heartbeat
  deriving DecidableEq, Repr

/-- The body of a response. -/
inductive Body where
  | text (content : String)
  | stream (records : List Record)
  /-- The client did not read it. -/
  | unread
  deriving DecidableEq, Repr

/-- What a client is answered. -/
structure Response where
  status : Nat
  headers : List (String × String)
  body : Body
  deriving DecidableEq, Repr

/-- How much of a body a client takes. -/
inductive Appetite where
  | whole
  /-- The body is never sent. -/
  | headers
  /-- The body is sent and thrown away at once. -/
  | nothing
  deriving DecidableEq, Repr

namespace Body

/-- What a client gets of a body that is not a stream at work. -/
def taken (b : Body) : Appetite → Body
  | .whole => b
  | .headers =>
    match b with
    | text _ => text ""
    | stream _ => stream []
    | unread => unread
  | .nothing => unread

end Body

namespace Response

/-- Pages from anywhere may read every response. -/
def openToAll : String × String :=
  ("access-control-allow-origin", "*")

/-- A response that is a text of a type. -/
def ofText (status : Nat) (type content : String) : Response where
  status := status
  headers := [("content-type", type), openToAll]
  body := .text content

/-- A response in JSON. -/
def ofJson (status : Nat) (content : String) : Response :=
  ofText status "application/json" content

/-- A refusal in words. -/
def refusal (reason : String) : Response :=
  ofText 400 "text/plain; charset=utf-8" reason

/-- A response without a body. -/
def empty (status : Nat) (headers : List (String × String)) : Response where
  status := status
  headers := headers ++ [openToAll]
  body := .text ""

/-- What a client gets of a response. -/
def taken (r : Response) (appetite : Appetite) : Response :=
  { r with body := r.body.taken appetite }

end Response
end Intake.Http
