import Intake.Notification

/-!
# Event streams

A stream of notifications is a text of records. Each record is one line `data: `
with the notification, and an empty line ends it. A line that starts with a colon is
a comment; the heartbeat is one. `records` cuts a text back into records.
-/

namespace Intake.EventStream

/-- How long a stream may stay silent before a heartbeat, in milliseconds. -/
def heartbeatInterval : Nat := 15000

/-- The media type of a stream. -/
def mediaType : String := "text/event-stream"

/-- One notification as a record. -/
def record (n : Notification) : List Char :=
  "data: ".toList ++ n.writeChars ++ ['\n', '\n']

/-- The heartbeat as a record. -/
def heartbeat : List Char :=
  ": heartbeat\n\n".toList

/-- The text of a stream. -/
def body (ns : List Notification) : List Char :=
  ns.flatMap record

/-- Cuts at empty lines, with the current record and the finished ones in reverse. -/
def recordsFrom (cur : List Char) (done : List (List Char)) : List Char → List (List Char)
  | [] => (if cur.isEmpty then done else cur.reverse :: done).reverse
  | '\n' :: '\n' :: r => recordsFrom [] (cur.reverse :: done) r
  | c :: r => recordsFrom (c :: cur) done r

/-- The records of a text that are not comments. -/
def records (cs : List Char) : List (List Char) :=
  (recordsFrom [] [] cs).filter (fun r => r.head? != some ':')

/-- The notification of one record. -/
def notificationOf? (r : List Char) : Option Notification :=
  if r.take 6 = "data: ".toList then Notification.read? (String.ofList (r.drop 6)) else none

/-- The notifications of a text, if every record holds one. -/
def read? (cs : List Char) : Option (List Notification) :=
  (records cs).mapM notificationOf?

end Intake.EventStream
