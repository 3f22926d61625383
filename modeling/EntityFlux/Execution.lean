import EntityFlux.Json.Decode
import EntityFlux.Lowering.Basic

/-!
# Executing queries

A client lowers a query, sends the request to a server and checks how many records came back. Only
queries that can be lowered reach the server.
-/

namespace EntityFlux

open Flux

/-- The values of a record under the names of its columns. -/
abbrev Record := Dictionary Json

namespace Record

open Json.Decode

def ofJson? (json : Json) : Option Record := do
  match ← fields .document ["values"] json with
  | [values] =>
    required (dictionary? fun value => if value.isUsable then some value.sorted else none) values
  | _ => none

def json (record : Record) : Json := .obj [("values", .obj record)]

end Record

/-- A request and the organisation it is sent for. -/
structure Sent where
  request : Request
  org : String
deriving DecidableEq

/-- A server answers a request in view of all it has been sent, this request last: with records or
with a message of failure. -/
abbrev Server := List Sent → Except String (List Record)

inductive Fault where
  | refused (refusal : Refusal)
  | failed (message : String)
  | noElements
  | moreThanOneElement
deriving DecidableEq, Repr

def Fault.message : Fault → String
  | .refused refusal => "Translation error: " ++ refusal.message
  | .failed message => "Transport error: " ++ message
  | .noElements => "Sequence contains no elements"
  | .moreThanOneElement => "Sequence contains more than one element"

structure Client where
  bucket : String
  org : String
  registry : Registry
  settings : Settings := {}

/-- What has been sent and noted so far. -/
structure Session where
  sent : List Sent := []
  events : List Event := []

namespace Client

def prepare (client : Client) (query : Query) (session : Session) :
    Session × Except Fault Request :=
  let (events, result) := query.lower client.settings client.registry client.bucket
  ({ session with events := session.events ++ events }, result.mapError .refused)

def collection (client : Client) (server : Server) (query : Query) (session : Session) :
    Session × Except Fault (List Record) :=
  match client.prepare query session with
  | (session, .error fault) => (session, .error fault)
  | (session, .ok request) =>
    let sent := session.sent ++ [{ request, org := client.org }]
    match server sent with
    | .error message => ({ session with sent }, .error (.failed message))
    | .ok records =>
      let event := Event.executed query.entity records.length
      ({ sent, events := session.events ++ [event] }, .ok records)

/-- The only record, or nothing if there is none and `orNone` allows it. -/
def only (orNone : Bool) : List Record → Except Fault (Option Record)
  | [] => if orNone then .ok none else .error .noElements
  | [record] => .ok (some record)
  | _ => .error .moreThanOneElement

def single (client : Client) (server : Server) (query : Query) (orNone : Bool)
    (session : Session) : Session × Except Fault (Option Record) :=
  let (session, result) := client.collection server query session
  (session, result.bind (only orNone))

def scalar (client : Client) (server : Server) (query : Query) (session : Session) :
    Session × Except Fault Record :=
  let (session, result) := client.single server query false session
  (session, result.bind fun
    | some record => .ok record
    | none => .error .noElements)

end Client

end EntityFlux
