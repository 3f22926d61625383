import EntityFlux.Execution

/-!
# Conversations with a server

A client makes one call after another, and the server answers each request in view of all that came
before it. What the server is sent is read off the calls (`conversation_sent`): one request for each
call that is executed and can be lowered. What comes back is said by rules (`Answers`), one for each
way in which a call can end, and these are all the ways there are.
-/

namespace EntityFlux

open Flux

namespace Client

inductive Call where
  | prepare (query : Query)
  | collection (query : Query)
  | single (query : Query) (orNone : Bool)
  | scalar (query : Query)

/-- What comes back from a call; `absent` is a record that is missing and may be. -/
inductive Answer where
  | fault (fault : Fault)
  | request (request : Request)
  | records (records : List Record)
  | record (record : Record)
  | absent

namespace Answer

def ofExcept {α : Type} (answer : α → Answer) : Except Fault α → Answer
  | .ok a => answer a
  | .error f => .fault f

def ofRecord? : Option Record → Answer
  | some found => .record found
  | none => .absent

end Answer

def Call.run (client : Client) (server : Server) : Call → Session → Session × Answer
  | .prepare query, session => (client.prepare query session).map id (.ofExcept .request)
  | .collection query, session =>
    (client.collection server query session).map id (.ofExcept .records)
  | .single query orNone, session =>
    (client.single server query orNone session).map id (.ofExcept .ofRecord?)
  | .scalar query, session => (client.scalar server query session).map id (.ofExcept .record)

/-- Calls one after another: what has been sent and noted in the end, and what came back from
each. -/
def conversation (client : Client) (server : Server) : List Call → Session → Session × List Answer
  | [], session => (session, [])
  | call :: calls, session =>
    let (session, answer) := call.run client server session
    let (session, answers) := conversation client server calls session
    (session, answer :: answers)

def Call.query : Call → Query
  | .prepare query => query
  | .collection query => query
  | .single query _ => query
  | .scalar query => query

def Call.executes : Call → Bool
  | .prepare _ => false
  | _ => true

/-- What becomes of a query on its way to the server. -/
def lowered (client : Client) (query : Query) : Except Refusal Request :=
  (query.lower client.settings client.registry client.bucket).2

/-- What a call sends. -/
def sends? (client : Client) (call : Call) : Option Sent :=
  if call.executes then
    (client.lowered call.query).toOption.map fun request => { request, org := client.org }
  else none

/-- What the server says to a call behind `history`, if it is asked at all. -/
def reply? (client : Client) (server : Server) (history : List Sent) (call : Call) :
    Option (Except String (List Record)) :=
  (client.sends? call).map fun sent => server (history ++ [sent])

/-- How a call can end when `history` has been sent before it. -/
inductive Answers (client : Client) (server : Server) (history : List Sent) :
    Call → Answer → Prop
  | refused {call refusal} : client.lowered call.query = .error refusal →
      Answers client server history call (.fault (.refused refusal))
  | prepared {query request} : client.lowered query = .ok request →
      Answers client server history (.prepare query) (.request request)
  | failed {call message} : client.reply? server history call = some (.error message) →
      Answers client server history call (.fault (.failed message))
  | records {query records} :
      client.reply? server history (.collection query) = some (.ok records) →
      Answers client server history (.collection query) (.records records)
  | only {query orNone record} :
      client.reply? server history (.single query orNone) = some (.ok [record]) →
      Answers client server history (.single query orNone) (.record record)
  | several {query orNone records} :
      client.reply? server history (.single query orNone) = some (.ok records) →
      2 ≤ records.length →
      Answers client server history (.single query orNone) (.fault .moreThanOneElement)
  | absent {query} : client.reply? server history (.single query true) = some (.ok []) →
      Answers client server history (.single query true) .absent
  | missing {query} : client.reply? server history (.single query false) = some (.ok []) →
      Answers client server history (.single query false) (.fault .noElements)
  | scalar {query answer} : Answers client server history (.single query false) answer →
      Answers client server history (.scalar query) answer

section Calls

variable {client : Client} {server : Server} {query : Query} {session : Session}
  {refusal : Refusal} {request : Request}

theorem prepare_sent : (client.prepare query session).1.sent = session.sent := rfl

theorem prepare_result :
    (client.prepare query session).2 = (client.lowered query).mapError .refused := rfl

theorem collection_of_error (h : client.lowered query = .error refusal) :
    (client.collection server query session).1.sent = session.sent
      ∧ (client.collection server query session).2 = .error (.refused refusal) := by
  have hp : client.prepare query session
      = ((client.prepare query session).1, .error (.refused refusal)) := by
    refine Prod.ext rfl ?_
    rw [prepare_result, h]
    rfl
  unfold collection
  rw [hp]
  exact ⟨rfl, rfl⟩

theorem collection_of_ok (h : client.lowered query = .ok request) :
    (client.collection server query session).1.sent
        = session.sent ++ [{ request, org := client.org }]
      ∧ (client.collection server query session).2
        = (server (session.sent ++ [{ request, org := client.org }])).mapError .failed := by
  have hp : client.prepare query session = ((client.prepare query session).1, .ok request) := by
    refine Prod.ext rfl ?_
    rw [prepare_result, h]
    rfl
  unfold collection
  rw [hp]
  simp only [prepare_sent]
  cases server (session.sent ++ [{ request, org := client.org }]) with
  | error message => exact ⟨rfl, rfl⟩
  | ok records => exact ⟨rfl, rfl⟩

/-- A record that has to be there is what comes back where it may be absent and is not. -/
theorem single_eq_scalar :
    client.single server query false session
      = (client.scalar server query session).map id (Except.map some) := by
  refine Prod.ext rfl ?_
  simp only [single, scalar, Prod.map_snd]
  cases (client.collection server query session).2 with
  | error f => rfl
  | ok records =>
    match records with
    | [] => rfl
    | [_] => rfl
    | _ :: _ :: _ => rfl

/-- What a call sends, it sends behind what was sent before; nothing else changes there. -/
theorem Call.run_sent (call : Call) :
    (call.run client server session).1.sent = session.sent ++ (client.sends? call).toList := by
  have hexecuted : ∀ query, (client.collection server query session).1.sent
      = session.sent ++ ((client.lowered query).toOption.map
        fun request => { request, org := client.org : Sent }).toList := by
    intro query
    rcases hl : client.lowered query with refusal | request
    · rw [(collection_of_error hl).1]
      exact (List.append_nil _).symm
    · rw [(collection_of_ok hl).1]
      rfl
  cases call with
  | prepare query => exact (List.append_nil _).symm
  | collection query => exact hexecuted query
  | single query orNone => exact hexecuted query
  | scalar query => exact hexecuted query

variable (client server session) in
/-- An executed query is refused, or the server fails, or the server's records come back. -/
theorem collection_cases (call : Call) (hcall : call.executes) :
    (∃ refusal, client.lowered call.query = .error refusal
        ∧ (client.collection server call.query session).2 = .error (.refused refusal))
      ∨ (∃ message, client.reply? server session.sent call = some (.error message)
        ∧ (client.collection server call.query session).2 = .error (.failed message))
      ∨ ∃ records, client.reply? server session.sent call = some (.ok records)
        ∧ (client.collection server call.query session).2 = .ok records := by
  rcases hl : client.lowered call.query with refusal | request
  · exact .inl ⟨refusal, rfl, (collection_of_error hl).2⟩
  · have hreply : client.reply? server session.sent call
        = some (server (session.sent ++ [{ request, org := client.org }])) := by
      simp [reply?, sends?, hcall, hl, Except.toOption]
    have hresult : (client.collection server call.query session).2
        = (server (session.sent ++ [{ request, org := client.org }])).mapError .failed :=
      (collection_of_ok hl).2
    rcases hs : server (session.sent ++ [{ request, org := client.org }]) with message | records
    · rw [hs] at hreply hresult
      exact .inr (.inl ⟨message, hreply, hresult⟩)
    · rw [hs] at hreply hresult
      exact .inr (.inr ⟨records, hreply, hresult⟩)

theorem Call.run_scalar :
    (Call.scalar query).run client server session
      = (Call.single query false).run client server session := by
  simp only [Call.run, single_eq_scalar, Prod.map_map, Function.id_comp]
  refine congrArg (fun answer => Prod.map id answer _) (funext fun result => ?_)
  cases result <;> rfl

theorem Call.answers_single (orNone : Bool) :
    Answers client server session.sent (.single query orNone)
      ((Call.single query orNone).run client server session).2 := by
  have hanswer : ((Call.single query orNone).run client server session).2
      = .ofExcept .ofRecord? ((client.collection server query session).2.bind (only orNone)) := rfl
  rw [hanswer]
  obtain ⟨refusal, hl, hc⟩ | ⟨message, hreply, hc⟩ | ⟨records, hreply, hc⟩ :=
    collection_cases client server session (.single query orNone) rfl
  · rw [show (client.collection server query session).2 = _ from hc]
    exact .refused hl
  · rw [show (client.collection server query session).2 = _ from hc]
    exact .failed hreply
  · rw [show (client.collection server query session).2 = _ from hc]
    match records, orNone with
    | [], false => exact .missing hreply
    | [], true => exact .absent hreply
    | [_], _ => exact .only hreply
    | _ :: _ :: _, _ => exact .several hreply (by simp)

/-- A call ends as the rules say. -/
theorem Call.answers_run (call : Call) :
    Answers client server session.sent call (call.run client server session).2 := by
  cases call with
  | prepare query =>
    simp only [Call.run, Prod.map_snd, prepare_result]
    rcases hl : client.lowered query with refusal | request
    · exact .refused hl
    · exact .prepared hl
  | collection query =>
    have hanswer : ((Call.collection query).run client server session).2
        = .ofExcept .records (client.collection server query session).2 := rfl
    rw [hanswer]
    obtain ⟨refusal, hl, hc⟩ | ⟨message, hreply, hc⟩ | ⟨records, hreply, hc⟩ :=
      collection_cases client server session (.collection query) rfl
    · rw [show (client.collection server query session).2 = _ from hc]
      exact .refused hl
    · rw [show (client.collection server query session).2 = _ from hc]
      exact .failed hreply
    · rw [show (client.collection server query session).2 = _ from hc]
      exact .records hreply
  | single query orNone => exact Call.answers_single orNone
  | scalar query =>
    rw [Call.run_scalar]
    exact .scalar (Call.answers_single false)

theorem reply?_of_error {history : List Sent} {call : Call}
    (h : client.lowered call.query = .error refusal) :
    client.reply? server history call = none := by
  simp [reply?, sends?, h, Except.toOption]

theorem reply?_prepare (history : List Sent) :
    client.reply? server history (.prepare query) = none := rfl

/-- The rules leave no choice. -/
theorem Answers.unique {history : List Sent} {call : Call} {answer other : Answer}
    (h : Answers client server history call answer)
    (h' : Answers client server history call other) : answer = other := by
  induction h with
  | refused hl =>
    have hreply : client.reply? server history _ = none := reply?_of_error hl
    induction h' with
    | scalar _ ih => exact ih hl hreply
    | refused hl' => simp_all
    | prepared hl' => simp_all [Call.query]
    | _ => simp_all
  | failed hf =>
    induction h' with
    | scalar _ ih => exact ih hf
    | refused hl' => simp [reply?_of_error hl'] at hf
    | prepared hl' => simp [reply?_prepare] at hf
    | _ => simp_all
  | scalar _ ih =>
    cases h' with
    | refused hl => exact ih (.refused hl)
    | failed hf => exact ih (.failed hf)
    | scalar hs => exact ih hs
  | prepared hl =>
    cases h' with
    | refused hl' => simp_all [Call.query]
    | prepared hl' => simp_all
    | failed hf => simp [reply?_prepare] at hf
  | records hr =>
    cases h' with
    | refused hl' => simp [reply?_of_error hl'] at hr
    | _ => simp_all
  | only hr =>
    cases h' with
    | refused hl' => simp [reply?_of_error hl'] at hr
    | several hr' hlen =>
      obtain rfl : [_] = _ := by simpa [hr] using hr'
      simp at hlen
    | _ => simp_all
  | several hr hlen =>
    cases h' with
    | refused hl' => simp [reply?_of_error hl'] at hr
    | only hr' =>
      obtain rfl : [_] = _ := by simpa [hr'] using hr
      simp at hlen
    | _ => simp_all
  | absent hr =>
    cases h' with
    | refused hl' => simp [reply?_of_error hl'] at hr
    | _ => simp_all
  | missing hr =>
    cases h' with
    | refused hl' => simp [reply?_of_error hl'] at hr
    | _ => simp_all

theorem Answers.ne_absent {history : List Sent} {answer : Answer}
    (h : Answers client server history (.scalar query) answer) : answer ≠ .absent := by
  cases h with
  | refused _ => simp
  | failed _ => simp
  | scalar hs => cases hs <;> simp

end Calls

section Conversations

variable (client : Client) (server : Server)

theorem conversation_sent (calls : List Call) (start : Session) :
    (conversation client server calls start).1.sent
      = start.sent ++ calls.filterMap client.sends? := by
  induction calls generalizing start with
  | nil => exact (List.append_nil _).symm
  | cons call calls ih =>
    simp only [conversation]
    rw [ih, Call.run_sent, List.append_assoc]
    cases hs : client.sends? call <;> simp [hs]

/-- Each call ends as the rules say, behind what the calls before it have sent. -/
theorem conversation_answers (calls : List Call) (start : Session) (i : Nat) (answer : Answer) :
    (conversation client server calls start).2[i]? = some answer
      ↔ ∃ call, calls[i]? = some call
        ∧ Answers client server (start.sent ++ (calls.take i).filterMap client.sends?) call
          answer := by
  induction calls generalizing start i with
  | nil => simp [conversation]
  | cons call calls ih =>
    simp only [conversation]
    cases i with
    | zero =>
      simp only [List.getElem?_cons_zero, Option.some.injEq, List.take_zero, List.filterMap_nil,
        List.append_nil, exists_eq_left']
      have hrun : Answers client server start.sent call (call.run client server start).2 :=
        Call.answers_run call
      exact ⟨fun h => h ▸ hrun, fun h => hrun.unique h⟩
    | succ i =>
      have hsent : (call.run client server start).1.sent ++ (calls.take i).filterMap client.sends?
          = start.sent ++ ((call :: calls).take (i + 1)).filterMap client.sends? := by
        rw [Call.run_sent, List.append_assoc, List.take_succ_cons]
        cases hs : client.sends? call <;> simp [hs]
      simp only [List.getElem?_cons_succ]
      rw [ih, hsent]

/-- The server is sent one request, in the name of the client's organisation, for each call that is
executed and whose query can be lowered: in the order of the calls, and nothing else. Every call
ends as the rules say, the server's reply being the one it gives behind the requests of the calls
before. Where a record has to be there, it comes back as it does where it may be absent, and is
never absent. -/
theorem conversation_follows_rules (calls : List Call) (start : Session) :
    (conversation client server calls start).1.sent
        = start.sent ++ calls.filterMap client.sends?
      ∧ (∀ (i : Nat) (answer : Answer),
        (conversation client server calls start).2[i]? = some answer
        ↔ ∃ call, calls[i]? = some call
          ∧ Answers client server (start.sent ++ (calls.take i).filterMap client.sends?) call
            answer)
      ∧ (∀ (i : Nat) (query : Query), calls[i]? = some (.scalar query) →
        (conversation client server calls start).2[i]? ≠ some .absent)
      ∧ ∀ query session, client.single server query false session
        = (client.scalar server query session).map id (Except.map some) := by
  refine ⟨conversation_sent client server calls start,
    conversation_answers client server calls start, ?_, fun _ _ => single_eq_scalar⟩
  intro i query hi habsent
  obtain ⟨call, hcall, h⟩ := (conversation_answers client server calls start i .absent).1 habsent
  obtain rfl := Option.some.inj (hi.symm.trans hcall)
  exact h.ne_absent rfl

end Conversations

/-! A server that has no records and fails once, and a client that asks it in every way. -/

def sampleClient : Client where
  bucket := "b"
  org := "o"
  registry := [("Sensor", { name := "Sensor" })]

def sampleServer : Server := fun sent => if sent.length = 2 then .error "down" else .ok []

def sampleCalls : List Call :=
  [.prepare { entity := "Sensor" }, .single { entity := "Sensor" } true,
   .scalar { entity := "Pump" }, .scalar { entity := "Sensor" }, .collection { entity := "Sensor" }]

theorem conversation_follows_rules_sample :
    (conversation sampleClient sampleServer sampleCalls {}).1.sent.length = 3
      ∧ (conversation sampleClient sampleServer sampleCalls {}).2[1]? = some .absent
      ∧ (conversation sampleClient sampleServer sampleCalls {}).2[2]?
        = some (.fault (.refused (.unknownEntity "Pump")))
      ∧ (conversation sampleClient sampleServer sampleCalls {}).2[3]?
        = some (.fault (.failed "down"))
      ∧ (conversation sampleClient sampleServer sampleCalls {}).2[3]? ≠ some .absent := by
  obtain ⟨hsent, hanswers, hscalar, -⟩ :=
    conversation_follows_rules sampleClient sampleServer sampleCalls {}
  refine ⟨?_, ?_, ?_, ?_, hscalar 3 _ rfl⟩
  · rw [hsent]
    rfl
  · exact (hanswers 1 _).2 ⟨_, rfl, .absent rfl⟩
  · exact (hanswers 2 _).2 ⟨_, rfl, .refused rfl⟩
  · exact (hanswers 3 _).2 ⟨_, rfl, .failed rfl⟩

end Client

end EntityFlux
