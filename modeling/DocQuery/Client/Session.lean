import DocQuery.Client.Query

/-!
# Sessions of calls on a query

A caller works a query through a sequence of calls: subscribing and unsubscribing, fetching all
rows or the first one, counting, and laying parameters over the query's own or over a fresh
copy. Fetches and counts take an optional callback, handed the outcome just before it is
returned; a callback acts on the caller's own state. Fetching the first row fetches with no
callback and hands the first row alone to its own. A session threads the query, the channel and
the caller's state through the calls, and keeps what each call returned.
-/

namespace DocQuery

namespace Query

/-- Hands an outcome to the callback, if one was given, and returns it. -/
def notify {σ α : Type} (callback : Option (Except Error α → σ → σ)) (res : Except Error α)
    (client : σ) : σ × Except Error α :=
  match callback with
  | some f => (f res client, res)
  | none => (client, res)

/-- A call a caller makes on a query. -/
inductive Call (σ : Type) where
  | subscribe
  | unsubscribe
  | fetch (allowSkip : Bool) (overlay : Option Params)
      (callback : Option (Except Error (List Document) → σ → σ))
  | fetchOne (allowSkip : Bool) (overlay : Option Params)
      (callback : Option (Except Error (Option Document) → σ → σ))
  | getCount (callback : Option (Except Error Nat → σ → σ))
  | setParams (p : Params)
  | cloneWithParams (p : Params)

/-- What a call returns; an unsubscribe tells whether it released a handle. -/
inductive Reply where
  | subscribed (res : Except Error Handle)
  | unsubscribed (released : Bool)
  | rows (res : Except Error (List Document))
  | row (res : Except Error (Option Document))
  | count (res : Except Error Nat)
  | paramsSet
  | cloned (copy : Query)

end Query

/-- A query worked by a caller over a channel, with the caller's own state. -/
structure Session (σ : Type) where
  query : Query
  channel : Channel
  client : σ

namespace Session

variable {σ : Type}

/-- Fetches the query's rows and hands them to the callback. -/
def fetch (eng : Engine) (read : Reader) (s : Session σ) (allowSkip : Bool)
    (overlay : Option Params) (callback : Option (Except Error (List Document) → σ → σ)) :
    Session σ × List FindRequest × Except Error (List Document) :=
  let (ch, finds, res) := s.query.fetch eng read s.channel allowSkip overlay
  let (client, res) := Query.notify callback res s.client
  ({ s with channel := ch, client }, finds, res)

/-- Fetches the rows with no callback and hands the first one to the callback. -/
def fetchOne (eng : Engine) (read : Reader) (s : Session σ) (allowSkip : Bool)
    (overlay : Option Params) (callback : Option (Except Error (Option Document) → σ → σ)) :
    Session σ × List FindRequest × Except Error (Option Document) :=
  let (s, finds, rows) := s.fetch eng read allowSkip overlay none
  let (client, res) := Query.notify callback (rows.map (·.head?)) s.client
  ({ s with client }, finds, res)

/-- Counts with the remote count method and hands the count to the callback. -/
def getCount (eng : Engine) (s : Session σ) (callback : Option (Except Error Nat → σ → σ)) :
    Session σ × Except Error Nat :=
  let (ch, res) := s.query.count eng s.channel
  let (client, res) := Query.notify callback res s.client
  ({ s with channel := ch, client }, res)

/-- One call: the session after it, the store reads it issued and what it returned. -/
def step (eng : Engine) (read : Reader) (s : Session σ) :
    Query.Call σ → Session σ × List FindRequest × Query.Reply
  | .subscribe =>
    match s.query.subscribe s.channel with
    | .ok (q, ch, h) => ({ s with query := q, channel := ch }, [], .subscribed (.ok h))
    | .error e => (s, [], .subscribed (.error e))
  | .unsubscribe =>
    let (q, ch) := s.query.unsubscribe s.channel
    ({ s with query := q, channel := ch }, [], .unsubscribed s.query.isSubscribed)
  | .fetch allowSkip overlay callback =>
    let (s, finds, res) := s.fetch eng read allowSkip overlay callback
    (s, finds, .rows res)
  | .fetchOne allowSkip overlay callback =>
    let (s, finds, res) := s.fetchOne eng read allowSkip overlay callback
    (s, finds, .row res)
  | .getCount callback =>
    let (s, res) := s.getCount eng callback
    (s, [], .count res)
  | .setParams p => ({ s with query := s.query.setParams p }, [], .paramsSet)
  | .cloneWithParams p => (s, [], .cloned (s.query.cloneWithParams p))

/-- A sequence of calls: the session after them and what each returned, in order. -/
def run (eng : Engine) (read : Reader) (s : Session σ) :
    List (Query.Call σ) → Session σ × List Query.Reply
  | [] => (s, [])
  | c :: calls =>
    let (s, _, r) := s.step eng read c
    let (s, log) := s.run eng read calls
    (s, r :: log)

end Session

end DocQuery
