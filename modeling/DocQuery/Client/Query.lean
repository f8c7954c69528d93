import DocQuery.Client.Request
import DocQuery.Hash.Blake3

/-!
# Client queries

A query is a name, a collection, a body and its own parameters. Subscribing sends the query's
payload to the remote side and keeps a handle whose key is the BLAKE3 hash of the name, a zero
byte and the payload's compact JSON text. While a handle is held, even a stopped one, fetching
resolves against the local store; otherwise it makes one remote call. Counting always calls
the remote count method with the query's own parameters.
-/

namespace DocQuery

/-- A held subscription: its key, and its position among the channel's subscriptions. -/
structure Handle where
  key : String
  position : Nat
  deriving Repr

/-- A query of a client. -/
structure Query where
  name : String
  collection : String
  body : QueryBody
  params : Params := {}
  kind : QueryKind
  subscription : Option Handle := none

namespace Engine

/-- An ad-hoc query, named after its collection. -/
def createQuery (collection : String) (body : QueryBody) : Query :=
  { name := collection, collection, body, kind := .adHoc }

/-- A query the remote side knows by name. -/
def createNamedQuery (name collection : String) (body : QueryBody) : Query :=
  { name, collection, body, kind := .named }

end Engine

namespace Query

/-- The bytes a subscription key hashes: the name's UTF-8 bytes, a zero byte and the compact
JSON text of the arguments. -/
def keyBytes (name : String) (args : Json) : List UInt8 :=
  name.toUTF8.toList ++ [0] ++ args.compact.toUTF8.toList

/-- The key of a subscription: the BLAKE3 hash of its `keyBytes`, in hex. -/
def subscriptionKey (name : String) (args : Json) : String :=
  Blake3.hashHex (keyBytes name args)

/-- The query holds a subscription. -/
def isSubscribed (q : Query) : Bool := q.subscription.isSome

/-- The query is named. -/
def isNamed (q : Query) : Bool := q.kind == .named

/-- The query with parameters laid over its own. -/
def setParams (q : Query) (p : Params) : Query := { q with params := q.params.merge p }

/-- A copy with parameters laid over its own and no subscription. -/
def cloneWithParams (q : Query) (p : Params) : Query :=
  { q with params := q.params.merge p, subscription := none }

/-- The request of the query under parameters. -/
def request (q : Query) (params : Params) (allowSkip : Bool) : Request :=
  ⟨q.name, q.collection, q.body, params, q.kind, allowSkip⟩

/-- Subscribes with the query's payload; a held handle is replaced without being stopped. -/
def subscribe (q : Query) (ch : Channel) : Except Error (Query × Channel × Handle) :=
  match (q.request q.params false).payload with
  | .error e => .error e
  | .ok args =>
    let (ch, position) := ch.subscribe q.name args
    let handle : Handle := ⟨subscriptionKey q.name args, position⟩
    .ok ({ q with subscription := some handle }, ch, handle)

/-- Stops and drops the held handle, if any. -/
def unsubscribe (q : Query) (ch : Channel) : Query × Channel :=
  match q.subscription with
  | some h => ({ q with subscription := none }, ch.stop h.position)
  | none => (q, ch)

/-- Stops the held handle's subscription, if any, and keeps holding the handle. -/
def stop (q : Query) (ch : Channel) : Channel :=
  match q.subscription with
  | some h => ch.stop h.position
  | none => ch

/-- Whether the held handle's subscription is live; `none` without a handle. -/
def isReady? (q : Query) (ch : Channel) : Option Bool :=
  q.subscription.map fun h => ch.isReady h.position

/-- Fetches the query's rows with parameters laid over its own: locally while a handle is
held, otherwise in one remote call. Returns the channel, the store reads and the outcome. -/
def fetch (q : Query) (eng : Engine) (read : Reader) (ch : Channel) (allowSkip : Bool)
    (overlay : Option Params) : Channel × List FindRequest × Except Error (List Document) :=
  let params := match overlay with
    | some p => q.params.merge p
    | none => q.params
  let r := q.request params allowSkip
  match q.subscription with
  | some _ =>
    let (reads, res) := r.resolveLocally eng read
    (ch, reads, res)
  | none =>
    let (ch, res) := r.resolveOnce ch
    (ch, [], res)

/-- The first row of a fetch, or `none` when there is none. -/
def fetchOne (q : Query) (eng : Engine) (read : Reader) (ch : Channel) (allowSkip : Bool)
    (overlay : Option Params) : Channel × List FindRequest × Except Error (Option Document) :=
  let (ch, reads, res) := q.fetch eng read ch allowSkip overlay
  (ch, reads, res.map (·.head?))

/-- The count from the remote count method, called with the query's payload. -/
def count (q : Query) (eng : Engine) (ch : Channel) : Channel × Except Error Nat :=
  match (q.request q.params false).payload with
  | .error e => (ch, .error e)
  | .ok args =>
    let (ch, reply) := Request.callRemote ch (eng.config.countMethod q.name) args
    (ch, reply.bind Request.decodeCount)

end Query

end DocQuery
