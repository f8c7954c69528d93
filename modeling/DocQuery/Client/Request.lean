import DocQuery.Query.Resolve
import DocQuery.Graph.Fetch
import DocQuery.Remote.Channel

/-!
# Resolving a request

A request is resolved in one of two ways. Without a live subscription it goes to the remote
side in one call: a named query sends only its parameters, an ad-hoc query its resolved body,
and the reply must be an array of documents. With one, the local store already holds the
subscribed window, so the body is resolved, compiled and fetched locally. The root skip is
then dropped unless the caller allows it, since the remote side did not offset the window.
-/

namespace DocQuery

/-- Whether the remote side knows a query by name or receives its body. -/
inductive QueryKind where
  | adHoc
  | named
  deriving DecidableEq, Repr

/-- The fixed settings of a client: its link registry and configuration. -/
structure Engine where
  links : Links := {}
  config : Config := {}
  deriving Repr, Inhabited

/-- Everything one resolution needs to know. -/
structure Request where
  name : String
  collection : String
  body : QueryBody
  params : Params
  kind : QueryKind
  allowSkip : Bool

namespace Request

/-- The arguments sent to the remote side: the parameters of a named query, the resolved
body of an ad-hoc one. -/
def payload (r : Request) : Except Error Json :=
  match r.kind with
  | .named => .ok r.params.toJson
  | .adHoc => (r.body.resolve r.params).map ConcreteBody.toJson

/-- The rows of a reply: it must be an array of objects. -/
def decodeRows (reply : Json) : Except Error (List Document) :=
  match reply with
  | .arr items => items.mapM fun item =>
    match item with
    | .obj doc => .ok doc
    | other => .error (.decode ("expected a document, got " ++ other.compact))
  | other => .error (.decode ("expected an array of documents, got " ++ other.compact))

/-- The count of a reply: a nonnegative integer. -/
def decodeCount (reply : Json) : Except Error Nat :=
  match reply with
  | .num n =>
    match n.toWord? with
    | some k => .ok k
    | none => .error (.decode ("expected a count, got " ++ reply.compact))
  | _ => .error (.decode ("expected a count, got " ++ reply.compact))

/-- Calls a remote method, its failure becoming a remote error. -/
def callRemote (ch : Channel) (method : String) (args : Json) : Channel × Except Error Json :=
  let (ch, res) := ch.call method args
  (ch, res.mapError .remote)

/-- Resolution in one remote call; a payload that cannot be made makes no call. -/
def resolveOnce (r : Request) (ch : Channel) : Channel × Except Error (List Document) :=
  match r.payload with
  | .error e => (ch, .error e)
  | .ok args =>
    let (ch, reply) := callRemote ch r.name args
    (ch, reply.bind decodeRows)

/-- Resolution against the local store: resolve, drop the root skip unless allowed, compile
and fetch. Returns the store reads issued. -/
def resolveLocally (r : Request) (eng : Engine) (read : Reader) :
    List FindRequest × Except Error (List Document) :=
  match r.body.resolve r.params with
  | .error e => ([], .error e)
  | .ok body =>
    match (body.applySkipPolicy r.allowSkip).compile r.collection eng.links eng.config with
    | .error e => ([], .error e)
    | .ok root => root.fetch read eng.config.oneToOne

end Request

namespace Engine

/-- Resolves a body against the local store, the root skip honoured. -/
def resolve (eng : Engine) (read : Reader) (collection : String) (body : QueryBody)
    (params : Params) : List FindRequest × Except Error (List Document) :=
  Request.resolveLocally ⟨collection, collection, body, params, .adHoc, true⟩ eng read

end Engine

end DocQuery
