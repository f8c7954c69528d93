import DocQuery.Error
import DocQuery.Keyed

/-!
# The in-memory remote side

Methods are registered by name, each answering a fixed value, failing with a fixed remote
error, echoing its arguments, or answering through a handler of its arguments. Every call is recorded before it is answered; calling a
method that is not registered fails with the code `404`. Subscriptions are recorded in the
order they are opened and stay recorded after they are stopped.
-/

namespace DocQuery

/-- How a registered method answers. -/
inductive MethodSpec where
  | reply (v : Json)
  | fail (e : RemoteError)
  | echo
  | handle (f : Json → Except RemoteError Json)

/-- An opened subscription. -/
structure Subscription where
  name : String
  args : Json
  stopped : Bool := false
  deriving Repr

/-- The remote side: its methods, the calls made to it and the subscriptions opened on it. -/
structure Channel where
  methods : List (String × MethodSpec) := []
  calls : List (String × Json) := []
  subscriptions : List Subscription := []
  deriving Inhabited

namespace Channel

/-- The channel with a method registered, replacing one of the same name. -/
def register (ch : Channel) (name : String) (spec : MethodSpec) : Channel :=
  { ch with methods := Keyed.insert name spec ch.methods }

/-- The error of calling a method that is not registered. -/
def notFound (method : String) : RemoteError :=
  { error := "404", reason := some ("Method '" ++ method ++ "' not found") }

/-- Calls a method: the call is recorded, then answered. -/
def call (ch : Channel) (method : String) (args : Json) : Channel × Except RemoteError Json :=
  let ch := { ch with calls := ch.calls ++ [(method, args)] }
  match (Keyed.get? ch.methods method : Option MethodSpec) with
  | some (.reply v) => (ch, .ok v)
  | some (.fail e) => (ch, .error e)
  | some .echo => (ch, .ok args)
  | some (.handle f) => (ch, f args)
  | none => (ch, .error (notFound method))

/-- Opens a subscription; returns its position among all subscriptions. -/
def subscribe (ch : Channel) (name : String) (args : Json) : Channel × Nat :=
  ({ ch with subscriptions := ch.subscriptions ++ [{ name, args }] }, ch.subscriptions.length)

/-- Stops the subscription at a position. -/
def stop (ch : Channel) (i : Nat) : Channel :=
  { ch with subscriptions := ch.subscriptions.modify i fun s => { s with stopped := true } }

/-- The subscription at a position is not stopped. -/
def isReady (ch : Channel) (i : Nat) : Bool :=
  match ch.subscriptions[i]? with
  | some s => !s.stopped
  | none => false

/-- The number of subscriptions not stopped. -/
def activeCount (ch : Channel) : Nat := (ch.subscriptions.filter (!·.stopped)).length

end Channel

end DocQuery
