import DocQuery.Client.Session

/-!
# Sessions: where each call goes, and which handle is held

A session works one query over a channel through a sequence of calls (`Session.run`). With a
handle held, a fetch reads the local store; without one, it calls the query's name once with
the request's payload (`Request.Routed`). What one call does to the held handle and to the
channel's subscriptions is said once (`Session.step_cases`); the run theorem follows from it.
-/

namespace DocQuery

/-! ## The channel -/

namespace Channel

@[simp] theorem call_fst (ch : Channel) (method : String) (args : Json) :
    (ch.call method args).1 = { ch with calls := ch.calls ++ [(method, args)] } := by
  unfold call
  dsimp only
  split <;> rfl

theorem activeCount_subscribe (ch : Channel) (name : String) (args : Json) :
    (ch.subscribe name args).1.activeCount = ch.activeCount + 1 := by
  simp [subscribe, activeCount]

theorem isReady_subscribe_position (ch : Channel) (name : String) (args : Json) :
    (ch.subscribe name args).1.isReady (ch.subscribe name args).2 = true := by
  simp [subscribe, isReady]

/-- Stopping a live subscription leaves one fewer live. -/
theorem activeCount_stop {ch : Channel} {i : Nat} (h : ch.isReady i = true) :
    (ch.stop i).activeCount + 1 = ch.activeCount := by
  obtain ⟨methods, calls, subs⟩ := ch
  simp only [stop, activeCount, isReady] at h ⊢
  induction subs generalizing i with
  | nil => simp at h
  | cons sub rest ih =>
    cases i with
    | zero =>
      simp only [List.getElem?_cons_zero, Bool.not_eq_eq_eq_not, Bool.not_true] at h
      simp [h]
    | succ i =>
      simp only [List.getElem?_cons_succ] at h
      have hrest := ih h
      cases hstopped : sub.stopped <;> simp [hstopped] <;> omega

/-- The channel after at most one call of a method: with a payload, that call recorded with the
payload as its arguments and nothing else changed; without one, the channel as it was and the
payload's error as the outcome. -/
def CallsOnce {α : Type} (ch ch' : Channel) (method : String) (payload : Except Error Json)
    (res : Except Error α) : Prop :=
  match payload with
  | .ok args => ch' = { ch with calls := ch.calls ++ [(method, args)] }
  | .error e => ch' = ch ∧ res = .error e

theorem CallsOnce.subscriptions_eq {α : Type} {ch ch' : Channel} {method : String}
    {payload : Except Error Json} {res : Except Error α}
    (h : ch.CallsOnce ch' method payload res) : ch'.subscriptions = ch.subscriptions := by
  unfold CallsOnce at h
  split at h
  · rw [h]
  · rw [h.1]

end Channel

/-! ## Where a fetch and a count go -/

namespace Request

theorem resolveOnce_callsOnce (r : Request) (ch : Channel) :
    ch.CallsOnce (r.resolveOnce ch).1 r.name r.payload (r.resolveOnce ch).2 := by
  rcases hp : r.payload with e | args <;> simp [resolveOnce, hp, Channel.CallsOnce, callRemote]

/-- Where a fetch of the request goes: with a handle held, to the local store, read as a local
resolution reads it, with the channel left alone; without one, to the remote side, with nothing
read from the store and at most one call of the request's name. -/
def Routed (r : Request) (eng : Engine) (read : Reader) (held : Bool) (ch ch' : Channel)
    (finds : List FindRequest) (res : Except Error (List Document)) : Prop :=
  if held then ch' = ch ∧ r.resolveLocally eng read = (finds, res)
  else finds = [] ∧ ch.CallsOnce ch' r.name r.payload res

theorem Routed.subscriptions_eq {r : Request} {eng : Engine} {read : Reader} {held : Bool}
    {ch ch' : Channel} {finds : List FindRequest} {res : Except Error (List Document)}
    (h : r.Routed eng read held ch ch' finds res) : ch'.subscriptions = ch.subscriptions := by
  unfold Routed at h
  split at h
  · rw [h.1]
  · exact h.2.subscriptions_eq

end Request

namespace Query

/-- The parameters of a fetch: the overlay, if one is given, laid over the query's own. -/
def fetchParams (q : Query) (overlay : Option Params) : Params :=
  overlay.elim q.params q.params.merge

theorem fetch_routed (q : Query) (eng : Engine) (read : Reader) (ch : Channel)
    (allowSkip : Bool) (overlay : Option Params) :
    (q.request (q.fetchParams overlay) allowSkip).Routed eng read q.isSubscribed ch
      (q.fetch eng read ch allowSkip overlay).1 (q.fetch eng read ch allowSkip overlay).2.1
      (q.fetch eng read ch allowSkip overlay).2.2 := by
  rcases hq : q.subscription with _ | h <;> cases overlay <;>
    simp [fetch, hq, fetchParams, isSubscribed, Request.Routed, Request.resolveOnce_callsOnce]

theorem count_callsOnce (q : Query) (eng : Engine) (ch : Channel) :
    ch.CallsOnce (q.count eng ch).1 (q.name ++ eng.config.countSuffix)
      (q.request q.params false).payload (q.count eng ch).2 := by
  rcases hp : (q.request q.params false).payload with e | args <;>
    simp [count, hp, Channel.CallsOnce, Request.callRemote, Config.countMethod]

@[simp] theorem notify_eq {σ α : Type} (callback : Option (Except Error α → σ → σ))
    (res : Except Error α) (client : σ) :
    notify callback res client = (callback.elim client (fun f => f res client), res) := by
  cases callback <;> rfl

/-! ## What a call returns -/

namespace Reply

/-- The reply of a subscribe that opened a subscription. -/
def opened : Reply → Bool
  | .subscribed (.ok _) => true
  | _ => false

/-- The reply of an unsubscribe. -/
def isUnsubscribe : Reply → Bool
  | .unsubscribed _ => true
  | _ => false

/-- The reply of an unsubscribe that released a held handle. -/
def released : Reply → Bool
  | .unsubscribed b => b
  | _ => false

theorem opened_iff {r : Reply} : r.opened = true ↔ ∃ h, r = .subscribed (.ok h) := by
  rcases r with (_ | _) | _ | _ | _ | _ | _ | _ <;> simp [opened]

theorem released_eq_false {r : Reply} (h : r.isUnsubscribe = false) : r.released = false := by
  cases r <;> simp_all [isUnsubscribe, released]

/-- The last successful subscribe of a log that no unsubscribe follows, found past its first
reply or at it. -/
theorem opened_since_cons {r : Reply} {log : List Reply} :
    (∃ pre h post, r :: log = pre ++ .subscribed (.ok h) :: post ∧
        ∀ x ∈ post, x.isUnsubscribe = false) ↔
      (∃ pre h post, log = pre ++ .subscribed (.ok h) :: post ∧
          ∀ x ∈ post, x.isUnsubscribe = false) ∨
        (r.opened = true ∧ ∀ x ∈ log, x.isUnsubscribe = false) := by
  constructor
  · rintro ⟨pre, h, post, hlog, hpost⟩
    cases pre with
    | nil =>
      simp only [List.nil_append, List.cons.injEq] at hlog
      obtain ⟨rfl, rfl⟩ := hlog
      exact .inr ⟨rfl, hpost⟩
    | cons x pre =>
      simp only [List.cons_append, List.cons.injEq] at hlog
      exact .inl ⟨pre, h, post, hlog.2, hpost⟩
  · rintro (⟨pre, h, post, rfl, hpost⟩ | ⟨hopened, hlog⟩)
    · exact ⟨r :: pre, h, post, rfl, hpost⟩
    · obtain ⟨h, rfl⟩ := opened_iff.mp hopened
      exact ⟨[], h, log, rfl, hlog⟩

end Reply

end Query

/-! ## One call -/

namespace Session

variable {σ : Type} (eng : Engine) (read : Reader)

theorem fetch_routed (s : Session σ) (allowSkip : Bool) (overlay : Option Params)
    (callback : Option (Except Error (List Document) → σ → σ)) :
    (s.fetch eng read allowSkip overlay callback).1.query = s.query ∧
      (s.fetch eng read allowSkip overlay callback).1.client =
        callback.elim s.client (fun f => f (s.fetch eng read allowSkip overlay callback).2.2 s.client) ∧
      (s.query.request (s.query.fetchParams overlay) allowSkip).Routed eng read
        s.query.isSubscribed s.channel (s.fetch eng read allowSkip overlay callback).1.channel
        (s.fetch eng read allowSkip overlay callback).2.1
        (s.fetch eng read allowSkip overlay callback).2.2 := by
  have hrouted := s.query.fetch_routed eng read s.channel allowSkip overlay
  rcases hf : s.query.fetch eng read s.channel allowSkip overlay with ⟨ch, finds, res⟩
  rw [hf] at hrouted
  simpa [Session.fetch, hf] using hrouted

/-- Fetching the first row fetches the rows with no callback, so the caller's state is touched
once, by its own callback, on the first row. -/
theorem fetchOne_eq (s : Session σ) (allowSkip : Bool) (overlay : Option Params)
    (callback : Option (Except Error (Option Document) → σ → σ)) :
    s.fetchOne eng read allowSkip overlay callback =
      let out := s.fetch eng read allowSkip overlay none
      let first := out.2.2.map (·.head?)
      ({ out.1 with client := callback.elim out.1.client (fun f => f first out.1.client) },
        out.2.1, first) := by
  rcases hf : s.fetch eng read allowSkip overlay none with ⟨s', finds, rows⟩
  simp [fetchOne, hf]

theorem getCount_callsOnce (s : Session σ) (callback : Option (Except Error Nat → σ → σ)) :
    (s.getCount eng callback).1.query = s.query ∧
      (s.getCount eng callback).1.client =
        callback.elim s.client (fun f => f (s.getCount eng callback).2 s.client) ∧
      s.channel.CallsOnce (s.getCount eng callback).1.channel (s.query.name ++ eng.config.countSuffix)
        (s.query.request s.query.params false).payload (s.getCount eng callback).2 := by
  have hcalls := s.query.count_callsOnce eng s.channel
  rcases hc : s.query.count eng s.channel with ⟨ch, res⟩
  rw [hc] at hcalls
  simpa [getCount, hc] using hcalls

theorem step_subscribe_of_payload_error (s : Session σ) {e : Error}
    (he : (s.query.request s.query.params false).payload = .error e) :
    s.step eng read .subscribe = (s, [], .subscribed (.error e)) := by
  simp [step, Query.subscribe, he]

/-- What one call does to the held handle and to the channel's subscriptions: a subscribe that
succeeds opens a subscription and holds its handle, whatever was held before; an unsubscribe
stops the held handle's subscription, if any, and drops the handle; every other call, a failed
subscribe among them, leaves both alone. -/
theorem step_cases (s : Session σ) (c : Query.Call σ) :
    (∃ args h, (s.step eng read c).2.2 = .subscribed (.ok h) ∧
        (s.step eng read c).1.query.subscription = some h ∧
        (s.step eng read c).1.channel = (s.channel.subscribe s.query.name args).1 ∧
        h.position = (s.channel.subscribe s.query.name args).2) ∨
      ((s.step eng read c).2.2 = .unsubscribed s.query.isSubscribed ∧
        (s.step eng read c).1.query.subscription = none ∧
        (s.step eng read c).1.channel = s.query.stop s.channel) ∨
      ((s.step eng read c).2.2.opened = false ∧ (s.step eng read c).2.2.isUnsubscribe = false ∧
        (s.step eng read c).1.query.subscription = s.query.subscription ∧
        (s.step eng read c).1.channel.subscriptions = s.channel.subscriptions) := by
  cases c with
  | subscribe =>
    rcases hp : (s.query.request s.query.params false).payload with e | args
    · right; right
      simp [step_subscribe_of_payload_error eng read s hp, Query.Reply.opened,
        Query.Reply.isUnsubscribe]
    · left
      exact ⟨args, ⟨Query.subscriptionKey s.query.name args, (s.channel.subscribe s.query.name args).2⟩,
        by simp [step, Query.subscribe, hp]⟩
  | unsubscribe =>
    right; left
    rcases hq : s.query.subscription with _ | h <;>
      simp [step, Query.unsubscribe, Query.stop, hq]
  | fetch allowSkip overlay callback =>
    obtain ⟨hquery, -, hrouted⟩ := fetch_routed eng read s allowSkip overlay callback
    right; right
    simp [step, hquery, hrouted.subscriptions_eq, Query.Reply.opened, Query.Reply.isUnsubscribe]
  | fetchOne allowSkip overlay callback =>
    obtain ⟨hquery, -, hrouted⟩ := fetch_routed eng read s allowSkip overlay none
    right; right
    simp [step, fetchOne_eq, hquery, hrouted.subscriptions_eq, Query.Reply.opened,
      Query.Reply.isUnsubscribe]
  | getCount callback =>
    obtain ⟨hquery, -, hcalls⟩ := getCount_callsOnce eng s callback
    right; right
    simp [step, hquery, hcalls.subscriptions_eq, Query.Reply.opened, Query.Reply.isUnsubscribe]
  | setParams p =>
    right; right
    simp [step, Query.setParams, Query.Reply.opened, Query.Reply.isUnsubscribe]
  | cloneWithParams p =>
    right; right
    simp [step, Query.Reply.opened, Query.Reply.isUnsubscribe]

/-- After a call the query holds a handle exactly when the call opened one, or one was held and
the call was no unsubscribe. -/
theorem step_isSubscribed (s : Session σ) (c : Query.Call σ) :
    (s.step eng read c).1.query.isSubscribed =
      ((s.step eng read c).2.2.opened || s.query.isSubscribed && !(s.step eng read c).2.2.isUnsubscribe) := by
  rcases step_cases eng read s c with ⟨-, h, hr, hq, -⟩ | ⟨hr, hq, -⟩ | ⟨ho, hu, hq, -⟩
  · simp [hr, hq, Query.isSubscribed, Query.Reply.opened]
  · simp [hr, hq, Query.isSubscribed, Query.Reply.opened, Query.Reply.isUnsubscribe]
  · simp [ho, hu, hq, Query.isSubscribed]

/-- The handle the query holds, if any, names a subscription of the channel that is live. -/
def HandleLive (s : Session σ) : Prop :=
  ∀ h, s.query.subscription = some h → s.channel.isReady h.position = true

theorem handleLive_of_free {s : Session σ} (hfree : s.query.subscription = none) : s.HandleLive := by
  intro h hh
  rw [hfree] at hh
  cases hh

theorem step_handleLive {s : Session σ} (hs : s.HandleLive) (c : Query.Call σ) :
    (s.step eng read c).1.HandleLive := by
  rcases step_cases eng read s c with ⟨args, h, -, hq, hch, hpos⟩ | ⟨-, hq, -⟩ | ⟨-, -, hq, hch⟩
  · intro h' hh'
    rw [hq, Option.some.injEq] at hh'
    rw [← hh', hch, hpos]
    exact Channel.isReady_subscribe_position _ _ _
  · intro h' hh'
    rw [hq] at hh'
    cases hh'
  · -- the handle and the subscriptions it is read against are both unchanged
    intro h' hh'
    rw [hq] at hh'
    have hlive := hs h' hh'
    simpa [Channel.isReady, hch] using hlive

/-- One call changes the number of live subscriptions by what it opened less what it
released. -/
theorem step_activeCount {s : Session σ} (hs : s.HandleLive) (c : Query.Call σ) :
    (s.step eng read c).1.channel.activeCount + (if (s.step eng read c).2.2.released then 1 else 0) =
      s.channel.activeCount + (if (s.step eng read c).2.2.opened then 1 else 0) := by
  rcases step_cases eng read s c with ⟨args, h, hr, -, hch, -⟩ | ⟨hr, -, hch⟩ | ⟨ho, hu, -, hch⟩
  · simp [hr, hch, Channel.activeCount_subscribe, Query.Reply.opened, Query.Reply.released]
  · -- an unsubscribe releases exactly when a handle is held, and its subscription is live
    rcases hq : s.query.subscription with _ | h
    · simp [hr, hch, hq, Query.stop, Query.isSubscribed, Query.Reply.opened,
        Query.Reply.released]
    · have hstop := Channel.activeCount_stop (hs h hq)
      simp [hr, hch, hq, Query.stop, Query.isSubscribed, Query.Reply.opened,
        Query.Reply.released, hstop]
  · simp [ho, Query.Reply.released_eq_false hu, Channel.activeCount, hch]

/-! ## A run of calls -/

theorem run_cons (s : Session σ) (c : Query.Call σ) (calls : List (Query.Call σ)) :
    s.run eng read (c :: calls) =
      (((s.step eng read c).1.run eng read calls).1,
        (s.step eng read c).2.2 :: ((s.step eng read c).1.run eng read calls).2) := by
  rcases hstep : s.step eng read c with ⟨s', finds, r⟩
  simp [run, hstep]

/-- Over a run, the query ends holding a handle exactly when a subscribe succeeded with no
unsubscribe after it, or a handle was held at the start and no unsubscribe came. -/
theorem run_isSubscribed (s : Session σ) (calls : List (Query.Call σ)) :
    (s.run eng read calls).1.query.isSubscribed = true ↔
      (∃ pre h post, (s.run eng read calls).2 = pre ++ .subscribed (.ok h) :: post ∧
          ∀ r ∈ post, r.isUnsubscribe = false) ∨
        (s.query.isSubscribed = true ∧ ∀ r ∈ (s.run eng read calls).2, r.isUnsubscribe = false) := by
  induction calls generalizing s with
  | nil => simp [run]
  | cons c calls ih =>
    rw [run_cons, ih, Query.Reply.opened_since_cons, step_isSubscribed, List.forall_mem_cons]
    cases (s.step eng read c).2.2.opened <;> cases s.query.isSubscribed <;>
      cases (s.step eng read c).2.2.isUnsubscribe <;> simp

/-- Over a run keeping the held handle live, the live subscriptions are those there before,
plus the subscribes that succeeded, less the unsubscribes that released a handle. -/
theorem run_activeCount {s : Session σ} (hs : s.HandleLive) (calls : List (Query.Call σ)) :
    (s.run eng read calls).1.channel.activeCount +
        (s.run eng read calls).2.countP Query.Reply.released =
      s.channel.activeCount + (s.run eng read calls).2.countP Query.Reply.opened := by
  induction calls generalizing s with
  | nil => simp [run]
  | cons c calls ih =>
    have hstep := step_activeCount eng read hs c
    have hrest := ih (step_handleLive eng read hs c)
    simp only [run_cons, List.countP_cons]
    omega

/-- Over every run from a query without a handle, a handle is held exactly when a subscribe
succeeded since the last unsubscribe, and live subscriptions balance opens against releases.
Fetches go as `Request.Routed` says, a count calls at most once, and callbacks get the outcome. -/
theorem run_routes_calls_and_balances_subscriptions (start : Session σ)
    (hfree : start.query.subscription = none) (calls : List (Query.Call σ)) :
    let final := (start.run eng read calls).1
    let log := (start.run eng read calls).2
    (final.query.isSubscribed = true ↔
      ∃ pre h post, log = pre ++ .subscribed (.ok h) :: post ∧
        ∀ r ∈ post, r.isUnsubscribe = false) ∧
    final.channel.activeCount + log.countP Query.Reply.released =
      start.channel.activeCount + log.countP Query.Reply.opened ∧
    (∀ (s : Session σ) allowSkip overlay callback,
      let out := s.step eng read (.fetch allowSkip overlay callback)
      ∃ rows, out.2.2 = .rows rows ∧ out.1.query = s.query ∧
        out.1.client = callback.elim s.client (fun f => f rows s.client) ∧
        (s.query.request (s.query.fetchParams overlay) allowSkip).Routed eng read
          s.query.isSubscribed s.channel out.1.channel out.2.1 rows) ∧
    (∀ (s : Session σ) allowSkip overlay callback,
      let out := s.step eng read (.fetchOne allowSkip overlay callback)
      ∃ rows, out.2.2 = .row (rows.map (·.head?)) ∧ out.1.query = s.query ∧
        out.1.client = callback.elim s.client (fun f => f (rows.map (·.head?)) s.client) ∧
        (s.query.request (s.query.fetchParams overlay) allowSkip).Routed eng read
          s.query.isSubscribed s.channel out.1.channel out.2.1 rows) ∧
    (∀ (s : Session σ) callback,
      let out := s.step eng read (.getCount callback)
      ∃ n, out.2.2 = .count n ∧ out.1.query = s.query ∧ out.2.1 = [] ∧
        out.1.client = callback.elim s.client (fun f => f n s.client) ∧
        s.channel.CallsOnce out.1.channel (s.query.name ++ eng.config.countSuffix)
          (s.query.request s.query.params false).payload n) ∧
    (∀ (s : Session σ) e, (s.query.request s.query.params false).payload = .error e →
      s.step eng read .subscribe = (s, [], .subscribed (.error e))) := by
  intro final log
  have hheld : start.query.isSubscribed = false := by simp [Query.isSubscribed, hfree]
  refine ⟨?_, run_activeCount eng read (handleLive_of_free hfree) calls, ?fetch, ?fetchOne,
    ?count, fun s e he => step_subscribe_of_payload_error eng read s he⟩
  case fetch =>
    intro s allowSkip overlay callback
    obtain ⟨hquery, hclient, hrouted⟩ := fetch_routed eng read s allowSkip overlay callback
    exact ⟨_, rfl, hquery, hclient, hrouted⟩
  case fetchOne =>
    -- the rows come from a fetch with no callback, which leaves the caller's state alone
    intro s allowSkip overlay callback
    obtain ⟨hquery, hclient, hrouted⟩ := fetch_routed eng read s allowSkip overlay none
    refine ⟨(s.fetch eng read allowSkip overlay none).2.2, by simp [step, fetchOne_eq], ?_⟩
    simp only [Option.elim_none] at hclient
    simpa [step, fetchOne_eq, hquery, hclient] using hrouted
  case count =>
    intro s callback
    obtain ⟨hquery, hclient, hcalls⟩ := getCount_callsOnce eng s callback
    exact ⟨_, rfl, hquery, rfl, hclient, hcalls⟩
  · rw [run_isSubscribed, hheld]
    simp [log]

/-- Subscribing twice and then unsubscribing, from a fresh query over a channel with no
subscriptions. -/
theorem run_resubscribe_then_unsubscribe :
    let start : Session Unit := ⟨Engine.createQuery "posts" {}, {}, ()⟩
    let out := start.run {} (fun _ => .ok []) [.subscribe, .subscribe, .unsubscribe]
    start.query.subscription = none ∧
      out.1.channel.activeCount + out.2.countP Query.Reply.released =
        start.channel.activeCount + out.2.countP Query.Reply.opened :=
  ⟨rfl, (run_routes_calls_and_balances_subscriptions {} (fun _ => .ok []) _ rfl _).2.1⟩

end Session

end DocQuery
