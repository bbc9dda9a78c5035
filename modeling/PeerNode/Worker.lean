import PeerNode.Config
import PeerNode.Counters
import PeerNode.Lib.Machine
import PeerNode.Lib.PopLoop
import PeerNode.Message

/-!
# One worker of the proxy

`Proxy.cpp`: the state a worker thread keeps, its callbacks and its timers, one function
each. The event loop runs them one at a time, so a worker is a machine: an event is one
callback, a run is a list of them in any order.

What the worker does to the world is its list of actions. What the world does to it comes
with the event: which request in flight the network answered and how, and what every
`http_client.send` of the callback answers. An accepted send puts the request in flight
under the generation the client gives it; a refused one, or one of a null request, puts
nothing in flight. The client never calls back from inside a send.

A request is an object, not a value: `id` is the identity of the object the pointer shares,
numbered in the order `make_http_request` makes them. It is all that ties the request the
network answers to the transaction a user sent.

Of the log only the line a failing send leaves is an action. The others depend on
configuration and change nothing.
-/

namespace PeerNode

open Mealy

/-- What the worker is given and does not change: the configuration, the key, the libraries
and the dialect of its replies. -/
structure Env (TX : Type) where
  config : Config
  key : Key
  sniper : Sniper TX
  strict : Bool

/-! ## Requests to the network -/

/-- `http::client::Method`, of which the node uses one. -/
inductive Method
  | post
deriving DecidableEq, Repr

/-- `http::client::Request`. -/
structure Request where
  id : Nat
  generation : Nat
  method : Method
  domain : Domain
  query : String
  data : Bytes
deriving DecidableEq, Repr

variable {TX : Type} (env : Env TX)

/-- `sign`: the query with the signature appended in hex, or a failure. -/
def sign (data : Bytes) (sigHex : String) : Option String :=
  match env.key.sign data with
  | none => none
  | some sigDer => some (sigHex ++ env.sniper.bin2hexAppend sigDer)

/-- `make_http_request`: the object is made first, and dropped if the signature fails. -/
def makeHttpRequest (id : Nat) (rawTx : Bytes) : Option Request :=
  let qs := "pubk=" ++ env.key.hexPubkey ++ "&sign="
  match sign env rawTx qs with
  | none => none
  | some qs =>
    some
      { id
        generation := env.sniper.freshGeneration
        method := .post
        domain := env.config.network
        query := qs
        data := rawTx }

/-- What `http_client.send` answers to a request that is not null. -/
inductive SendResult
  | refused
  | accepted (generation : Nat)
deriving DecidableEq, Repr

/-- The three places that send. -/
inductive Site
  | forward
  | resend
  | outQueue
deriving DecidableEq, Repr

/-- What `http_conn->send` is given. -/
structure HttpResponse where
  code : Nat
  data : Option String := none
  connectionClose : Bool := false
  headers : List String := []
deriving DecidableEq, Repr

/-- What a worker does that others can see. -/
inductive Action
  /-- `http_conn->send(http_resp)`. -/
  | reply (resp : HttpResponse)
  /-- `http_client.send`: where, for which object, what was handed over and the answer. -/
  | send (site : Site) (id : Nat) (req : Option Request) (result : SendResult)
  /-- The client's callback ran for a request, with this status code. -/
  | response (id : Nat) (code : Int)
  /-- `out_queue.emplace_back`. -/
  | park (req : Request)
  /-- `_queues[thread_num]->store`. -/
  | store (value : Int)
  /-- `merge_counters(counters, *_global_counters)`. -/
  | merge (counters : LocalCounters)
  /-- `log_err`. -/
  | logErr (msg : String)
deriving DecidableEq, Repr

/-- The line a failing send leaves. -/
def clientError : String := "Client error: cannot create request to verif"

/-! ## The worker -/

/-- What the callbacks of `Proxy::worker` share: the local counters, `out_queue` (front first),
the requests the client has in flight and how many were ever made. -/
structure Worker where
  counters : LocalCounters := .zero
  outQueue : List Request := []
  inFlight : List Request := []
  made : Nat := 0
deriving DecidableEq, Repr

namespace Worker

/-- `counters.f++`. -/
def count (w : Worker) (f : Field) : Worker := { w with counters := w.counters.bump f }

/-- `counters.queue += d`. -/
def addQueue (w : Worker) (d : Int) : Worker :=
  { w with counters := { w.counters with queue := w.counters.queue + d } }

/-- `http_client.send`, with what it answers a request that is not null: the worker after it, the
answer and the action. -/
def send (w : Worker) (site : Site) (id : Nat) :
    Option Request → SendResult → Worker × Bool × Action
  | some req, .accepted generation =>
    ({ w with inFlight := w.inFlight ++ [{ req with generation }] }, true,
      .send site id (some req) (.accepted generation))
  | req, _ => (w, false, .send site id req .refused)

end Worker

/-! ## The request callback -/

/-- `process_error_code`: the reply to an error and the counter it moves. -/
def processErrorCode (json : JsonRequest) (ec : ErrorCode) (counters : LocalCounters) :
    String × LocalCounters :=
  match ec with
  | .emptyPostData => (makeErrorJson env.strict ec {}, counters.bump .trash)
  | .jsonParseError => (makeErrorJson env.strict ec {}, counters.bump .trash)
  | .unsupportedVersion => (makeErrorJson env.strict ec json, counters.bump .trash)
  | .getInfo => (makeGetinfoJson env.strict env.key.hexAddr json, counters.bump .trash)
  | .unsupportedMethod => (makeErrorJson env.strict ec json, counters.bump .inv)
  | .unsupportedParamsType => (makeErrorJson env.strict ec json, counters.bump .noReq)
  | .noRequiredParams => (makeErrorJson env.strict ec json, counters.bump .noReq)
  | .invalidTransaction => (makeErrorJson env.strict ec json, counters.bump .inv)
  | .verificationFailed =>
    (makeErrorJson env.strict .invalidTransaction json, counters.bump .invSign)
  | _ => (makeErrorJson env.strict .jsonParseError {}, counters.bump .trash)

/-- The cascade of checks a body goes through, up to the first that fails: the envelope as far
as it was read, and the error or the verified transaction. It reads nothing of the worker. -/
def validate (body : String) : JsonRequest × Except ErrorCode TX :=
  let (json, doc, ec) := JsonRequest.parse env.sniper env.strict body
  if ec ≠ .ok then (json, .error ec)
  else
    let (jsonTx, ec) := JsonTransaction.parse env.sniper doc
    if ec ≠ .ok then (json, .error ec)
    else
      match env.sniper.loadHex jsonTx.«to» jsonTx.value jsonTx.fee jsonTx.nonce jsonTx.data
          jsonTx.pubkey jsonTx.sign with
      | none => (json, .error .invalidTransaction)
      | some tx =>
        if !env.sniper.verify tx then (json, .error .verificationFailed) else (json, .ok tx)

/-- The admission check refuses: there is a limit and the backlog is past it. -/
def tooMany (w : Worker) : Prop :=
  env.config.threadQueueSize ≠ 0 ∧
    w.counters.queue + (w.outQueue.length : Int) > env.config.threadQueueSize

instance (w : Worker) : Decidable (tooMany env w) := by
  unfold tooMany
  infer_instance

/-- The last step of an accepted `mhc_send`: make the request, send it, count it in flight. -/
def forward (tx : TX) (result : SendResult) (w : Worker) : Worker × List Action :=
  let id := w.made
  let req := makeHttpRequest env id (env.sniper.move tx)
  let w := { w with made := id + 1 }
  let (w, sent, act) := w.send .forward id req result
  if sent then (w.addQueue 1, [act]) else (w, [act, .logErr clientError])

/-- The body of the `do … while (false)`: what it does before the reply goes out, and the reply. -/
def handle (body : String) (result : SendResult) (w : Worker) :
    Worker × List Action × HttpResponse :=
  let w := w.count .total
  if tooMany env w then (w, [], { code := 429, connectionClose := true })
  else
    match validate env body with
    | (json, .error ec) =>
      let (data, counters) := processErrorCode env json ec w.counters
      ({ w with counters }, [], { code := 200, data := some data })
    | (json, .ok tx) =>
      -- good !
      let w := w.count .success
      let data := makeOkJson env.sniper env.strict (env.sniper.raw tx) json
      if !json.isTestRansaction then
        let (w, acts) := forward env tx result w
        (w, acts, { code := 200, data := some data })
      else (w, [], { code := 200, data := some data })

/-- The header every reply carries. -/
def allowOrigin : String := "Access-Control-Allow-Origin: *\r\n"

/-- The callback of `http_server.set_cb_request`. -/
def onRequest (body : String) (result : SendResult) (w : Worker) : Worker × List Action :=
  let (w, acts, resp) := handle env body result w
  (w, acts ++ [.reply { resp with headers := resp.headers ++ [allowOrigin] }])

/-! ## The response callback and the timers -/

/-- The callback of `http_client.set_cb`, for the `i`-th request in flight: it is out of flight
when the callback runs. Nothing happens if there is no such request. -/
def onResponse (i : Nat) (code : Int) (result : SendResult) (w : Worker) :
    Worker × List Action :=
  match w.inFlight[i]? with
  | none => (w, [])
  | some req =>
    let w := { w with inFlight := w.inFlight.eraseIdx i }
    let got := Action.response req.id code
    if code ≠ 200 then
      if req.generation < env.config.httpPostRetries.toNat then
        let (w, sent, act) := w.send .resend req.id (some req) result
        if sent then (w, [got, act])
        else (w.addQueue (-1), [got, act, .logErr clientError])
      else
        let w := { w with outQueue := w.outQueue ++ [req] }
        (w.addQueue (-1), [got, .park req])
    else (w.addQueue (-1), [got])

/-- What `timer_update_counters` stores for the main thread. -/
def Worker.backlog (w : Worker) : Int := w.counters.queue + (w.outQueue.length : Int)

/-- `timer_update_counters`. -/
def timerUpdateCounters (w : Worker) : Worker × List Action :=
  let stored := Action.store w.backlog
  if w.counters.total ≠ 0 then
    ({ w with counters := clearCounters w.counters }, [stored, .merge w.counters])
  else (w, [stored])

theorem timerUpdateCounters_of_counted {w : Worker} (counted : w.counters.total ≠ 0) :
    (timerUpdateCounters w).1 = { w with counters := clearCounters w.counters } := by
  rw [timerUpdateCounters, if_pos counted]

/-- One turn of the loop of `timer_out_queue`. -/
def offer (results : Nat → SendResult) (i : Nat) (req : Request) (s : Worker × List Action) :
    Worker × List Action :=
  let (w, acts) := s
  let (w, sent, act) := w.send .outQueue req.id (some req) (results i)
  if sent then (w.addQueue 1, acts ++ [act]) else (w, acts ++ [act, .logErr clientError])

/-- `timer_out_queue`: the loop pops the queue whose length bounds it. -/
def timerOutQueue (results : Nat → SendResult) (w : Worker) : Worker × List Action :=
  if w.outQueue = [] then (w, [])
  else
    let ((w, acts), rest) := PopLoop.run 200 (offer results) 0 w.outQueue (w, [])
    ({ w with outQueue := rest }, acts)

/-! ## The machine -/

/-- The callbacks that move requests. -/
inductive Callback
  /-- An incoming request, and what the send of its forward answers. -/
  | request (body : String) (result : SendResult)
  /-- The network answers the `i`-th request in flight; what the send of its resend answers. -/
  | response (i : Nat) (code : Int) (result : SendResult)
  /-- A tick of `timer_out_queue`; what its sends answer. -/
  | outQueue (results : Nat → SendResult)

/-- The events of a worker: those callbacks and the ticks of `timer_update_counters`. -/
inductive Event
  | call (c : Callback)
  | updateCounters

/-- One callback. -/
def call (w : Worker) : Callback → Worker × List Action
  | .request body result => onRequest env body result w
  | .response i code result => onResponse env i code result w
  | .outQueue results => timerOutQueue results w

/-- The worker as a machine. -/
def worker : Machine Worker Event Action where
  step
    | w, .call c => call env w c
    | w, .updateCounters => timerUpdateCounters w

/-- Where a run of a fresh worker ends. -/
def after (es : List Event) : Worker := (worker env).state {} es

/-- Everything a run of a fresh worker does. -/
def done (es : List Event) : List Action := (worker env).trace {} es

theorem after_append (es fs : List Event) :
    after env (es ++ fs) = (worker env).state (after env es) fs :=
  (worker env).state_append {} es fs

theorem done_append (es fs : List Event) :
    done env (es ++ fs) = done env es ++ (worker env).trace (after env es) fs :=
  (worker env).trace_append {} es fs

/-- One more step. -/
theorem after_snoc (es : List Event) (e : Event) :
    after env (es ++ [e]) = ((worker env).step (after env es) e).1 :=
  after_append env es [e]

end PeerNode
