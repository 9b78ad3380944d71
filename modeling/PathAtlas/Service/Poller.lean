/-
# The poller

A poller asks a feed for the records of a workspace again and again and hands them on.  The
first failure ends its loop; only a new start begins another one.  What a poll hands its records
to is left open: it changes some state and may fail.

A loop is a task of its own, and it moves in steps (`stepLoop`): it asks, takes the answer and
hands the records on, and rests.  Between two steps of a loop anything else can happen, another
request of the service among it, so the state of a loop says what it waits for (`PollPhase`).

A stop moves in steps as well (`StopPhase`).  It tells the loop to stop and waits until the loop
has heard of it; only then it forgets the loop, WHICHEVER the poller has by then, and closes the
session, which it waits for again.

What the program does in one go, when its feed answers at once and nothing comes between, is made
of these steps: `pollOnce`, `turn`, `await`, `stop`.

A poller asks what it was set to ask, be it a text or not.
-/
import PathAtlas.Json.Conversion
import PathAtlas.Json.Display

namespace PathAtlas.Service

/-! ## 1. The feed -/

/-- What a feed says to a request. -/
inductive Response where
  | answer (status : Json) (body : Json)
  | failure (text : String)

/-- What a feed says when nothing else is laid down. -/
def Response.exhausted : Response := .answer (.whole 599) .null

structure Request where
  url : Json
  workspace : Json
  lookbackMinutes : Json

/-- The records in an answer: a list, or a mapping that has one. -/
def recordsOf (body : Json) : Except Fault (List Json) :=
  let data :=
    match body with
    | .mapping es => ((Json.lookUp "records" es).orElse fun _ => Json.lookUp "data" es).getD .null
    | v => v
  match data with
  | .list records => .ok records
  | _ => .error .feedNotRecords

def Response.records : Response → Except Fault (List Json)
  | .failure text => .error (.connectionFailed text)
  | .answer status body =>
    if status.same (.whole 200) then recordsOf body else .error (.feedStatus status.display)

/-! ## 2. State -/

/-- The state of a poll loop. -/
inductive PollPhase where
  /-- It polls at its next turn. -/
  | due
  /-- It has asked and waits for the answer. -/
  | asking
  /-- It waits for the next poll. -/
  | resting
  /-- It was told to stop and hears of it at its next turn. -/
  | cancelling
  /-- It ended with a failed poll. -/
  | finished
  /-- It was stopped from outside. -/
  | cancelled
  deriving Repr, DecidableEq

def PollPhase.isOver : PollPhase → Bool
  | due | asking | resting | cancelling => false
  | finished | cancelled => true

/-- The state of a loop after a poll, by whether time passes before the next one. -/
def PollPhase.afterPoll : Option Bool → PollPhase
  | some true => .resting
  | some false => .due
  | none => .finished

/-- The state of a call that stops a poller. -/
inductive StopPhase where
  /-- It waits until a loop is over, which it knows by its place. -/
  | waiting (loop : Nat)
  /-- It waits until the session is closed. -/
  | closing
  | over
  deriving Repr, DecidableEq

/-- Whether time passes between two polls that are so far apart.  Only numbers tell that, and one
too large for the clock cannot be waited for. -/
def passesTime (interval : Json) : Except Fault Bool :=
  if !interval.isNumber then .error (.noOrder "<=" interval.kind "int")
  else if interval.numberBelow (.whole 0) || interval.numberSame (.whole 0) then .ok false
  else interval.toDecimal.map fun _ => true

structure Poller where
  url : Json
  workspace : Json
  /-- The time between two polls. -/
  interval : Json
  lookbackMinutes : Json
  /-- Whether failures are reported. -/
  reports : Bool := true
  /-- What the feed will say, the next response first. -/
  responses : List Response := []
  /-- How many requests were made. -/
  calls : Nat := 0
  lastRequest : Option Request := none
  sessionOpen : Bool := false
  /-- Whether the session that is still kept carries nothing any more. -/
  sessionClosed : Bool := false
  sessionsOpened : Nat := 0
  sessionsClosed : Nat := 0
  /-- All loops so far, the first one first. -/
  loops : List PollPhase := []
  /-- The loop that belongs to the poller, by its place. -/
  current : Option Nat := none
  /-- All calls that stop the poller so far, the first one first. -/
  stops : List StopPhase := []
  lastError : Option String := none
  failedAt : Option Float := none
  lastSuccess : Option Float := none
  /-- The failures that were reported, the first one first. -/
  failures : List Fault := []

/-- Takes in the records of a workspace. -/
abbrev Sink (σ : Type) : Type := Json → List Json → σ → Except Fault Unit × σ

namespace Poller

def isOpen (p : Poller) (i : Nat) : Bool := (p.loops[i]?).any fun phase => !phase.isOver

def running (p : Poller) : Bool := p.current.any p.isOpen

def failed (p : Poller) : Bool := p.lastError.isSome

/-- The state of a poller as a document. -/
def status (p : Poller) : Json :=
  .mapping
    [("url", p.url),
     ("workspace", p.workspace),
     ("running", .bool p.running),
     ("last_success", .ofOption .decimal p.lastSuccess),
     ("last_error", .ofOption .text p.lastError),
     ("failed_at", .ofOption .decimal p.failedAt)]

/-! ## 3. One poll -/

def openSession (p : Poller) : Poller :=
  if p.sessionOpen then p
  else { p with sessionOpen := true, sessionsOpened := p.sessionsOpened + 1 }

/-- Sends one request.  A session that is closed carries none. -/
def ask (p : Poller) : Except Fault Unit × Poller :=
  if p.sessionClosed then (.error .sessionClosed, p)
  else
    let p := p.openSession
    (.ok (),
      { p with
        calls := p.calls + 1
        lastRequest := some ⟨p.url, p.workspace, p.lookbackMinutes⟩ })

/-- Takes the response to a request. -/
def hear (p : Poller) : Except Fault (List Json) × Poller :=
  ((p.responses.headD .exhausted).records, { p with responses := p.responses.drop 1 })

/-- Makes one request. -/
def fetch (p : Poller) : Except Fault (List Json) × Poller :=
  match p.ask with
  | (.error fault, p) => (.error fault, p)
  | (.ok (), p) => p.hear

variable {σ : Type}

/-- Hands on what a request brought; tells how many records there were. -/
def deliver (now : Float) (sink : Sink σ) (brought : Except Fault (List Json)) (p : Poller)
    (s : σ) : Except Fault Nat × Poller × σ :=
  match brought with
  | .error fault => (.error fault, p, s)
  | .ok records =>
    match sink p.workspace records s with
    | (.error fault, s) => (.error fault, p, s)
    | (.ok (), s) => (.ok records.length, { p with lastSuccess := some now }, s)

/-- Makes one request and hands its records on. -/
def pollOnce (now : Float) (sink : Sink σ) (p : Poller) (s : σ) :
    Except Fault Nat × Poller × σ :=
  let (brought, p) := p.fetch
  p.deliver now sink brought s

def recordFailure (now : Float) (fault : Fault) (p : Poller) : Poller :=
  { p with
    lastError := some fault.message
    failedAt := some now
    failures := if p.reports then p.failures ++ [fault] else p.failures }

/-- After a poll: whether time passes before the next one, absent when there is none. -/
def conclude (now : Float) (outcome : Except Fault Nat) (p : Poller) : Option Bool × Poller :=
  match outcome.bind fun _ => passesTime p.interval with
  | .error fault => (none, p.recordFailure now fault)
  | .ok pauses => (some pauses, p)

/-- One round of a loop, all in one go. -/
def round (now : Float) (sink : Sink σ) (p : Poller) (s : σ) : Option Bool × Poller × σ :=
  let (outcome, p, s) := p.pollOnce now sink s
  let (pauses, p) := p.conclude now outcome
  (pauses, p, s)

/-- The rest of a round, from the response on. -/
def takeAnswer (now : Float) (sink : Sink σ) (p : Poller) (s : σ) : Option Bool × Poller × σ :=
  let (brought, p) := p.hear
  let (outcome, p, s) := p.deliver now sink brought s
  let (pauses, p) := p.conclude now outcome
  (pauses, p, s)

/-! ## 4. Loops -/

def withPhase (p : Poller) (i : Nat) (phase : PollPhase) : Poller :=
  { p with loops := p.loops.set i phase }

/-- Begins a loop unless there is one; what the last one failed with is forgotten. -/
def start (p : Poller) : Poller :=
  if p.running then p
  else
    { p with
      lastError := none
      failedAt := none
      loops := p.loops ++ [.due]
      current := some p.loops.length }

/-- One step of one loop.  A loop that was told to stop ends, and one that rests goes on resting
(`wakeLoop`). -/
def stepLoop (now : Float) (sink : Sink σ) (state : Poller × σ) (i : Nat) : Poller × σ :=
  let (p, s) := state
  match p.loops[i]? with
  | some .due =>
    match p.ask with
    | (.ok (), p) => (p.withPhase i .asking, s)
    | (.error fault, p) => ((p.recordFailure now fault).withPhase i .finished, s)
  | some .asking =>
    let (pauses, p, s) := p.takeAnswer now sink s
    (p.withPhase i (.afterPoll pauses), s)
  | some .cancelling => (p.withPhase i .cancelled, s)
  | _ => (p, s)

/-- One turn of one loop, in which a poll is made from beginning to end. -/
def turnLoop (now : Float) (sink : Sink σ) (state : Poller × σ) (i : Nat) : Poller × σ :=
  let next := stepLoop now sink state i
  if state.1.loops[i]? = some .due then stepLoop now sink next i else next

def turn (now : Float) (sink : Sink σ) (p : Poller) (s : σ) : Poller × σ :=
  (List.range p.loops.length).foldl (turnLoop now sink) (p, s)

def turns (now : Float) (sink : Sink σ) : Nat → Poller → σ → Poller × σ
  | 0, p, s => (p, s)
  | n + 1, p, s =>
    let (p, s) := p.turn now sink s
    turns now sink n p s

/-- Lets the time pass that one loop waits for, if it rests. -/
def wakeLoop (p : Poller) (i : Nat) : Poller :=
  if p.loops[i]? = some .resting then p.withPhase i .due else p

/-- Lets the time pass that resting loops wait for. -/
def wake (p : Poller) : Poller := (List.range p.loops.length).foldl wakeLoop p

def turnUntilOver (now : Float) (sink : Sink σ) (i : Nat) : Nat → Poller → σ → Poller × σ
  | 0, p, s => (p, s)
  | n + 1, p, s =>
    if p.isOpen i then
      let (p, s) := p.wake.turn now sink s
      turnUntilOver now sink i n p s
    else (p, s)

/-- Waits for the poller's loop and tells how it ended.  Every turn takes a response, and the loop
ends at the latest when there is none left. -/
def await (now : Float) (sink : Sink σ) (p : Poller) (s : σ) :
    Option PollPhase × Poller × σ :=
  match p.current with
  | none => (none, p, s)
  | some i =>
    let (p, s) := turnUntilOver now sink i (p.responses.length + 2) p s
    (p.loops[i]?, p, s)

/-- Polls without a loop of its own until the first failure; other loops have a turn after every
poll. -/
def runUpTo (now : Float) (sink : Sink σ) : Nat → Poller → σ → Poller × σ
  | 0, p, s => (p, s)
  | n + 1, p, s =>
    match p.round now sink s with
    | (none, p, s) => (p, s)
    | (some _, p, s) =>
      let (p, s) := p.turn now sink s
      runUpTo now sink n p s

/-- Polls until the first failure. -/
def run (now : Float) (sink : Sink σ) (p : Poller) (s : σ) : Poller × σ :=
  runUpTo now sink (p.responses.length + 2) p s

/-! ## 5. Stopping -/

/-- Forgets the poller's loop, over or not, and closes the session if there is one. -/
def release (p : Poller) : Poller :=
  { p with
    current := none
    sessionClosed := p.sessionOpen
    sessionsClosed := p.sessionsClosed + if p.sessionOpen then 1 else 0 }

/-- What a stop that forgets the poller's loop still waits for. -/
def afterRelease (p : Poller) : StopPhase := if p.sessionOpen then .closing else .over

/-- Begins to stop: the poller's loop is told, or there is none to wait for. -/
def beginStop (p : Poller) : Poller :=
  match p.current.filter p.isOpen with
  | some i => { p.withPhase i .cancelling with stops := p.stops ++ [.waiting i] }
  | none => { p.release with stops := p.stops ++ [p.afterRelease] }

/-- Goes on with a call that stops the poller, once what it waits for has come. -/
def proceed (p : Poller) (call : Nat) : Poller :=
  match p.stops[call]? with
  | some (.waiting i) =>
    if p.isOpen i then p else { p.release with stops := p.stops.set call p.afterRelease }
  | some .closing =>
    { p with sessionOpen := false, sessionClosed := false, stops := p.stops.set call .over }
  | _ => p

/-- Stops while nothing but the loop that is told to stop has a turn. -/
def stop (p : Poller) : Poller :=
  let call := p.stops.length
  let p := p.beginStop
  let p :=
    match p.stops[call]? with
    | some (.waiting i) => p.withPhase i .cancelled
    | _ => p
  (p.proceed call).proceed call

end Poller

end PathAtlas.Service
