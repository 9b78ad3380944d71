/-
# Route groups

All traces of one route together: how many there were, when they were seen, how fast and how
lossy they were.  A group counts as a route change when the trace that opened it took another
route than the trace right before it.

Traces are walked oldest first (`Walk.take`).  The first one of a route opens its group, and every
one is taken into the group of its route, which keeps its counts, extremes and mean up to date
(`Gathering.add`).  What a group says is therefore known at every point of the walk.

Groups are shown in tiers: those with an issue first, then those that are a change, then the rest
(`tierOf`), and within a tier by a rule that is chosen from outside (`TieBreak`).  Ranking is a
matter of the group's standing alone (`Group.standing`), and only reorders (`rankBy_perm`).
-/
import PathAtlas.Route.Signature

namespace PathAtlas.Route

/-! ## 1. Groups -/

/-- Changes with an issue come first, then other issues, then other changes, then the rest. -/
def tierOf (hasIssue isChange : Bool) : Nat :=
  if hasIssue then (if isChange then 0 else 1) else if isChange then 2 else 3

/-- The traces of one route. -/
structure Group (α : Type) where
  signature : String
  hops : List String
  firstSeen : α
  lastSeen : α
  traceCount : Nat
  averageLatency : Option α
  maxLoss : α
  triggeredCount : Nat
  isChange : Bool
  previousSignature : Option String
  /-- The ids of the traces that have one. -/
  ids : List Json

namespace Group

variable {α : Type} [Scalar α]

def path (group : Group α) : String := pathText group.hops

/-- Whether a trace was triggered or lost too much. -/
def hasIssue (group : Group α) : Bool :=
  decide (0 < group.triggeredCount) || decide (issueLoss < group.maxLoss)

/-- The place of a group among all: that of its issue and its change. -/
def tier (group : Group α) : Nat := tierOf group.hasIssue group.isChange

end Group

/-! ## 2. Grouping -/

/-- A trace with the signature of the trace before it. -/
structure Step (α : Type) where
  previous : Option String
  trace : Trace α

/-- A group while traces come in, with the number of those that have a latency. -/
structure Gathering (α : Type) where
  group : Group α
  latencies : Nat := 0

namespace Gathering

variable {α : Type} [Scalar α]

/-- The group that a trace opens, before it is taken in itself. -/
def opened (first : Step α) : Gathering α :=
  let signature := first.trace.signature
  let changed := first.previous.any (· ≠ signature)
  { group := {
      signature
      hops := first.trace.identifiers
      firstSeen := first.trace.time
      lastSeen := first.trace.time
      traceCount := 0
      averageLatency := none
      maxLoss := Scalar.zero
      triggeredCount := 0
      isChange := changed
      previousSignature := if changed then first.previous else none
      ids := [] } }

/-- Takes in a trace. -/
def add (gathering : Gathering α) (trace : Trace α) : Gathering α :=
  let group := gathering.group
  let before : Scalar.Running α := ⟨gathering.latencies, group.averageLatency⟩
  let latency := (trace.endLatency.map before.add).getD before
  { group := { group with
      firstSeen := Scalar.smaller group.firstSeen trace.time
      lastSeen := Scalar.larger group.lastSeen trace.time
      traceCount := group.traceCount + 1
      averageLatency := latency.mean
      maxLoss := Scalar.larger group.maxLoss trace.maxRespondingLoss
      triggeredCount := group.triggeredCount + if trace.triggered then 1 else 0
      ids := if trace.id.isPresent then group.ids ++ [trace.id] else group.ids }
    latencies := latency.count }

end Gathering

/-- A walk along a timeline: the signature of the last trace, and the groups so far. -/
structure Walk (α : Type) where
  previous : Option String := none
  groups : List (String × Gathering α) := []

/-- Takes in the next trace of a timeline. -/
def Walk.take {α : Type} [Scalar α] (walk : Walk α) (trace : Trace α) : Walk α :=
  { previous := some trace.signature
    groups :=
      Order.into trace.signature (.opened ⟨walk.previous, trace⟩) (·.add trace) walk.groups }

/-- The routes of some traces, in the order in which they were first taken. -/
def groups {α : Type} [Scalar α] (traces : List (Trace α)) : List (Group α) :=
  ((Trace.timeline traces).foldl Walk.take {}).groups.map fun entry => entry.2.group

/-! ## 3. Ranking -/

/-- What decides within a tier. -/
inductive TieBreak where
  /-- The group that was seen last comes first. -/
  | recency
  /-- The group with the most traces comes first. -/
  | count
  deriving Repr, DecidableEq

def TieBreak.parse : String → Except Fault TieBreak
  | "recency" => .ok .recency
  | "count" => .ok .count
  | s => .error (.unknownTieBreak s)

/-- What decides the place of a group among others. -/
structure Standing (α κ : Type) where
  tier : Nat
  lastSeen : α
  /-- How many traces the group has. -/
  count : κ

def Group.standing {α : Type} [Scalar α] (group : Group α) : Standing α Nat :=
  ⟨group.tier, group.lastSeen, group.traceCount⟩

section Ranking

variable {α κ : Type} [Scalar α] [LT κ] [DecidableLT κ] [BEq κ]

/-- Whether one group has more traces, or as many and was seen later. -/
def fullerThan (a b : Standing α κ) : Bool :=
  decide (b.count < a.count) || (a.count == b.count && decide (b.lastSeen < a.lastSeen))

/-- Whether one group was seen later, or at the same time and has more traces. -/
def laterThan (a b : Standing α κ) : Bool :=
  decide (b.lastSeen < a.lastSeen) || (a.lastSeen == b.lastSeen && decide (b.count < a.count))

def shownBefore (rule : TieBreak) (a b : Standing α κ) : Bool :=
  decide (a.tier < b.tier) ||
    (a.tier == b.tier &&
      (if a.tier == 3 || rule == .count then fullerThan a b else laterThan a b))

/-- A list in the order of the standings of its elements. -/
def rankBy {β : Type} (standing : β → Standing α κ) (rule : TieBreak) (xs : List β) : List β :=
  Order.sortAmong (fun a => Order.isNumber (standing a).lastSeen)
    (fun a b => shownBefore rule (standing a) (standing b)) xs

theorem rankBy_perm {β : Type} (standing : β → Standing α κ) (rule : TieBreak) (xs : List β) :
    (rankBy standing rule xs).Perm xs := Order.sortAmong_perm _ _ xs

/-- Groups in the order in which they are shown. -/
def rank (rule : TieBreak) (groups : List (Group α)) : List (Group α) :=
  rankBy Group.standing rule groups

end Ranking

/-! ## 4. Documents -/

def Group.toJson (group : Group Float) : Json :=
  .mapping
    [("signature", .text group.signature),
     ("fingerprint", .text (Digest.fingerprint group.signature)),
     ("path", .text group.path),
     ("hops", .texts group.hops),
     ("trace_count", .nat group.traceCount),
     ("first_seen", .decimal group.firstSeen),
     ("last_seen", .decimal group.lastSeen),
     ("avg_latency", .ofOption .decimal group.averageLatency),
     ("max_loss", .decimal group.maxLoss),
     ("is_route_change", .bool group.isChange),
     ("previous_signature", .ofOption .text group.previousSignature),
     ("has_issue", .bool group.hasIssue),
     ("triggered_count", .nat group.triggeredCount)]

end PathAtlas.Route
