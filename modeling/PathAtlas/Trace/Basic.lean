/-
# Traces

A trace is what one probe saw on its way from a source to a target: one hop per step, each with
the hosts that answered and what was measured there.

Several hosts can answer at one step, and the first of them speaks for it (`Hop.responder`).  A
first host without an address to show makes the step silent, whatever stands behind it.  A silent
step has an identifier all the same, the wildcard, so a route has as many entries as its trace has
steps; it has no latency, even where one was reported, but it keeps its loss.

The numbers of a step and its counts are figures, kept as they were given, and names of hosts and
ids of traces are documents of any kind.  What is made of a trace says for itself what it asks of
them.
-/
import PathAtlas.Figure

namespace PathAtlas

/-! ## 1. Hosts and hops -/

/-- Stands for a step that nobody answered. -/
def wildcard : String := "*"

/-- A host that answered at a step.  Its name is kept as the probe wrote it and is null when the
probe gave none. -/
structure Host where
  address : String
  name : Json := .null

/-- One step of a trace; without hosts the step timed out. -/
structure Hop (α : Type) where
  /-- The number of the step. -/
  ttl : Figure α
  hosts : List Host
  loss : α
  average : Option α
  best : Option α
  worst : Option α
  jitter : Option α
  /-- How many probes were sent. -/
  sent : Figure α
  /-- How many answers came back. -/
  received : Figure α

namespace Hop

variable {α : Type}

/-- Whether a host has an address to show. -/
def answers (host : Host) : Bool := host.address ≠ "" && host.address ≠ wildcard

/-- The host that speaks for the step: the first one, when it has an address.  Further hosts of
a step are alternatives and are left aside. -/
def responder (hop : Hop α) : Option Host := hop.hosts.head?.filter answers

def responds (hop : Hop α) : Bool := hop.responder.isSome

def address (hop : Hop α) : Option String := hop.responder.map Host.address

/-- The address of the step, or the wildcard. -/
def identifier (hop : Hop α) : String := hop.address.getD wildcard

/-- The name of the step's host; one that counts as absent is null. -/
def name (hop : Hop α) : Json :=
  match hop.responder with
  | some host => if host.name.isPresent then host.name else .null
  | none => .null

def latency (hop : Hop α) : Option α := if hop.responds then hop.average else none

end Hop

/-! ## 2. Traces -/

/-- What one probe saw from a source to a target. -/
structure Trace (α : Type) where
  source : String
  target : String
  hops : List (Hop α)
  time : α
  triggered : Bool := false
  /-- The agent at the target, when the probe ran from agent to agent. -/
  targetAgent : Option String := none
  /-- The id as the probe gave it, null when it gave none. -/
  id : Json := .null

namespace Trace

variable {α : Type}

/-- The path that the trace is a sample of. -/
def pathId (trace : Trace α) : String := trace.source ++ "->" ++ trace.target

def hasHops (trace : Trace α) : Bool := !trace.hops.isEmpty

end Trace

end PathAtlas
