/-
# Health

A node, an edge or a destination is classified by its average latency and loss.  Healthy lies
below both lower limits, critical above either upper one, and degraded between them.

The comparisons are strict on both sides, so a value that meets a limit is degraded, and an
average that is missing counts as nought unless both are.  The limits themselves have to be in
order (`Thresholds.checked`), but nothing keeps a limit from being negative or from not being a
number at all: every class is decided by comparisons that such a limit simply fails.

`Thresholds.classify` is over any scalar.  What reads limits out of settings is over floating
point only, since there the numbers come from documents; every way in ends in `checked`, and the
standard limits and those of each profile pass it.
-/
import PathAtlas.Json.Conversion

namespace PathAtlas

/-! ## 1. Classes -/

inductive Health where
  | healthy
  | degraded
  | critical
  | unknown
  deriving Repr, DecidableEq

namespace Health

def name : Health → String
  | healthy => "healthy"
  | degraded => "degraded"
  | critical => "critical"
  | unknown => "unknown"

/-- All classes, in the order in which they are counted. -/
def all : List Health := [healthy, degraded, critical, unknown]

/-- The class of a name; a name that stands for none is unknown health. -/
def ofName (s : String) : Health := (all.find? (·.name == s)).getD unknown

end Health

/-! ## 2. Limits -/

/-- The limits of the classes: losses in percent and latencies in milliseconds. -/
structure Thresholds (α : Type) where
  healthyLoss : α
  healthyLatency : α
  criticalLoss : α
  criticalLatency : α

namespace Thresholds

variable {α : Type} [Scalar α]

/-- The limits that hold when nothing else is said. -/
def standard : Thresholds α :=
  ⟨Scalar.ofInt 5, Scalar.ofInt 100, Scalar.ofInt 25, Scalar.ofInt 200⟩

/-- Limits whose lower ones may not lie above the upper ones. -/
def checked (limits : Thresholds α) : Except Fault (Thresholds α) :=
  if limits.criticalLoss < limits.healthyLoss then .error .healthyLossAboveCritical
  else if limits.criticalLatency < limits.healthyLatency then
    .error .healthyLatencyAboveCritical
  else .ok limits

/-- The class of an average latency and an average loss; one that is missing counts as nought,
and where both are missing nothing is known. -/
def classify (limits : Thresholds α) (latency loss : Option α) : Health :=
  if latency.isNone && loss.isNone then .unknown
  else
    let latency := latency.getD Scalar.zero
    let loss := loss.getD Scalar.zero
    if limits.criticalLoss < loss || limits.criticalLatency < latency then .critical
    else if loss < limits.healthyLoss && latency < limits.healthyLatency then .healthy
    else .degraded

end Thresholds

/-! ## 3. Settings -/

namespace Thresholds

/-- Limits for a map of many networks: no latency alone is critical. -/
def networkMap : Thresholds Float := ⟨10.0, 100.0, 50.0, 1.0 / 0.0⟩

/-- The limits of a profile; an unknown one has the standard limits. -/
def ofProfile (name : String) : Thresholds Float :=
  if name == "network_map" then networkMap else standard

/-- The limits of a profile that is named by a value of any kind. -/
def profile : Json → Except Fault (Thresholds Float)
  | .text name => .ok (ofProfile name)
  | .list xs => .error (.notInSets (Json.list xs).kind)
  | .mapping es => .error (.notInSets (Json.mapping es).kind)
  | _ => .ok standard

def keys : List String :=
  ["healthy_loss_pct", "healthy_latency_ms", "critical_loss_pct", "critical_latency_ms"]

/-- The limits of a profile with some of them replaced by a document. -/
def overridden (base : Thresholds Float) (doc : Json) : Except Fault (Thresholds Float) := do
  let healthyLoss ← doc.decimalD "healthy_loss_pct" base.healthyLoss
  let healthyLatency ← doc.decimalD "healthy_latency_ms" base.healthyLatency
  let criticalLoss ← doc.decimalD "critical_loss_pct" base.criticalLoss
  let criticalLatency ← doc.decimalD "critical_latency_ms" base.criticalLatency
  checked ⟨healthyLoss, healthyLatency, criticalLoss, criticalLatency⟩

/-- The limits of a section of the settings: a profile, single limits, or both. -/
def ofSettings (doc : Json) : Except Fault (Thresholds Float) :=
  if !doc.isPresent then .ok standard
  else do
    let base ← profile (← doc.memberD "profile" (.text "default"))
    overridden base doc

/-- The limits that a value of any kind asks for: null for the standard ones, a text for those of
a profile that has to be there, and a mapping for single limits and nothing else. -/
def ofJson : Json → Except Fault (Thresholds Float)
  | .null => .ok standard
  | .text name =>
    if ["default", "network_map"].contains name then .ok (ofProfile name)
    else .error (.missingKey name)
  | .mapping limits => do
    let limits ← limits.mapM fun (key, v) => do return (key, Json.decimal (← v.toDecimal))
    match limits.find? fun (key, _) => !keys.contains key with
    | some (key, _) => throw (.unknownArgument key)
    | none => overridden standard (.mapping limits)
  | v => .error (.noMembers v.kind)

def toJson (limits : Thresholds Float) : Json :=
  .mapping
    [("healthy_loss_pct", .decimal limits.healthyLoss),
     ("healthy_latency_ms", .decimal limits.healthyLatency),
     ("critical_loss_pct", .decimal limits.criticalLoss),
     ("critical_latency_ms", .decimal limits.criticalLatency)]

end Thresholds

end PathAtlas
