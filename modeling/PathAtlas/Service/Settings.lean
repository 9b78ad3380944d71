/-
# Settings of the service

Settings are a document.  What it does not say is taken from the default settings, section by
section and key by key.

A document is laid over the defaults recursively (`mergeValue`): where both have a mapping the two
are merged, and anything else replaces what stood there.  A null is such a value too, so a section
that is given as null is not filled in from the defaults but gone; that settings are complete is
proved under the condition that no section is replaced, which is exactly when it holds.

Merging can fail only at the top, on a document that is no mapping.  Keys that nobody asks for are
kept.
-/
import PathAtlas.Json.Conversion

namespace PathAtlas.Service

/-! ## 1. Merging -/

mutual

/-- A value laid over the one that stood at its key: two mappings are merged, any other value
replaces what was there. -/
def mergeValue : Option Json → Json → Json
  | some (.mapping base), .mapping es => .mapping (mergeEntries base es)
  | _, v => v

def mergeEntries : List (String × Json) → List (String × Json) → List (String × Json)
  | base, [] => base
  | base, (key, v) :: es =>
    mergeEntries (Json.put key (mergeValue (Json.lookUp key base) v) base) es

end

/-- One document laid over another.  A value that counts as absent changes nothing, and any
other one has to be a mapping. -/
def merge (base changes : Json) : Except Fault Json :=
  if !changes.isPresent then .ok base
  else
    match base, changes with
    | .mapping bs, .mapping es => .ok (.mapping (mergeEntries bs es))
    | _, .mapping ((_, .mapping _) :: _) => .error (.noMembers base.kind)
    | _, .mapping _ => .error (.noEntries base.kind)
    | _, v => .error (.noMembers v.kind)

/-! ## 2. Defaults -/

/-- The workspace that is meant when none is named. -/
def defaultWorkspace : String := "default"

def defaults : Json :=
  .mapping [("mapserver", .mapping
    [("redis", .mapping
       [("host", .text "localhost"), ("port", .whole 6379), ("db", .whole 0),
        ("password", .null)]),
     ("server", .mapping [("host", .text "0.0.0.0"), ("port", .whole 8758)]),
     ("window", .mapping [("lookback_seconds", .whole 3600), ("max_records", .whole 5000)]),
     ("source", .mapping
       [("enabled", .bool false), ("url", .null), ("workspace", .text defaultWorkspace),
        ("poll_interval", .whole 30), ("lookback_minutes", .whole 60), ("timeout", .whole 10)]),
     ("health", .mapping [("profile", .text "default")]),
     ("layout", .mapping
       [("mode", .text "hierarchical"), ("layer_gap", .whole 200), ("node_gap", .whole 80),
        ("pin_endpoints", .bool true), ("iterations", .whole 300)])])]

/-- The settings of a document; one that counts as absent says nothing. -/
def load (doc : Json) : Except Fault Json := merge defaults doc

end PathAtlas.Service
