/-
# Paths of the service

Which operation each method and path stands for.  A part of a path in braces stands for any text.

A path is cut at its slashes, and fits a pattern when it has as many parts and each is the same or
stands for a text that is not empty (`matchSegments`).  No two patterns of one method fit the same
path, so the order of `endpoints` decides nothing.  What fits none is left to whoever asked.
-/
import PathAtlas.Service.Server

namespace PathAtlas.Service

/-- A method and path, and what they stand for; the metrics are served apart. -/
structure Endpoint where
  method : String
  path : String
  operation : Option Server.Operation

def endpoints : List Endpoint :=
  [⟨"GET", "/health", some .health⟩,
   ⟨"GET", "/metrics", none⟩,
   ⟨"GET", "/routes", some .routes⟩,
   ⟨"GET", "/routes/aggregated", some .aggregated⟩,
   ⟨"GET", "/routes/analysis", some .analysis⟩,
   ⟨"GET", "/routes/changes", some .changes⟩,
   ⟨"GET", "/topology", some .topology⟩,
   ⟨"GET", "/topology/node/\x7bnode_id\x7d", some .select⟩,
   ⟨"GET", "/topology/png", some .picture⟩,
   ⟨"POST", "/ingest", some .ingest⟩,
   ⟨"POST", "/refresh", some .refresh⟩,
   ⟨"POST", "/topology/node/\x7bnode_id\x7d/drag", some .drag⟩,
   ⟨"POST", "/topology/node/\x7bnode_id\x7d/release", some .release⟩]

def segments (path : String) : List (List Char) := Text.pieces (· == '/') path.toList

/-- The text that stands for the node when a path fits a pattern, empty where none is named. -/
def matchSegments : List (List Char) → List (List Char) → Option String
  | [], [] => some ""
  | p :: ps, s :: ss =>
    if p.head? = some '\x7b' then
      if s.isEmpty then none else (matchSegments ps ss).map fun _ => String.ofList s
    else if p = s then matchSegments ps ss
    else none
  | _, _ => none

/-- The operation that a method and a path stand for, and the node that the path names. -/
def route? (method path : String) : Option (Server.Operation × String) :=
  endpoints.findSome? fun e =>
    if e.method = method then
      e.operation.bind fun operation =>
        (matchSegments (segments e.path) (segments path)).map fun node => (operation, node)
    else none

end PathAtlas.Service
