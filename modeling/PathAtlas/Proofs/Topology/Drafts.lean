/-
# What visits tell of a node

A builder takes traces in one by one.  What it has in the end is said here in one go: a node is made
of all visits to it, an edge of all steps between its ends, and a path of all its traces (`nodeOf`,
`edgeOf`, `pathOf`).  These are the terms in which everything else about graphs is proved.

* `touch_draftOf`:  one more visit takes the draft of some visits to the draft of one more, so the
  draft that the first of them opened is that of all (`gathered_touch`);
* `node_draftOf`:   the node of a draft is the node of the visits; `gathered_edge` and
  `gathered_path` say the like of edges and paths;
* `walk_eq`:        walking along a row puts down its visits and its steps, unless a host name
                    cannot be put into a set;
* `add_eq`:         so one trace does, and it opens or counts its path;
* `foldlM_add`:     after some traces the drafts are those of all their visits, steps and paths.

The drafts come in the order of their first visits, and are sorted in the end.  That this is the
same as sorting the visits themselves is left to where the graph is taken apart.
-/
import PathAtlas.Proofs.Order.Gathering
import PathAtlas.Proofs.Outcome
import PathAtlas.Topology.Build

namespace PathAtlas.Topology

variable {α : Type}

/-! ## 1. Nodes, edges and paths in one go -/

/-- The names in a list that are present, each once, at its first place. -/
def namesOnce : List Json → List Json → List Json
  | seen, [] => seen.reverse
  | seen, name :: names =>
    if name.isPresent && !seen.any name.same then namesOnce (name :: seen) names
    else namesOnce seen names

/-- The least of some names, null when there is none; names of different kinds have no order. -/
def leastName (names : List Json) : Except Fault Json := leastOf (namesOnce [] names)

/-- The first text that is given. -/
def firstGiven (texts : List (Option String)) : Option String := texts.findSome? given

/-- The least of some numbers, nought when there is none. -/
def leastDepth : List Nat → Nat
  | [] => 0
  | d :: ds => ds.foldl min d

/-- The agents that visited a node in another role than that of an agent. -/
def visitors (visits : List (Visit α)) : List String :=
  Order.textSet ((visits.filter (·.role ≠ .agent)).map Visit.source)

/-- The node of an agent; it shows no statistics. -/
def agentNode (id : String) (visits : List (Visit α)) : Node α :=
  let name := (firstGiven (visits.map Visit.agent)).getD (afterColon id)
  { id, label := .text name, stats := {}, paths := Order.textSet (visits.map Visit.path)
    status := .unknown, detail := .agent name }

/-- The role of a node: the highest one among its visits. -/
def roleOf (visits : List (Visit α)) : Role := (visits.map Visit.role).foldl Role.higher .hop

/-- The node of some visits, all of them to one id, under a host name. -/
def nodeNamed [Scalar α] (limits : Thresholds α) (id : String) (visits : List (Visit α))
    (hostName : Json) : Node α :=
  let paths := Order.textSet (visits.map Visit.path)
  let stats := Stats.ofSamples (visits.filterMap Visit.sample)
  let status := statusOf limits stats
  let named (fallback : String) : Json :=
    if hostName.isPresent then hostName else .text fallback
  match roleOf visits with
  | .agent => agentNode id visits
  | .destination =>
    let target := (firstGiven (visits.map Visit.target)).getD id
    { id, label := named target, stats, paths, status
      detail := .destination target hostName (visitors visits) }
  | .hop =>
    let address := firstGiven (visits.map Visit.address)
    let scope := if address.isNone then firstGiven (visits.map Visit.scope) else none
    { id, label := named (address.getD wildcard), stats, paths, status
      detail := .hop address hostName (leastDepth (visits.filterMap Visit.depth)) scope
        (visitors visits) }

/-- The node of some visits, all of them to one id.  The least of their host names is its name. -/
def nodeOf [Scalar α] (limits : Thresholds α) (id : String) (visits : List (Visit α)) :
    Except Fault (Node α) :=
  (leastName (visits.map Visit.hostName)).map (nodeNamed limits id visits)

/-- The edge of some steps, all of them between the same nodes. -/
def edgeOf [Scalar α] (limits : Thresholds α) (nodeIds : List String) (ends : String × String)
    (steps : List (Link α)) : Edge α :=
  let stats := Stats.ofSamples (steps.filterMap Link.sample)
  { id := edgeId ends.1 ends.2, source := ends.1, target := ends.2
    sourceIndex := nodeIds.idxOf ends.1, targetIndex := nodeIds.idxOf ends.2
    stats, paths := Order.textSet (steps.map Link.path), status := statusOf limits stats }

/-- Where the traces of a path begin and end; the first of them decides. -/
def pathOf (pathId : String) : List (Trace α) → PathInfo
  | [] => ⟨pathId, "", "", false, 0⟩
  | first :: rest =>
    { pathId
      sourceNode := agentId first.source
      terminalNode := destinationId first
      terminatesAtAgent := first.targetAgent.isSome
      recordCount := rest.length + 1 }

/-! ## 2. Paths and rows of visits -/

/-- A path is opened by its first trace, and every trace of it counts. -/
theorem gathered_path (other : PathInfo) {pathId : String} {traces : List (Trace α)}
    (hsome : traces ≠ []) (hpath : ∀ t ∈ traces, t.pathId = pathId) :
    Order.gathered other openPath (fun info _ => info.counted) traces = pathOf pathId traces := by
  obtain ⟨first, rest, rfl⟩ := List.exists_cons_of_ne_nil hsome
  obtain rfl := hpath first List.mem_cons_self
  have hcount (rest : List (Trace α)) (info : PathInfo) :
      rest.foldl (fun info _ => info.counted) info
        = { info with recordCount := info.recordCount + rest.length } := by
    induction rest generalizing info with
    | nil => rfl
    | cons t rest ih =>
      rw [List.foldl_cons, ih, PathInfo.counted, List.length_cons]
      simp only [Nat.add_assoc, Nat.add_comm 1]
  rw [Order.gathered, hcount, pathOf, openPath, PathInfo.counted]
  simp only [Nat.zero_add, Nat.add_comm 1]

/-- The steps along a row of visits, from the node before it. -/
def stepsFrom : Option String → List (Visit α) → List (Link α)
  | _, [] => []
  | none, visit :: rest => stepsFrom (some visit.node) rest
  | some node, visit :: rest =>
    if node = visit.node then stepsFrom (some visit.node) rest
    else ⟨node, visit.node, visit.path, visit.sample⟩ :: stepsFrom (some visit.node) rest

theorem stepsFrom_eq_linksOf (visits : List (Visit α)) :
    stepsFrom none visits = linksOf visits := by
  cases visits with
  | nil => rfl
  | cons visit rest =>
    rw [stepsFrom]
    induction rest generalizing visit with
    | nil => rfl
    | cons next rest ih =>
      rw [stepsFrom, linksOf, ih]

/-! ## 3. Drafts of nodes -/

theorem namesOnce_eq (seen names : List Json) :
    namesOnce seen names = names.foldl addName seen.reverse := by
  induction names generalizing seen with
  | nil => rfl
  | cons name names ih =>
    rw [namesOnce, List.foldl_cons, addName, List.any_reverse]
    split
    · rw [ih, List.reverse_cons]
    · exact ih seen

theorem namesOnce_concat (names : List Json) (name : Json) :
    namesOnce [] (names ++ [name]) = addName (namesOnce [] names) name := by
  rw [namesOnce_eq, namesOnce_eq, List.foldl_append, List.foldl_cons, List.foldl_nil]

theorem textSet_concat (texts : List String) (s : String) :
    Order.textSet (texts ++ [s]) = Order.insertText s (Order.textSet texts) :=
  Order.textSet_perm List.perm_append_comm

theorem firstGiven_concat (texts : List (Option String)) (s : Option String) :
    firstGiven (texts ++ [s]) = (firstGiven texts <|> given s) := by
  rw [firstGiven, firstGiven, List.findSome?_append, List.findSome?_singleton]
  cases texts.findSome? given <;> rfl

theorem leastDepth_eq_min? (ds : List Nat) : leastDepth ds = ds.min?.getD 0 := by
  cases ds <;> rfl

theorem filterMap_concat {β γ : Type} (f : β → Option γ) (xs : List β) (x : β) :
    (xs ++ [x]).filterMap f = xs.filterMap f ++ (f x).toList := by
  rw [List.filterMap_append]
  cases hx : f x <;> simp [hx]

theorem visitors_concat (visits : List (Visit α)) (visit : Visit α) :
    visitors (visits ++ [visit])
      = if visit.role = .agent then visitors visits
        else Order.insertText visit.source (visitors visits) := by
  rw [visitors, visitors, List.filter_append]
  by_cases hagent : visit.role = .agent
  · simp [hagent]
  · have hkept : [visit].filter (·.role ≠ .agent) = [visit] := by simp [hagent]
    rw [hkept, if_neg hagent, List.map_append, List.map_singleton, textSet_concat]

/-- One more depth is compared with the least one so far. -/
theorem min?_append_toList (depths : List Nat) (depth : Option Nat) :
    (depths ++ depth.toList).min? = lesserDepth depths.min? depth := by
  cases depth with
  | none =>
    rw [Option.toList_none, List.append_nil]
    cases depths <;> rfl
  | some n =>
    cases depths with
    | nil => rfl
    | cons d ds =>
      show some ((ds ++ [n]).foldl min d) = some (min (ds.foldl min d) n)
      rw [List.foldl_append, List.foldl_cons, List.foldl_nil]

theorem roleOf_concat (visits : List (Visit α)) (visit : Visit α) :
    roleOf (visits ++ [visit]) = (roleOf visits).higher visit.role := by
  rw [roleOf, roleOf, List.map_append, List.foldl_append]
  rfl

variable [Scalar α]

/-- A sample that may be missing is taken in when it is there. -/
theorem ofSamples_append_toList (samples : List (Sample α)) (sample : Option (Sample α)) :
    Tally.ofSamples (samples ++ sample.toList)
      = (sample.map (Tally.ofSamples samples).add).getD (Tally.ofSamples samples) := by
  cases sample with
  | none => exact congrArg _ (List.append_nil samples)
  | some sample => exact List.foldl_append

/-- The draft of a node after some visits. -/
def draftOf (visits : List (Visit α)) : NodeDraft α where
  role := roleOf visits
  tally := .ofSamples (visits.filterMap Visit.sample)
  paths := Order.textSet (visits.map Visit.path)
  visitors := visitors visits
  hostNames := namesOnce [] (visits.map Visit.hostName)
  depth := (visits.filterMap Visit.depth).min?
  address := firstGiven (visits.map Visit.address)
  agent := firstGiven (visits.map Visit.agent)
  target := firstGiven (visits.map Visit.target)
  scope := firstGiven (visits.map Visit.scope)

/-- **One more visit** is put down in the draft of its node. -/
theorem touch_draftOf (visits : List (Visit α)) (visit : Visit α) :
    (draftOf visits).touch visit = draftOf (visits ++ [visit]) := by
  simp only [NodeDraft.touch, draftOf, roleOf_concat, filterMap_concat, ofSamples_append_toList,
    visitors_concat, min?_append_toList, List.map_append, List.map_singleton, textSet_concat,
    namesOnce_concat, firstGiven_concat]

/-- The first visit finds no role below its own. -/
theorem touch_opened (visit : Visit α) :
    (NodeDraft.opened visit).touch visit = draftOf [visit] := by
  have hrole : visit.role.higher visit.role = roleOf [visit] := by
    cases hr : visit.role <;> simp [roleOf, hr, Role.higher, Role.rank]
  rw [← List.nil_append [visit], ← touch_draftOf]
  simp only [NodeDraft.touch, NodeDraft.opened, hrole]
  rfl

theorem gathered_touch (visits : List (Visit α)) :
    Order.gathered (draftOf []) .opened .touch visits = draftOf visits := by
  induction visits using List.reverseRecOn with
  | nil => rfl
  | append_singleton visits visit ih =>
    by_cases hfirst : visits = []
    · rw [hfirst]
      exact touch_opened visit
    · rw [Order.gathered_concat _ _ _ hfirst, ih, touch_draftOf]

/-- **The node of a draft** is the node of the visits. -/
theorem node_draftOf (limits : Thresholds α) (id : String) (visits : List (Visit α)) :
    (draftOf visits).node limits id = nodeOf limits id visits := by
  have hnamed (hostName : Json) :
      (draftOf visits).named limits id hostName = nodeNamed limits id visits hostName := by
    simp only [NodeDraft.named, nodeNamed, draftOf, leastDepth_eq_min?]
    cases roleOf visits <;> rfl
  rw [NodeDraft.node, nodeOf, funext hnamed]
  rfl

/-! ## 4. Drafts of edges -/

/-- The draft of an edge after some steps. -/
def edgeDraftOf (steps : List (Link α)) : EdgeDraft α where
  tally := .ofSamples (steps.filterMap Link.sample)
  paths := Order.textSet (steps.map Link.path)

/-- What the steps between two nodes make of an empty draft. -/
theorem gathered_edge (steps : List (Link α)) :
    Order.gathered {} (fun _ => {}) EdgeDraft.touch steps = edgeDraftOf steps := by
  induction steps using List.reverseRecOn with
  | nil => rfl
  | append_singleton steps step ih =>
    have htouch : (edgeDraftOf steps).touch step = edgeDraftOf (steps ++ [step]) := by
      simp only [EdgeDraft.touch, edgeDraftOf, filterMap_concat, ofSamples_append_toList,
        List.map_append, List.map_singleton, textSet_concat]
    by_cases hfirst : steps = []
    · rw [hfirst]
      exact (hfirst ▸ htouch :)
    · rw [Order.gathered_concat _ _ _ hfirst, ih, htouch]

/-! ## 5. Walking -/

/-- A builder that has put down some visits, steps and traces. -/
def Builder.past (builder : Builder α) (visits : List (Visit α)) (steps : List (Link α))
    (traces : List (Trace α)) : Builder α where
  nodes := visits.foldl
    (fun drafts v => Order.into v.node (.opened v) (·.touch v) drafts) builder.nodes
  edges := steps.foldl
    (fun drafts l => Order.into (l.source, l.target) {} (·.touch l) drafts) builder.edges
  paths := (traces.filter Trace.hasHops).foldl
    (fun infos t => Order.into t.pathId (openPath t) PathInfo.counted infos) builder.paths
  skipped := builder.skipped + skippedCount traces

/-- **Walking along a row** puts down its visits and its steps, unless a host name cannot be put
into a set. -/
theorem walk_eq (builder : Builder α) (before : Option String) (visits : List (Visit α)) :
    builder.walk before visits
      = (visits.forM fun v => checkName v.hostName).map fun _ =>
          builder.past visits (stepsFrom before visits) [] := by
  induction visits generalizing builder before with
  | nil => rfl
  | cons visit rest ih =>
    rw [Builder.walk, Builder.touchNode, List.forM_eq_forM, List.forM_cons]
    cases checkName visit.hostName with
    | error fault => rfl
    | ok u =>
      cases before with
      | none => exact ih _ _
      | some node =>
        by_cases hstays : node = visit.node
        · rw [stepsFrom, if_pos hstays]
          exact (if_pos hstays).trans (ih _ _)
        · rw [stepsFrom, if_neg hstays]
          exact (if_neg hstays).trans (ih _ _)

theorem past_past (builder : Builder α) (visits visits' : List (Visit α))
    (steps steps' : List (Link α)) (traces traces' : List (Trace α)) :
    (builder.past visits steps traces).past visits' steps' traces'
      = builder.past (visits ++ visits') (steps ++ steps') (traces ++ traces') := by
  simp only [Builder.past, skippedCount, List.foldl_append, List.filter_append, List.countP_append,
    Nat.add_assoc]

/-- **One more trace** puts down its visits and its steps, and opens or counts its path. -/
theorem add_eq (builder : Builder α) (trace : Trace α) :
    builder.add trace
      = ((visits trace).forM fun v => checkName v.hostName).map fun _ =>
          builder.past (visits trace) (links trace) [trace] := by
  by_cases hhops : trace.hasHops = true
  · have hcount (builder : Builder α) : builder.countPath trace = builder.past [] [] [trace] := by
      simp [Builder.countPath, Builder.past, skippedCount, hhops]
    rw [Builder.add, if_pos hhops, walk_eq, stepsFrom_eq_linksOf, ← links]
    cases (visits trace).forM fun v => checkName v.hostName with
    | error fault => rfl
    | ok u =>
      refine congrArg Except.ok ((hcount _).trans ?_)
      rw [past_past, List.append_nil, List.append_nil, List.nil_append]
  · have hnone : trace.hops = [] := by simpa [Trace.hasHops] using hhops
    have hvisits : visits trace = [] := by
      rw [visits, hnone]
      rfl
    have hskip : { builder with skipped := builder.skipped + 1 } = builder.past [] [] [trace] := by
      simp [Builder.past, skippedCount, hhops]
    rw [Builder.add, if_neg hhops, links, hvisits]
    exact congrArg Except.ok hskip

/-- **After some traces** the drafts are those of all their visits, steps and paths. -/
theorem foldlM_add (builder : Builder α) (traces : List (Trace α)) :
    traces.foldlM Builder.add builder
      = ((traces.flatMap visits).forM fun v => checkName v.hostName).map fun _ =>
          builder.past (traces.flatMap visits) (traces.flatMap links) traces := by
  induction traces generalizing builder with
  | nil => rfl
  | cons trace traces ih =>
    simp only [List.forM_eq_forM] at ih ⊢
    rw [List.foldlM_cons, add_eq, List.flatMap_cons, List.flatMap_cons, List.forM_eq_forM,
      List.forM_append]
    cases forM (visits trace) fun v => checkName v.hostName with
    | error fault => rfl
    | ok u =>
      refine (ih _).trans ?_
      simp only [past_past]
      rfl

/-- A builder that took in some traces has counted those without hops. -/
theorem skipped_of_foldlM_add {traces : List (Trace α)} {builder : Builder α}
    (h : traces.foldlM Builder.add {} = .ok builder) : builder.skipped = skippedCount traces := by
  rw [foldlM_add] at h
  obtain ⟨-, -, rfl⟩ := map_eq_ok.mp h
  exact Nat.zero_add _

end PathAtlas.Topology
