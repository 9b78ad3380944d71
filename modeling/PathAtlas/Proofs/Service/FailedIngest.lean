/-
# A batch that fails

A batch is stored first and built into the graph of its workspace afterwards.  Nothing takes a
batch back, and it can fail in either half.

* **While it is stored** (`Interrupted`).  The keeper of the store refuses a command, or is not
  heard of again.  The commands before it were carried out and stay, those after it are never given:
  records can be there whose workspace is not known, or that are not to expire.  Nothing but the
  store of this workspace has changed.
* **Once it is stored** (`Strands`).  The window cannot be loaded, or no graph can be made of it.
  The records stay in the store, and their workspace is known from then on.  Other workspaces do
  not notice it, and the atlas of its own workspace keeps graph, traces, positions, simulations,
  drags and selection; one that was not there yet may be there now, but there is nothing in it.

A push and a poll come to the same (`ingest_strands`).
-/
import PathAtlas.Proofs.Service.Rebuild
import PathAtlas.Proofs.Service.Window

namespace PathAtlas.Service

open PathAtlas.Topology

/-! ## 1. A new atlas -/

/-- An atlas in which nothing was laid out yet. -/
structure Bare (atlas : Atlas Float) : Prop where
  graph : atlas.graph = none
  traces : atlas.traces = []
  positions : atlas.positions = []
  live : atlas.live = none

/-- Settings choose how an atlas is laid out and put nothing into it. -/
theorem bare_ofSettings {doc : Json} {limits : Thresholds Float} {atlas : Atlas Float}
    (h : Atlas.ofSettings doc limits = .ok atlas) : Bare atlas := by
  simp only [Atlas.ofSettings, bind_eq_ok] at h
  obtain ⟨_, -, _, -, _, -, _, -, _, -, _, -, _, -, _, -, _, -, h⟩ := h
  rw [← Except.ok.inj h]
  exact ⟨rfl, rfl, rfl, rfl⟩

/-! ## 2. What is left behind -/

/-- The atlases after something in a workspace that failed. -/
structure AtlasesKept (workspace : String) (hub hub' : Hub) : Prop where
  elsewhere : ∀ other, other ≠ workspace → hub'.atlases.find? other = hub.atlases.find? other
  /-- All of an atlas stays but for its count. -/
  kept : ∀ atlas, hub.atlases.find? workspace = some atlas →
    ∃ generation, hub'.atlases.find? workspace = some { atlas with generation }
  made : hub.atlases.find? workspace = none →
    ∀ atlas, hub'.atlases.find? workspace = some atlas → Bare atlas

/-- What a batch leaves behind that was not stored as a whole. -/
structure Interrupted (workspace : String) (records : List Json) (replace : Bool) (hub : Hub)
    (fault : Fault) (hub' : Hub) : Prop where
  breaksOff : ∃ done last rest,
    hub.store.BreaksOff (hub.store.addition hub.now workspace records replace) fault hub'.store
      done last rest
  storedElsewhere : ∀ other, other ≠ workspace → Store.Same other hub.store hub'.store
  rest : hub' = { hub with store := hub'.store }

theorem Interrupted.metrics {workspace : String} {records : List Json} {replace : Bool}
    {hub hub' : Hub} {fault : Fault} (h : Interrupted workspace records replace hub fault hub') :
    hub'.metrics = hub.metrics := by
  rw [h.rest]

/-- What a batch leaves behind whose graph was not built. -/
structure Strands (workspace : String) (records : List Json) (replace : Bool) (hub hub' : Hub) :
    Prop extends AtlasesKept workspace hub hub' where
  /-- The batch is stored as if nothing had failed; an empty one trims nothing. -/
  stored : hub'.store.entries workspace
    = if records = [] then hub.store.standing workspace replace
      else if hub.store.forgets hub.store.lookback then []
      else Store.newest hub.store.maxRecords
        (hub.store.standing workspace replace ++ Store.arrived hub.now records)
  storedElsewhere : ∀ other, other ≠ workspace →
    hub'.store.entries other = hub.store.entries other
  known : ∀ other, hub'.store.hasWorkspace other ↔ other = workspace ∨ hub.store.hasWorkspace other

namespace Hub

variable {workspace : String} {records : List Json} {replace : Bool} {hub hub' : Hub}
  {fault : Fault}

theorem find?_withAtlas_self (hub : Hub) (workspace : String) (atlas : Atlas Float) :
    (hub.withAtlas workspace atlas).atlases.find? workspace = some atlas :=
  Table.find?_set_self workspace atlas hub.atlases

theorem find?_withAtlas_of_ne {other : String} (h : other ≠ workspace) (hub : Hub)
    (atlas : Atlas Float) :
    (hub.withAtlas workspace atlas).atlases.find? other = hub.atlases.find? other :=
  Table.find?_set_of_ne h atlas hub.atlases

theorem atlasesKept_refl (workspace : String) (hub : Hub) : AtlasesKept workspace hub hub where
  elsewhere _ _ := rfl
  kept atlas h := ⟨atlas.generation, h⟩
  made hnone _ h := nomatch hnone.symm.trans h

/-- A rebuild that fails counts a refresh of the atlas, which is there then, and touches no stored
record. -/
theorem kept_of_rebuild_error (h : (rebuild workspace).run hub = (.error fault, hub')) :
    AtlasesKept workspace hub hub' ∧ hub'.store = hub.store := by
  rcases rebuild_eq_error h with
    ⟨-, rfl⟩ | ⟨-, -, rfl⟩ | ⟨traces, atlas, hub₁, -, hopen, -, rfl⟩
  · exact ⟨atlasesKept_refl workspace hub', rfl⟩
  · exact ⟨atlasesKept_refl workspace hub', rfl⟩
  · rcases openAtlas_eq_ok hopen with ⟨hfound, rfl⟩ | ⟨hnone, hmade, rfl⟩
    · refine ⟨⟨fun other hne => ?_, fun found h => ?_, fun h => ?_⟩, rfl⟩
      · rw [find?_withAtlas_of_ne hne]
      · cases hfound.symm.trans h
        exact ⟨_, find?_withAtlas_self _ _ _⟩
      · cases hfound.symm.trans h
    · refine ⟨⟨fun other hne => ?_, fun found h => ?_, fun _ made h => ?_⟩, rfl⟩
      · rw [find?_withAtlas_of_ne hne, find?_withAtlas_of_ne hne]
      · cases hnone.symm.trans h
      · rw [find?_withAtlas_self] at h
        cases h
        obtain ⟨hgraph, htraces, hpositions, hlive⟩ := bare_ofSettings hmade
        exact ⟨hgraph, htraces, hpositions, hlive⟩

/-- An addition that breaks off leaves what its commands did until then. -/
theorem interrupted_of_error {store' : Store}
    (h : hub.store.carryOut (hub.store.addition hub.now workspace records replace)
      = (.error fault, store')) :
    Interrupted workspace records replace hub fault { hub with store := store' } where
  breaksOff := Store.carryOut_eq_error h
  storedElsewhere other hne := by
    have hothers : ∀ c ∈ hub.store.addition hub.now workspace records replace,
        other ≠ c.workspace := fun c hc =>
      hub.store.workspace_of_mem_addition hub.now workspace records replace c hc ▸ hne
    have hsame := Store.same_carryOut_of_ne hothers hub.store
    rwa [h] at hsame
  rest := rfl

/-- A rebuild that fails leaves the records in the store. -/
theorem strands_of_error
    (h : (rebuild workspace).run (hub.takeIn workspace records replace) = (.error fault, hub')) :
    Strands workspace records replace hub hub' := by
  obtain ⟨hatlases, hstore⟩ := kept_of_rebuild_error h
  -- taking the batch in touches no atlas
  have hkept : AtlasesKept workspace hub hub' :=
    ⟨hatlases.elsewhere, hatlases.kept, hatlases.made⟩
  have hadded : hub'.store = hub.store.add hub.now workspace records replace := hstore
  refine ⟨hkept, ?_, fun other hne => ?_, fun other => ?_⟩
  · rw [hadded, Store.entries_add]
  · rw [hadded, Store.add]
    refine (Store.same_foldl_obey_of_ne (fun c hc => ?_) hub.store).entries
    exact hub.store.workspace_of_mem_addition hub.now workspace records replace c hc ▸ hne
  · rw [hadded, Store.hasWorkspace_add]

/-! ## 3. Pushes and polls -/

/-- A push that brings records for a workspace. -/
def Brings (i : Inquiry) (workspace : String) (records : List Json) (replace : Bool) : Prop :=
  ∃ body name flag, i.body = .ok body ∧ body.memberD "records" .null = .ok (.list records) ∧
    body.memberD "workspace" (.text defaultWorkspace) = .ok name ∧ name.display = workspace ∧
    body.memberD "replace" (.bool false) = .ok flag ∧ flag.isPresent = replace

/-- A push that fails is answered with the fault. -/
theorem push_of_error {i : Inquiry} (hbrings : Brings i workspace records replace)
    (h : (ingest workspace records replace).run hub = (.error fault, hub')) :
    answering (fun _ => 400) (handleIngest i) hub = (.trouble 400 fault.message, hub') := by
  obtain ⟨body, name, flag, hbody, hrecords, hname, rfl, hflag, rfl⟩ := hbrings
  have hrun : (handleIngest i).run hub = (.error fault, hub') := by
    unfold handleIngest
    rw [hbody, Action.run_lift_bind]
    simp only
    rw [hrecords, Action.run_lift_bind]
    simp only
    rw [hname, Action.run_lift_bind]
    simp only
    rw [hflag, Action.run_lift_bind]
    exact Action.run_bind_of_error h
  rw [answering, hrun]

theorem poll_of_error (h : (ingest workspace records true).run hub = (.error fault, hub')) :
    Server.replaceWindow (.text workspace) records hub = (.error fault, hub') := by
  simp only [Server.replaceWindow, h]
  rfl

/-- **A batch that fails**, be it pushed or polled, is answered with its fault.  Either it was not
stored as a whole, and what was stored of it is all that has changed; or it stays in the store and
makes its workspace known, no other workspace is touched, and of the atlases nothing but a count
changes, except that a bare one may have come. -/
theorem ingest_strands (h : (ingest workspace records replace).run hub = (.error fault, hub')) :
    (Interrupted workspace records replace hub fault hub' ∨
      Strands workspace records replace hub hub') ∧
    (∀ i, Brings i workspace records replace →
      answering (fun _ => 400) (handleIngest i) hub = (.trouble 400 fault.message, hub')) ∧
    (replace = true →
      Server.replaceWindow (.text workspace) records hub = (.error fault, hub')) := by
  refine ⟨?_, fun i hbrings => push_of_error hbrings h, fun hreplace => ?_⟩
  · rcases ingest_eq_error h with ⟨store', hstore, rfl⟩ | hrebuild
    · exact .inl (interrupted_of_error hstore)
    · exact .inr (strands_of_error hrebuild)
  · rw [hreplace] at h
    exact poll_of_error h

def quiet : Hub where
  layoutSettings := .null
  limits := .standard
  store := { lookback := .whole 3600, maxRecords := 5000 }
  now := 1000

/-- A report whose answering host has a list for a name. -/
def listNamedHop : Json :=
  .mapping
    [("agent_id", .whole 1), ("target", .text "10.0.0.9"),
     ("hops", .list [.mapping [("ttl", .whole 1), ("sent", .whole 3),
       ("hosts", .list [.mapping [("ip", .text "10.0.0.1"), ("hostname", .list [.whole 1])]])]])]

/-- Nothing is heard of the keeper once a list is to be trimmed. -/
def breakingFate : Command → Fate
  | .trim .. => .unheard (.storeRefused "Connection closed by server.")
  | .delete _ | .push .. | .expire .. | .enlist _ | .strike _ | .range _ | .member _ => .done

/-- A hub without records whose store breaks off. -/
def breaking : Hub :=
  { quiet with store := { quiet.store with keeper := { fate := breakingFate } } }

/-- A report that cannot be read stays in the store; one of which no graph can be made leaves an
atlas behind; and one whose store breaks off is stored in a workspace that is not known. -/
theorem ingest_leaves_traces :
    let unread := (ingest "default" [Store.spelledCount] false).run quiet
    let unbuilt := (ingest "default" [listNamedHop] false).run quiet
    let unheard := (ingest "default" [Store.countedHop] false).run breaking
    unread.1.isOk = false ∧ unbuilt.1.isOk = false ∧ unheard.1.isOk = false ∧
    (quiet.store.entries "default").length = 0 ∧
    (unread.2.store.entries "default").length = 1 ∧
    (unheard.2.store.entries "default").length = 1 ∧
    quiet.store.hasWorkspace "default" = false ∧
    unread.2.store.hasWorkspace "default" = true ∧
    unheard.2.store.hasWorkspace "default" = false ∧
    (quiet.atlases.find? "default").isSome = false ∧
    (unbuilt.2.atlases.find? "default").isSome = true := by
  decide +kernel

/-- A hub after one batch that went well. -/
def visited : Hub := ((ingest "default" [Store.countedHop] false).run quiet).2

/-- A push that replaces the records of the default workspace by one that cannot be read. -/
def spelledPush : Inquiry where
  body := .ok (.mapping [("records", .list [Store.spelledCount]), ("replace", .bool true)])

/-- What cannot be read is stored all the same, and what breaks off is not counted. -/
theorem ingest_strands_visited : (∃ fault hub',
    (ingest "default" [Store.spelledCount] true).run visited = (.error fault, hub') ∧
    (visited.atlases.find? "default").isSome = true ∧
    Strands "default" [Store.spelledCount] true visited hub' ∧
    answering (fun _ => 400) (handleIngest spelledPush) visited
      = (.trouble 400 fault.message, hub') ∧
    Server.replaceWindow (.text "default") [Store.spelledCount] visited
      = (.error fault, hub')) ∧
    ∃ fault hub',
      (ingest "default" [Store.countedHop] false).run breaking = (.error fault, hub') ∧
      Interrupted "default" [Store.countedHop] false breaking fault hub' := by
  have hfails : ((ingest "default" [Store.spelledCount] true).run visited).1.isOk = false := by
    decide +kernel
  have hbrings : Brings spelledPush "default" [Store.spelledCount] true :=
    ⟨_, .text defaultWorkspace, .bool true, rfl, rfl, rfl, rfl, rfl, rfl⟩
  -- a batch that is not stored as a whole is not counted
  have hcounted : ((ingest "default" [Store.spelledCount] true).run visited).2.metrics.find?
      "default" ≠ visited.metrics.find? "default" := by
    decide +kernel
  have hbreaks : ((ingest "default" [Store.countedHop] false).run breaking).1.isOk = false ∧
      ((ingest "default" [Store.countedHop] false).run breaking).2.store.hasWorkspace "default"
        = false := by
    decide +kernel
  constructor
  · rcases hrun : (ingest "default" [Store.spelledCount] true).run visited with ⟨fault | n, hub'⟩
    · obtain ⟨hleft, hpush, hpoll⟩ := ingest_strands hrun
      rw [hrun] at hcounted
      have hstrands := hleft.resolve_left fun h => hcounted (by rw [h.metrics])
      exact ⟨fault, hub', rfl, by decide +kernel, hstrands, hpush spelledPush hbrings, hpoll rfl⟩
    · rw [hrun] at hfails
      cases hfails
  · rcases hrun : (ingest "default" [Store.countedHop] false).run breaking with ⟨fault | n, hub'⟩
    · rw [hrun] at hbreaks
      have hinterrupted := (ingest_strands hrun).1.resolve_right fun h =>
        absurd ((h.known "default").mpr (.inl rfl)) (by simp [hbreaks.2])
      exact ⟨fault, hub', rfl, hinterrupted⟩
    · rw [hrun] at hbreaks
      cases hbreaks.1

end Hub

end PathAtlas.Service
