/-
# Actions on the hub

An action changes the hub and can fail on the way; what it did before it failed stays.  Here each
action around a rebuild is run once, step by step (`openAtlas_run`, `rebuild_run`, `command_run`),
so that proofs about the hub read off what it comes to and never open an action again.

What an action can have done when it fails is said by two lemmas.  A rebuild asks the store first
and touches an atlas last (`rebuild_eq_error`); a batch is stored first, command by command, and
only a batch that is stored as a whole is built into anything (`ingest_eq_error`).
-/
import PathAtlas.Proofs.Atlas.FailedRefresh
import PathAtlas.Proofs.Service.Commands
import PathAtlas.Service.Server

namespace PathAtlas.Service

open PathAtlas.Topology

/-! ## 1. Actions -/

namespace Action

variable {σ β γ : Type}

/-- An action that fails keeps what it did; what would come next is not done. -/
theorem run_bind (x : Action σ β) (f : β → Action σ γ) (s : σ) :
    (x >>= f).run s = match x.run s with
      | (.ok b, s') => (f b).run s'
      | (.error fault, s') => (.error fault, s') := by
  show (match x.run s with | (r, s') => (ExceptT.bindCont f r : StateM σ _) s') = _
  rcases x.run s with ⟨_ | b, s'⟩
  · rfl
  · rfl

theorem run_bind_of_error {x : Action σ β} {f : β → Action σ γ} {s s' : σ} {fault : Fault}
    (h : x.run s = (.error fault, s')) : (x >>= f).run s = (.error fault, s') := by
  rw [run_bind, h]

theorem run_get_bind (f : σ → Action σ β) (s : σ) : (get >>= f).run s = (f s).run s := rfl

theorem run_modify_bind (g : σ → σ) (f : PUnit → Action σ β) (s : σ) :
    (modify g >>= f).run s = (f ⟨⟩).run (g s) := rfl

theorem run_lift_bind (r : Except Fault β) (f : β → Action σ γ) (s : σ) :
    (liftM r >>= f : Action σ γ).run s = match r with
      | .ok b => (f b).run s
      | .error fault => (.error fault, s) := by
  cases r <;> rfl

end Action

namespace Hub

/-! ## 2. Rebuilding -/

/-- An atlas that is not there yet is made before it is looked at. -/
theorem openAtlas_run (workspace : String) (hub : Hub) :
    (openAtlas workspace).run hub = match hub.atlases.find? workspace with
      | some atlas => (.ok atlas, hub)
      | none => match Atlas.ofSettings hub.layoutSettings hub.limits with
        | .ok atlas => (.ok atlas, hub.withAtlas workspace atlas)
        | .error fault => (.error fault, hub) := by
  unfold openAtlas
  rw [Action.run_get_bind]
  cases hub.atlases.find? workspace with
  | some atlas => rfl
  | none =>
    simp only
    rw [Action.run_lift_bind]
    cases Atlas.ofSettings hub.layoutSettings hub.limits <;> rfl

/-- A rebuild loads the window, opens the atlas, refreshes it, and counts when nothing failed. -/
theorem rebuild_run (workspace : String) (hub : Hub) :
    (rebuild workspace).run hub = match hub.store.fetchTraces workspace hub.now with
      | .error fault => (.error fault, hub)
      | .ok traces => match (openAtlas workspace).run hub with
        | (.error fault, hub') => (.error fault, hub')
        | (.ok atlas, hub') => match atlas.refresh hub.now traces with
          | (.error fault, atlas) => (.error fault, hub'.withAtlas workspace atlas)
          | (.ok _, atlas) =>
            (.ok atlas, (hub'.withAtlas workspace atlas).count workspace
              (Metrics.afterRebuild atlas)) := by
  unfold rebuild
  rw [Action.run_get_bind, Action.run_lift_bind]
  cases hub.store.fetchTraces workspace hub.now with
  | error fault => rfl
  | ok traces =>
    simp only
    rw [Action.run_bind]
    rcases (openAtlas workspace).run hub with ⟨fault | atlas, hub'⟩
    · rfl
    · simp only
      rw [Action.run_modify_bind, Action.run_lift_bind]
      rcases atlas.refresh hub.now traces with ⟨fault | g, atlas⟩
      · rfl
      · rfl

/-- An atlas is there, or is begun with the settings. -/
theorem openAtlas_eq_ok {workspace : String} {hub hub' : Hub} {atlas : Atlas Float}
    (h : (openAtlas workspace).run hub = (.ok atlas, hub')) :
    hub.atlases.find? workspace = some atlas ∧ hub' = hub ∨
      hub.atlases.find? workspace = none ∧
        Atlas.ofSettings hub.layoutSettings hub.limits = .ok atlas ∧
        hub' = hub.withAtlas workspace atlas := by
  rw [openAtlas_run] at h
  cases hfound : hub.atlases.find? workspace with
  | some found =>
    rw [hfound] at h
    cases h
    exact .inl ⟨rfl, rfl⟩
  | none =>
    rw [hfound] at h
    cases hmade : Atlas.ofSettings hub.layoutSettings hub.limits with
    | error fault =>
      rw [hmade] at h
      cases h
    | ok made =>
      rw [hmade] at h
      cases h
      exact .inr ⟨rfl, rfl, rfl⟩

/-- Settings that are none keep an atlas from being begun, and nothing changes. -/
theorem openAtlas_eq_error {workspace : String} {hub hub' : Hub} {fault : Fault}
    (h : (openAtlas workspace).run hub = (.error fault, hub')) :
    hub.atlases.find? workspace = none ∧
      Atlas.ofSettings hub.layoutSettings hub.limits = .error fault ∧ hub' = hub := by
  rw [openAtlas_run] at h
  cases hfound : hub.atlases.find? workspace with
  | some found =>
    rw [hfound] at h
    cases h
  | none =>
    rw [hfound] at h
    cases hmade : Atlas.ofSettings hub.layoutSettings hub.limits with
    | error fault =>
      rw [hmade] at h
      cases h
      exact ⟨rfl, rfl, rfl⟩
    | ok made =>
      rw [hmade] at h
      cases h

/-- **A rebuild that fails** does so because the window cannot be loaded, because the atlas cannot
be made, or because no graph can be made of the window.  Only then it has done something: the atlas
is there, and has counted a refresh. -/
theorem rebuild_eq_error {workspace : String} {hub hub' : Hub} {fault : Fault}
    (h : (rebuild workspace).run hub = (.error fault, hub')) :
    hub.store.fetchTraces workspace hub.now = .error fault ∧ hub' = hub ∨
      hub.atlases.find? workspace = none ∧
        Atlas.ofSettings hub.layoutSettings hub.limits = .error fault ∧ hub' = hub ∨
      ∃ traces atlas hub₁, hub.store.fetchTraces workspace hub.now = .ok traces ∧
        (openAtlas workspace).run hub = (.ok atlas, hub₁) ∧ Misnamed (Atlas.window traces) ∧
        hub' = hub₁.withAtlas workspace { atlas with generation := atlas.generation + 1 } := by
  rw [rebuild_run] at h
  cases hload : hub.store.fetchTraces workspace hub.now with
  | error loading =>
    rw [hload] at h
    cases h
    exact .inl ⟨rfl, rfl⟩
  | ok traces =>
    simp only [hload] at h
    rcases hopen : (openAtlas workspace).run hub with ⟨opening | atlas, hub₁⟩
    · rw [hopen] at h
      cases h
      obtain ⟨hnone, hmade, rfl⟩ := openAtlas_eq_error hopen
      exact .inr (.inl ⟨hnone, hmade, rfl⟩)
    · simp only [hopen] at h
      rcases hrefresh : atlas.refresh hub.now traces with ⟨refreshing | g, refreshed⟩
      · simp only [hrefresh] at h
        cases h
        have hfails : Fails (atlas.refresh hub.now traces).1 := by
          rw [hrefresh]
          exact fails_error fault
        have hafter := Atlas.refresh_of_fails hfails
        rw [hrefresh] at hafter
        exact .inr (.inr ⟨traces, atlas, hub₁, rfl, rfl,
          (Atlas.fails_refresh_iff ..).mp hfails, hafter ▸ rfl⟩)
      · simp only [hrefresh] at h
        cases h

/-! ## 3. Taking in -/

theorem command_run (commands : Hub → List Command) (hub : Hub) :
    (command commands).run hub = ((hub.store.carryOut (commands hub)).1,
      { hub with store := (hub.store.carryOut (commands hub)).2 }) := rfl

/-- The hub once a batch is stored and counted, before anything is built of it. -/
def takeIn (hub : Hub) (workspace : String) (records : List Json) (replace : Bool) : Hub :=
  countIngested workspace records
    { hub with store := hub.store.add hub.now workspace records replace }

/-- **A batch that fails** does so while it is stored, and then nothing but the store has changed,
or it is stored as a whole, and the rebuild fails. -/
theorem ingest_eq_error {workspace : String} {records : List Json} {replace : Bool}
    {hub hub' : Hub} {fault : Fault}
    (h : (ingest workspace records replace).run hub = (.error fault, hub')) :
    (∃ store', hub.store.carryOut (hub.store.addition hub.now workspace records replace)
        = (.error fault, store') ∧ hub' = { hub with store := store' }) ∨
      (rebuild workspace).run (hub.takeIn workspace records replace) = (.error fault, hub') := by
  unfold ingest at h
  rw [Action.run_bind, command_run] at h
  rcases hstore : hub.store.carryOut (hub.store.addition hub.now workspace records replace)
    with ⟨storing | ⟨⟩, store'⟩
  · rw [hstore] at h
    cases h
    exact .inl ⟨store', rfl, rfl⟩
  · right
    obtain ⟨-, rfl⟩ := Store.carryOut_eq_ok.mp hstore
    rw [hstore] at h
    simp only at h
    rw [Action.run_modify_bind, Action.run_bind] at h
    rcases hrebuild : (rebuild workspace).run (hub.takeIn workspace records replace)
      with ⟨rebuilding | atlas, hub₁⟩
    · rw [takeIn, Store.add] at hrebuild
      rw [hrebuild] at h
      cases h
      rfl
    · rw [takeIn, Store.add] at hrebuild
      rw [hrebuild] at h
      cases h

end Hub

end PathAtlas.Service
