/-
# What stays within a workspace

All workspaces are in one hub, and a request runs on the whole of it.  Two hubs are the same to a
workspace when they agree in its atlas, in the time and the settings, and when their stores are the
same to it (`Hub.Same`).  Something is confined to a workspace when it comes to the same in hubs
that are the same to it, and leaves the hub the same to every other one (`Confined`).

What is confined is put together from confined parts (`Confined.andThen`): reading what belongs to
the workspace, replacing its atlas, giving the store commands that name it, and counting, which
nobody can look at.  That a command can fail makes no difference: it is the same command in both
hubs, so it fails in both or in none, and a failure leaves behind what the commands before it did.
-/
import PathAtlas.Proofs.Service.FailedIngest

namespace PathAtlas.Service

/-! ## 1. The hub as a workspace sees it -/

/-- Two hubs that are the same to a workspace. -/
structure Hub.Same (workspace : String) (hub hub' : Hub) : Prop where
  layoutSettings : hub'.layoutSettings = hub.layoutSettings
  limits : hub'.limits = hub.limits
  now : hub'.now = hub.now
  store : Store.Same workspace hub.store hub'.store
  atlas : hub'.atlases.find? workspace = hub.atlases.find? workspace

namespace Hub

variable {w other : String} {hub hub' hub'' : Hub}

theorem Same.refl (w : String) (hub : Hub) : Same w hub hub :=
  ⟨rfl, rfl, rfl, .refl w hub.store, rfl⟩

theorem Same.symm (h : Same w hub hub') : Same w hub' hub :=
  ⟨h.layoutSettings.symm, h.limits.symm, h.now.symm, h.store.symm, h.atlas.symm⟩

theorem Same.trans (h : Same w hub hub') (h' : Same w hub' hub'') : Same w hub hub'' where
  layoutSettings := h'.layoutSettings.trans h.layoutSettings
  limits := h'.limits.trans h.limits
  now := h'.now.trans h.now
  store := h.store.trans h'.store
  atlas := h'.atlas.trans h.atlas

/-- Hubs that are the same load the same, or fail to in the same way. -/
theorem Same.fetchTraces (h : Same w hub hub') :
    hub'.store.fetchTraces w hub'.now = hub.store.fetchTraces w hub.now := by
  rw [Store.fetchTraces, Store.fetchTraces, Store.heard, Store.heard, Store.loadTraces,
    Store.loadTraces, h.store.keeper, h.store.lookback, h.store.entries, h.now]

theorem Same.knows (h : Same w hub hub') : hub'.store.knows w = hub.store.knows w := by
  rw [Store.knows, Store.knows, Store.heard, Store.heard, h.store.keeper, h.store.known]

theorem same_withAtlas_of_ne (h : other ≠ w) (hub : Hub) (atlas : Atlas Float) :
    Same other hub (hub.withAtlas w atlas) :=
  ⟨rfl, rfl, rfl, .refl other hub.store, find?_withAtlas_of_ne h hub atlas⟩

theorem Same.withAtlas (h : Same w hub hub') (atlas : Atlas Float) :
    Same w (hub.withAtlas w atlas) (hub'.withAtlas w atlas) where
  layoutSettings := h.layoutSettings
  limits := h.limits
  now := h.now
  store := h.store
  atlas := by rw [find?_withAtlas_self, find?_withAtlas_self]

/-- Nobody sees what is counted. -/
theorem same_count (hub : Hub) (w : String) (f : Metrics → Metrics) :
    Same other hub (hub.count w f) :=
  ⟨rfl, rfl, rfl, .refl other hub.store, rfl⟩

theorem Same.count (h : Same w hub hub') (f : Metrics → Metrics) :
    Same w (hub.count w f) (hub'.count w f) :=
  ⟨h.layoutSettings, h.limits, h.now, h.store, h.atlas⟩

end Hub

/-! ## 2. Confinement -/

/-- What comes to the same in hubs that are the same to a workspace, and leaves the hub the same to
every other one. -/
structure Confined {ρ : Type} (workspace : String) (f : Hub → ρ × Hub) : Prop where
  determined : ∀ {hub hub' : Hub}, Hub.Same workspace hub hub' →
    (f hub').1 = (f hub).1 ∧ Hub.Same workspace (f hub).2 (f hub').2
  elsewhere : ∀ (hub : Hub) (other : String), other ≠ workspace → Hub.Same other hub (f hub).2

/-- An action that is confined to a workspace. -/
def Within {β : Type} (workspace : String) (x : Action Hub β) : Prop :=
  Confined workspace fun hub => x.run hub

section Parts

variable {ρ τ β γ : Type} {w : String}

theorem confined_of_unchanged (r : ρ) : Confined w fun hub => (r, hub) where
  determined hsame := ⟨rfl, hsame⟩
  elsewhere hub other _ := .refl other hub

/-- **One after the other**: what goes on in a confined way after every outcome of something
confined is confined as a whole. -/
theorem Confined.andThen {f : Hub → ρ × Hub} {whole : Hub → τ × Hub} (hf : Confined w f)
    (hrest : ∀ r, ∃ g, Confined w g ∧ ∀ {hub hub₁}, f hub = (r, hub₁) → whole hub = g hub₁) :
    Confined w whole where
  determined {hub hub'} hsame := by
    obtain ⟨houtcome, hafter⟩ := hf.determined hsame
    obtain ⟨g, hg, hwhole⟩ := hrest (f hub).1
    have hhub : whole hub = g (f hub).2 := hwhole rfl
    have hhub' : whole hub' = g (f hub').2 := hwhole (Prod.ext houtcome rfl)
    rw [hhub, hhub']
    exact hg.determined hafter
  elsewhere hub other hne := by
    obtain ⟨g, hg, hwhole⟩ := hrest (f hub).1
    have hhub : whole hub = g (f hub).2 := hwhole rfl
    rw [hhub]
    exact (hf.elsewhere hub other hne).trans (hg.elsewhere _ other hne)

theorem within_pure (b : β) : Within w (pure b : Action Hub β) :=
  confined_of_unchanged (Except.ok b : Except Fault β)

theorem within_throw (fault : Fault) : Within w (throw fault : Action Hub β) :=
  confined_of_unchanged (Except.error fault : Except Fault β)

theorem within_bind {x : Action Hub β} {f : β → Action Hub γ} (hx : Within w x)
    (hf : ∀ b, Within w (f b)) : Within w (x >>= f) := by
  refine hx.andThen fun r => ?_
  cases r with
  | error fault =>
    exact ⟨_, confined_of_unchanged (.error fault), fun h => Action.run_bind_of_error h⟩
  | ok b => exact ⟨_, hf b, fun h => by rw [Action.run_bind, h]⟩

/-- An outcome that is there already is no part of the hub. -/
theorem within_lift_bind {r : Except Fault β} {f : β → Action Hub γ}
    (h : ∀ b, r = .ok b → Within w (f b)) : Within w (liftM r >>= f) := by
  cases r with
  | error fault => exact within_throw fault
  | ok b => exact h b rfl

/-- What is read has to be the same in hubs that are the same. -/
theorem within_get_bind {f : Hub → Action Hub β}
    (hsame : ∀ hub hub', Hub.Same w hub hub' → f hub' = f hub) (h : ∀ hub, Within w (f hub)) :
    Within w (get >>= f) where
  determined {hub hub'} hhub := by
    rw [Action.run_get_bind, Action.run_get_bind, hsame hub hub' hhub]
    exact (h hub).determined hhub
  elsewhere hub other hne := by
    rw [Action.run_get_bind]
    exact (h hub).elsewhere hub other hne

theorem within_modify {g : Hub → Hub}
    (hself : ∀ hub hub', Hub.Same w hub hub' → Hub.Same w (g hub) (g hub'))
    (helse : ∀ hub other, other ≠ w → Hub.Same other hub (g hub)) :
    Within w (modify g : Action Hub PUnit) where
  determined hsame := ⟨rfl, hself _ _ hsame⟩
  elsewhere hub other hne := helse hub other hne

end Parts

/-! ## 3. What is done in a workspace -/

namespace Hub

variable {w : String}

theorem within_withAtlas (w : String) (atlas : Atlas Float) :
    Within w (modify (·.withAtlas w atlas) : Action Hub PUnit) :=
  within_modify (fun _ _ h => h.withAtlas atlas) fun hub _ hne => same_withAtlas_of_ne hne hub atlas

theorem within_count (w : String) (f : Metrics → Metrics) :
    Within w (modify (·.count w f) : Action Hub PUnit) :=
  within_modify (fun _ _ h => h.count f) fun hub _ _ => same_count hub w f

/-- **Commands** that name a workspace, and are the same in hubs that are the same to it, are
confined to it, wherever they end. -/
theorem within_command {commands : Hub → List Command}
    (hsame : ∀ hub hub', Hub.Same w hub hub' → commands hub' = commands hub)
    (hname : ∀ hub, ∀ c ∈ commands hub, c.workspace = w) : Within w (command commands) where
  determined {hub hub'} h := by
    obtain ⟨houtcome, hstore⟩ := h.store.carryOut (commands hub)
    rw [command_run, command_run, hsame hub hub' h]
    exact ⟨houtcome, h.layoutSettings, h.limits, h.now, hstore, h.atlas⟩
  elsewhere hub other hne := by
    rw [command_run]
    refine ⟨rfl, rfl, rfl, Store.same_carryOut_of_ne (fun c hc => ?_) hub.store, rfl⟩
    exact hname hub c hc ▸ hne

/-- Opening the atlas of a workspace is confined to it. -/
theorem within_openAtlas (w : String) : Within w (openAtlas w) where
  determined {hub hub'} hsame := by
    rw [openAtlas_run, openAtlas_run, hsame.atlas, hsame.layoutSettings, hsame.limits]
    cases hub.atlases.find? w with
    | some atlas => exact ⟨rfl, hsame⟩
    | none =>
      cases Atlas.ofSettings hub.layoutSettings hub.limits with
      | error fault => exact ⟨rfl, hsame⟩
      | ok atlas => exact ⟨rfl, hsame.withAtlas atlas⟩
  elsewhere hub other hne := by
    rw [openAtlas_run]
    cases hub.atlases.find? w with
    | some atlas => exact .refl other hub
    | none =>
      cases Atlas.ofSettings hub.layoutSettings hub.limits with
      | error fault => exact .refl other hub
      | ok atlas => exact same_withAtlas_of_ne hne hub atlas

/-- **A rebuild** is confined to its workspace. -/
theorem within_rebuild (w : String) : Within w (rebuild w) := by
  unfold rebuild
  refine within_get_bind (fun hub hub' h => by rw [h.fetchTraces, h.now]) fun hub => ?_
  refine within_lift_bind fun traces _ => within_bind (within_openAtlas w) fun atlas => ?_
  refine within_bind (within_withAtlas w _) fun _ => ?_
  exact within_lift_bind fun _ _ => within_bind (within_count w _) fun _ => within_pure _

/-- **A batch** is confined to its workspace. -/
theorem within_ingest (w : String) (records : List Json) (replace : Bool) :
    Within w (ingest w records replace) := by
  unfold ingest
  refine within_bind (within_command ?_ ?_) fun _ => ?_
  · exact fun hub hub' h => by rw [h.now, Store.same_addition h.store]
  · exact fun hub => hub.store.workspace_of_mem_addition hub.now w records replace
  · refine within_bind (within_count w _) fun _ => ?_
    exact within_bind (within_rebuild w) fun _ => within_pure _

/-- **Looking at an atlas**, which may have to be built for it, is confined to its workspace. -/
theorem within_atlasOf (w : String) : Within w (atlasOf w) := by
  unfold atlasOf
  refine within_get_bind (fun hub hub' h => by rw [h.atlas, h.knows]) fun hub => ?_
  cases hub.atlases.find? w with
  | some atlas => exact within_pure atlas
  | none =>
    refine within_lift_bind fun known _ => ?_
    split
    · exact within_rebuild w
    · exact within_throw _

end Hub

end PathAtlas.Service
