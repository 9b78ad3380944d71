/-
# Silent hops

Nothing tells which silent hops are the same router, so a silent hop is a node of its own for every
source and depth.  Its node has a made-up name that spells both, and the isolation rests on two
things: the name is spelled unambiguously (`silentId_inj`), and no other node has a name of that
kind, which holds as long as no address and no target begins like one (`Plain`).

Then every visit to such a node is that of a silent hop of one source at one depth
(`eq_silentVisit`), all of them tell the same, and what the node shows is known field by field
(`AllSilent.nodeNamed`).  `silent_hops_isolated` puts it together for the graph of any traces.
-/
import PathAtlas.Proofs.Topology.OrderIndependence

namespace PathAtlas.Topology

variable {α : Type}

/-! ## 1. Names of silent hops -/

/-- A text that begins like the name of a silent hop's node. -/
def LooksSilent (s : String) : Prop := "unknown:".toList <+: s.toList

instance (s : String) : Decidable (LooksSilent s) :=
  inferInstanceAs (Decidable ("unknown:".toList <+: s.toList))

/-- A trace with a source, of which no address and not the target look like a silent hop. -/
structure Plain (trace : Trace α) : Prop where
  source : trace.source ≠ ""
  address : ∀ hop ∈ trace.hops, ∀ a ∈ hop.address, ¬ LooksSilent a
  target : ¬ LooksSilent trace.target

theorem looksSilent_silentId (source : String) (depth : Nat) :
    LooksSilent (silentId source depth) := by
  rw [LooksSilent, silentId, String.append_assoc, String.append_assoc, String.toList_append]
  exact List.prefix_append _ _

theorem not_looksSilent_agentId (agent : String) : ¬ LooksSilent (agentId agent) := by
  intro h
  rw [LooksSilent, agentId, String.toList_append] at h
  exact absurd (List.cons_prefix_cons.mp h).1 (by decide)

/-- The destination is no silent hop. -/
theorem Plain.destinationId {trace : Trace α} (h : Plain trace) :
    ¬ LooksSilent (destinationId trace) := by
  unfold Topology.destinationId
  split
  · exact not_looksSilent_agentId _
  · exact h.target

/-! ## 2. Visits of silent hops -/

/-- The hop at a place of a trace, counted from nought, did not answer. -/
def SilentAt (trace : Trace α) (i : Nat) : Prop :=
  ∃ hop, trace.hops[i]? = some hop ∧ hop.responds = false

/-- What a silent hop tells: its source and its depth. -/
def silentVisit (trace : Trace α) (depth : Nat) : Visit α :=
  { node := silentId trace.source depth, role := .hop, source := trace.source
    path := trace.pathId, scope := some trace.source, depth := some depth }

theorem hopVisit_of_silent (trace : Trace α) {hop : Hop α} (h : hop.responds = false)
    (depth : Nat) : hopVisit trace hop depth = silentVisit trace depth := by
  have hnone : hop.address = none := by
    rw [Hop.address, Option.map_eq_none_iff]
    exact Option.isNone_iff_eq_none.mp (by simpa [Hop.responds] using h)
  simp only [hopVisit, hnone]
  rfl

/-- The visit of a hop that answered is to its address. -/
theorem hopVisit_cases (trace : Trace α) (hop : Hop α) (depth : Nat) :
    hop.responds = false ∧ hopVisit trace hop depth = silentVisit trace depth ∨
      hop.address = some (hopVisit trace hop depth).node := by
  cases h : hop.responds with
  | false => exact .inl ⟨rfl, hopVisit_of_silent trace h depth⟩
  | true =>
    obtain ⟨host, hhost⟩ := Option.isSome_iff_exists.mp h
    have haddress : hop.address = some host.address := by rw [Hop.address, hhost]; rfl
    exact .inr (by rw [node_hopVisit trace haddress, haddress])

/-- A silent hop is visited in its place, on its own. -/
theorem getElem?_visits_of_silent {trace : Trace α} (hplain : Plain trace) {i : Nat}
    (h : SilentAt trace i) : (visits trace)[i + 1]? = some (silentVisit trace (i + 1)) := by
  obtain ⟨hop, hhop, hsilent⟩ := h
  rcases getElem?_visits hhop with hvisit | ⟨hnode, -⟩
  · rw [hvisit, hopVisit_of_silent trace hsilent]
  · rw [hopVisit_of_silent trace hsilent, node_endVisit] at hnode
    exact absurd (hnode ▸ looksSilent_silentId _ _) hplain.destinationId

/-- **Whoever visits the node of a silent hop** is a silent hop of that source and depth. -/
theorem eq_silentVisit {trace : Trace α} (hplain : Plain trace) {v : Visit α}
    (h : v ∈ visits trace) {source : String} {i : Nat} (hv : v.node = silentId source (i + 1)) :
    trace.source = source ∧ SilentAt trace i ∧ v = silentVisit trace (i + 1) := by
  have hlooks : LooksSilent v.node := hv ▸ looksSilent_silentId _ _
  rcases mem_visits h with rfl | ⟨j, hop, hhop, rfl⟩ | ⟨last, -, rfl⟩ |
    ⟨j, hop, -, last, -, hnode, rfl⟩
  · exact absurd hlooks (not_looksSilent_agentId _)
  · rcases hopVisit_cases trace hop (j + 1) with ⟨hsilent, heq⟩ | haddress
    · rw [heq] at hv ⊢
      obtain ⟨hsource, hdepth⟩ := silentId_inj.mp hv
      obtain rfl := Nat.succ.inj hdepth
      exact ⟨hsource, ⟨hop, hhop, hsilent⟩, rfl⟩
    · exact absurd hlooks (hplain.address hop (List.mem_of_getElem? hhop) _ haddress)
  · exact absurd (node_endVisit trace last ▸ hlooks) hplain.destinationId
  · have hmerged : (mergedVisit (hopVisit trace hop (j + 1)) (endVisit trace last)).node
        = destinationId trace := hnode.trans (node_endVisit trace last)
    exact absurd (hmerged ▸ hlooks) hplain.destinationId

/-! ## 3. The node of a silent hop -/

/-- All of some visits, of which there are any, are those of silent hops of one source at one
depth. -/
structure AllSilent (source : String) (depth : Nat) (vs : List (Visit α)) : Prop where
  nonempty : vs ≠ []
  silent : ∀ v ∈ vs, ∃ trace : Trace α, trace.source = source ∧ v = silentVisit trace depth

/-- All visits to the node of a silent hop are silent ones of its source. -/
theorem allSilent_visitsAt {traces : List (Trace α)} (hplain : ∀ t ∈ traces, Plain t)
    {t : Trace α} (ht : t ∈ traces) {i : Nat} (h : SilentAt t i) :
    AllSilent t.source (i + 1) (visitsAt traces (silentId t.source (i + 1))) where
  nonempty := by
    have hplace := List.mem_of_getElem? (getElem?_visits_of_silent (hplain t ht) h)
    exact List.ne_nil_of_mem (mem_visitsAt.mpr ⟨t, ht, hplace, rfl⟩)
  silent v hv := by
    obtain ⟨t', ht', hmem, hnode⟩ := mem_visitsAt.mp hv
    obtain ⟨hsource, -, heq⟩ := eq_silentVisit (hplain t' ht') hmem hnode
    exact ⟨t', hsource, heq⟩

/-- Texts that are all the same one have it for their first. -/
theorem firstGiven_of_forall {s : String} (hs : s ≠ "") {texts : List (Option String)}
    (hne : texts ≠ []) (h : ∀ t ∈ texts, t = some s) : firstGiven texts = some s := by
  obtain ⟨t, texts, rfl⟩ := List.exists_cons_of_ne_nil hne
  obtain rfl := h t List.mem_cons_self
  simp [firstGiven, given, hs]

theorem leastDepth_of_forall {d : Nat} {depths : List Nat} (hne : depths ≠ [])
    (h : ∀ n ∈ depths, n = d) : leastDepth depths = d := by
  have hmin : depths.min? = some d := by
    rw [List.min?_eq_some_iff]
    obtain ⟨n, hn⟩ := List.exists_mem_of_ne_nil depths hne
    exact ⟨h n hn ▸ hn, fun n hn => (h n hn).ge⟩
  rw [leastDepth_eq, hmin]
  rfl

/-- A set of copies of one text. -/
theorem textSet_of_forall {s : String} {texts : List String} (hne : texts ≠ [])
    (h : ∀ t ∈ texts, t = s) : Order.textSet texts = [s] := by
  refine (Order.textSet_eq_of_mem_iff fun t => ?_ : _ = Order.textSet [s])
  rw [List.mem_singleton]
  constructor
  · exact h t
  · rintro rfl
    obtain ⟨t', ht'⟩ := List.exists_mem_of_ne_nil texts hne
    exact h t' ht' ▸ ht'

namespace AllSilent

variable {source : String} {depth : Nat} {vs : List (Visit α)} (h : AllSilent source depth vs)
include h

/-- What depends on source and depth alone is the same for all of the visits. -/
theorem field {γ : Type} (f : Visit α → γ) {c : γ}
    (hfield : ∀ trace : Trace α, trace.source = source → f (silentVisit trace depth) = c) :
    ∀ x ∈ vs.map f, x = c := by
  intro x hx
  obtain ⟨v, hv, rfl⟩ := List.mem_map.mp hx
  obtain ⟨trace, hsource, rfl⟩ := h.silent v hv
  exact hfield trace hsource

theorem leastName {name : Json} (hleast : leastName (vs.map Visit.hostName) = .ok name) :
    name = .null := by
  have hnull := h.field Visit.hostName fun _ _ => rfl
  rcases leastName_eq_ok (fun n hn hpresent => by simp [hnull n hn, Json.isPresent] at hpresent)
    hleast with ⟨hm, -⟩ | ⟨hm, -⟩
  · exact hm
  · exact hnull _ hm

theorem roleOf : roleOf vs = .hop := by
  obtain ⟨v, hv, hrole⟩ := (roleOf_spec h.nonempty).1
  exact hrole ▸ h.field Visit.role (fun _ _ => rfl) _ (List.mem_map_of_mem hv)

theorem address : firstGiven (vs.map Visit.address) = none := by
  rw [firstGiven, List.findSome?_eq_none_iff]
  intro a ha
  rw [h.field Visit.address (fun _ _ => rfl) a ha]
  rfl

theorem scope (hsource : source ≠ "") : firstGiven (vs.map Visit.scope) = some source :=
  firstGiven_of_forall hsource (by simpa using h.nonempty)
    (h.field Visit.scope fun _ hs => congrArg some hs)

theorem samples : vs.filterMap Visit.sample = [] :=
  List.filterMap_eq_nil_iff.mpr fun _ hv =>
    h.field Visit.sample (fun _ _ => rfl) _ (List.mem_map_of_mem hv)

theorem leastDepth : leastDepth (vs.filterMap Visit.depth) = depth := by
  have hdepths : vs.filterMap Visit.depth = vs.map fun _ => depth := by
    rw [← List.filterMap_eq_map]
    refine List.filterMap_congr fun v hv => ?_
    exact h.field Visit.depth (fun _ _ => rfl) _ (List.mem_map_of_mem hv)
  rw [hdepths]
  exact leastDepth_of_forall (by simpa using h.nonempty) (by simp)

theorem visitors : visitors vs = [source] := by
  have hroles : vs.filter (·.role ≠ .agent) = vs := by
    refine List.filter_eq_self.mpr fun v hv => ?_
    rw [h.field Visit.role (fun _ _ => rfl) _ (List.mem_map_of_mem hv)]
    rfl
  rw [Topology.visitors, hroles]
  exact textSet_of_forall (by simpa using h.nonempty) (h.field Visit.source fun _ hs => hs)

/-- **What such visits make** is a hop without address, name and samples, known to one source. -/
theorem nodeNamed [Scalar α] (hsource : source ≠ "") (limits : Thresholds α) (id : String) :
    nodeNamed limits id vs .null =
      { id, label := .text wildcard, stats := {}, paths := Order.textSet (vs.map Visit.path)
        status := .unknown, detail := .hop none .null depth (some source) [source] } := by
  simp only [Topology.nodeNamed, h.roleOf, h.address, h.scope hsource, h.samples, h.leastDepth,
    h.visitors]
  rfl

end AllSilent

/-! ## 4. Main result -/

/-- What a graph shows of a silent hop: a node of its source and depth, known only from probes of
that source that got no answer there, and with nothing measured. -/
structure Isolated (node : Node α) (traces : List (Trace α)) (source : String) (i : Nat) :
    Prop where
  label : node.label = .text wildcard
  detail : node.detail = .hop none .null (i + 1) (some source) [source]
  stats : node.stats = {}
  status : node.status = .unknown
  paths : ∀ p, p ∈ node.paths ↔ ∃ t ∈ traces, t.source = source ∧ t.pathId = p ∧ SilentAt t i

variable [Scalar α]

/-- A node of which all visits are silent is isolated. -/
theorem isolated_of_isNode {limits : Thresholds α} {traces : List (Trace α)}
    (hplain : ∀ t ∈ traces, Plain t) {t : Trace α} (ht : t ∈ traces) {i : Nat}
    (hsilent : SilentAt t i) {node : Node α}
    (h : IsNode limits traces (silentId t.source (i + 1)) node) :
    Isolated node traces t.source i := by
  have hall := allSilent_visitsAt hplain ht hsilent
  obtain ⟨hostName, hleast, rfl⟩ := h
  obtain rfl := hall.leastName hleast
  rw [hall.nodeNamed (hplain t ht).source]
  refine ⟨rfl, rfl, rfl, rfl, fun p => ?_⟩
  rw [Order.mem_textSet, List.mem_map]
  constructor
  · rintro ⟨v, hv, rfl⟩
    obtain ⟨t', ht', hmem, hnode⟩ := mem_visitsAt.mp hv
    obtain ⟨hsource, hsilent', rfl⟩ := eq_silentVisit (hplain t' ht') hmem hnode
    exact ⟨t', ht', hsource, rfl, hsilent'⟩
  · rintro ⟨t', ht', hsource, rfl, hsilent'⟩
    have hplace := List.mem_of_getElem? (getElem?_visits_of_silent (hplain t' ht') hsilent')
    exact ⟨_, mem_visitsAt.mpr ⟨t', ht', hplace, congrArg (silentId · (i + 1)) hsource⟩, rfl⟩

/-- **Silent hops are isolated.**  Traces that are plain and whose host names are texts or absent
have a graph.  Two of their silent hops are at one node just when they have one source and one
depth, and in every graph of the traces there is such a node, which shows that source and nothing
of any other. -/
theorem silent_hops_isolated (limits : Thresholds α) (time : α) {traces : List (Trace α)}
    (hplain : ∀ t ∈ traces, Plain t) :
    (Named traces → ∃ g, Graph.ofTraces limits time traces = .ok g) ∧
    (∀ t ∈ traces, ∀ t' ∈ traces, ∀ i i', SilentAt t i → SilentAt t' i' →
      ((visits t)[i + 1]?.map Visit.node = (visits t')[i' + 1]?.map Visit.node
        ↔ t.source = t'.source ∧ i = i')) ∧
    ∀ g, Graph.ofTraces limits time traces = .ok g → ∀ t ∈ traces, ∀ i, SilentAt t i →
      ∃ id ∈ g.nodeIds, (visits t)[i + 1]?.map Visit.node = some id ∧
        ∀ node ∈ g.nodes, node.id = id → Isolated node traces t.source i := by
  have hnode : ∀ t ∈ traces, ∀ i, SilentAt t i →
      (visits t)[i + 1]?.map Visit.node = some (silentId t.source (i + 1)) := by
    intro t ht i h
    rw [getElem?_visits_of_silent (hplain t ht) h]
    rfl
  refine ⟨ofTraces_of_named limits time, fun t ht t' ht' i i' h h' => ?_, fun g hg t ht i h => ?_⟩
  · rw [hnode t ht i h, hnode t' ht' i' h', Option.some.injEq, silentId_inj, Nat.succ_inj]
  · have hmem : silentId t.source (i + 1) ∈ itinerary t := by
      rw [← map_node_visits]
      exact List.mem_of_getElem? ((List.getElem?_map ..).trans (hnode t ht i h))
    refine ⟨_, nodeIds_eq hg ▸ mem_nodeNames.mpr ⟨t, ht, hmem⟩, hnode t ht i h, ?_⟩
    exact fun node hmem hid => isolated_of_isNode hplain ht h (hid ▸ isNode_of_mem hg hmem)

/-- The same two steps from a source that is named like another source and a depth. -/
def twoStepsAway : Trace Rat := { twoSteps with source := "7:1" }

theorem silent_hops_isolated_twoSteps :
    (∀ t ∈ [twoSteps, twoStepsAway], Plain t) ∧
      ∃ g, Graph.ofTraces .standard 0 [twoSteps, twoStepsAway] = .ok g ∧
        (visits twoSteps)[1]?.map Visit.node ≠ (visits twoStepsAway)[1]?.map Visit.node ∧
        ∃ id ∈ g.nodeIds, (visits twoStepsAway)[1]?.map Visit.node = some id ∧
          ∀ node ∈ g.nodes, node.id = id → Isolated node [twoSteps, twoStepsAway] "7:1" 0 := by
  have hplain : ∀ t ∈ [twoSteps, twoStepsAway], Plain t := by
    intro t ht
    simp only [List.mem_cons, List.not_mem_nil, or_false] at ht
    rcases ht with rfl | rfl
    · exact ⟨by decide, by decide +kernel, by decide⟩
    · exact ⟨by decide, by decide +kernel, by decide⟩
  have hnamed : Named [twoSteps, twoStepsAway] := by
    intro t ht hop hhop
    refine named_twoSteps twoSteps (by simp) hop ?_
    simp only [List.mem_cons, List.not_mem_nil, or_false] at ht
    rcases ht with rfl | rfl
    · exact hhop
    · exact hhop
  have hsilent : SilentAt twoSteps 0 := ⟨_, rfl, rfl⟩
  have haway : SilentAt twoStepsAway 0 := ⟨_, rfl, rfl⟩
  obtain ⟨hexists, hsame, hisolated⟩ := silent_hops_isolated .standard 0 hplain
  obtain ⟨g, hg⟩ := hexists hnamed
  refine ⟨hplain, g, hg, fun he => ?_, hisolated g hg twoStepsAway (by simp) 0 haway⟩
  have hsource := ((hsame twoSteps (by simp) twoStepsAway (by simp) 0 0 hsilent haway).mp he).1
  exact absurd hsource (by decide)

end PathAtlas.Topology
