/-
# What a visit tells about its node

A node is put together from all visits to it, and the first visit that tells something decides.
That is harmless, because whatever two visits tell about one node is the same: the name of an agent,
a target and an address are spelled in the name of the node, and so is the source that a silent hop
belongs to (`silentId_inj`; a source may hold colons, a depth may not).  `Belongs` collects what
holds of every visit of a trace, and `belongs_of_mem` proves it by the four forms that a visit can
have (`mem_visits`).  The other way round, every hop is visited (`getElem?_visits`).
-/
import PathAtlas.Proofs.Text.Numbers
import PathAtlas.Proofs.Topology.Stops

namespace PathAtlas.Topology

variable {α : Type}

/-! ## 1. Names of nodes -/

theorem agentId_inj {a b : String} : agentId a = agentId b ↔ a = b :=
  String.append_right_inj "agent:"

/-- The name of a silent hop's node spells its source and its depth. -/
theorem silentId_inj {s s' : String} {d d' : Nat} :
    silentId s d = silentId s' d' ↔ s = s' ∧ d = d' := by
  rw [silentId, silentId, Text.append_toString_inj ":" rfl (by decide),
    String.append_right_inj]

/-! ## 2. The forms of a visit -/

theorem mem_hopVisits {trace : Trace α} {v : Visit α} :
    ∀ {hops : List (Hop α)} {k : Nat}, v ∈ hopVisits trace (k + 1) hops →
      ∃ i hop, hops[i]? = some hop ∧ v = hopVisit trace hop (k + i + 1)
  | [], _, h => absurd h (by simp [hopVisits])
  | hop :: hops, k, h => by
    rcases List.mem_cons.mp h with rfl | h
    · exact ⟨0, hop, rfl, rfl⟩
    · obtain ⟨i, hop', hhop', rfl⟩ := mem_hopVisits h
      exact ⟨i + 1, hop', hhop', by rw [Nat.add_right_comm k 1 i, Nat.add_assoc k i 1]⟩

/-- The last visit of a trace is put to the others, or into the one at the same node. -/
theorem mem_finished {finish v : Visit α} :
    ∀ {vs : List (Visit α)}, v ∈ finished finish vs →
      v ∈ vs ∨ v = finish ∨ ∃ u ∈ vs, u.node = finish.node ∧ v = mergedVisit u finish
  | [], h => .inr (.inl (by simpa [finished] using h))
  | [u], h => by
    rw [finished] at h
    split at h
    · rename_i hu
      exact .inr (.inr ⟨u, by simp, hu, by simpa using h⟩)
    · rcases List.mem_cons.mp h with rfl | h
      · exact .inl (by simp)
      · exact .inr (.inl (by simpa using h))
  | u :: u' :: vs, h => by
    rcases List.mem_cons.mp h with rfl | h
    · exact .inl (by simp)
    · rcases mem_finished h with h | h | ⟨w, hw, hvw⟩
      · exact .inl (List.mem_cons_of_mem _ h)
      · exact .inr (.inl h)
      · exact .inr (.inr ⟨w, List.mem_cons_of_mem _ hw, hvw⟩)

/-- A visit is the start of its trace, one of its hops at the depth of its place, its end, or a hop
and its end in one. -/
theorem mem_visits {trace : Trace α} {v : Visit α} (h : v ∈ visits trace) :
    v = startVisit trace ∨
      (∃ i hop, trace.hops[i]? = some hop ∧ v = hopVisit trace hop (i + 1)) ∨
      (∃ last ∈ trace.hops, v = endVisit trace last) ∨
      ∃ i hop, trace.hops[i]? = some hop ∧ ∃ last ∈ trace.hops,
        (hopVisit trace hop (i + 1)).node = (endVisit trace last).node ∧
          v = mergedVisit (hopVisit trace hop (i + 1)) (endVisit trace last) := by
  unfold visits at h
  split at h
  · simp at h
  · rename_i last hlast
    have hlast := List.mem_of_getLast? hlast
    have hhops : ∀ u ∈ hopVisits trace 1 trace.hops,
        ∃ i hop, trace.hops[i]? = some hop ∧ u = hopVisit trace hop (i + 1) := by
      intro u hu
      obtain ⟨i, hop, hhop, rfl⟩ := mem_hopVisits (k := 0) hu
      exact ⟨i, hop, hhop, by rw [Nat.zero_add]⟩
    rcases List.mem_cons.mp h with rfl | h
    · exact .inl rfl
    · rcases mem_finished h with h | rfl | ⟨u, hu, hnode, rfl⟩
      · exact .inr (.inl (hhops v h))
      · exact .inr (.inr (.inl ⟨last, hlast, rfl⟩))
      · obtain ⟨i, hop, hhop, rfl⟩ := hhops u hu
        exact .inr (.inr (.inr ⟨i, hop, hhop, last, hlast, hnode, rfl⟩))

/-- Joining the last visit with the destination leaves all others as they are. -/
theorem getElem?_finished (finish : Visit α) {v : Visit α} :
    ∀ {vs : List (Visit α)} {i : Nat}, vs[i]? = some v →
      (finished finish vs)[i]? = some v ∨
        i + 1 = vs.length ∧ v.node = finish.node ∧
          (finished finish vs)[i]? = some (mergedVisit v finish)
  | [], i, h => by simp at h
  | [u], 0, h => by
    obtain rfl : u = v := by simpa using h
    rw [finished]
    split
    · rename_i hnode
      exact .inr ⟨rfl, hnode, rfl⟩
    · exact .inl rfl
  | [u], i + 1, h => by simp at h
  | u :: w :: vs, 0, h => .inl h
  | u :: w :: vs, i + 1, h => by
    rw [List.getElem?_cons_succ] at h
    rw [finished, List.getElem?_cons_succ]
    rcases getElem?_finished finish h with h | ⟨hi, hnode, h⟩
    · exact .inl h
    · exact .inr ⟨congrArg (· + 1) hi, hnode, h⟩

/-- **A hop is visited in its place**, right behind the start and the hops before it: by a visit of
its own or, if it is the destination itself, by one for both. -/
theorem getElem?_visits {trace : Trace α} {i : Nat} {hop : Hop α}
    (h : trace.hops[i]? = some hop) :
    (visits trace)[i + 1]? = some (hopVisit trace hop (i + 1)) ∨
      (hopVisit trace hop (i + 1)).node = (endVisit trace hop).node ∧
        (visits trace)[i + 1]?
          = some (mergedVisit (hopVisit trace hop (i + 1)) (endVisit trace hop)) := by
  have hplace : (hopVisits trace 1 trace.hops)[i]? = some (hopVisit trace hop (i + 1)) := by
    rw [hopVisits_eq trace 0, List.getElem?_map, List.getElem?_zipIdx, h]
    simp only [Option.map_some, Nat.zero_add]
  obtain ⟨last, hlast⟩ : ∃ last, trace.hops.getLast? = some last :=
    Option.isSome_iff_exists.mp
      (List.getLast?_isSome.mpr (List.ne_nil_of_mem (List.mem_of_getElem? h)))
  rw [visits, hlast, List.getElem?_cons_succ]
  rcases getElem?_finished (endVisit trace last) hplace with hvisit | ⟨hi, hnode, hvisit⟩
  · exact .inl hvisit
  · have hlength : trace.hops.length - 1 = i := by
      rw [hopVisits_eq trace 0, List.length_map, List.length_zipIdx] at hi
      omega
    rw [List.getLast?_eq_getElem?, hlength, h] at hlast
    obtain rfl := Option.some.inj hlast
    exact .inr ⟨hnode, hvisit⟩

/-! ## 3. What holds of every visit -/

/-- What a visit of a trace can tell. -/
structure Belongs (trace : Trace α) (v : Visit α) : Prop where
  path : v.path = trace.pathId
  source : v.source = trace.source
  agent : ∀ a, v.agent = some a → v.node = agentId a
  target : ∀ t, v.target = some t → v.node = t
  address : ∀ a, v.address = some a → v.node = a
  scope : ∀ s, v.scope = some s → ∃ depth, v.node = silentId s depth
  /-- A host name is that of a hop. -/
  hostName : v.hostName = .null ∨ ∃ hop ∈ trace.hops, v.hostName = hop.name

theorem belongs_startVisit (trace : Trace α) : Belongs trace (startVisit trace) where
  path := rfl
  source := rfl
  agent _ ha := congrArg agentId (Option.some.inj ha)
  target _ ht := nomatch ht
  address _ ha := nomatch ha
  scope _ hs := nomatch hs
  hostName := .inl rfl

theorem belongs_hopVisit {trace : Trace α} {hop : Hop α} (h : hop ∈ trace.hops) (depth : Nat) :
    Belongs trace (hopVisit trace hop depth) := by
  unfold hopVisit
  split
  · refine ⟨rfl, rfl, nofun, nofun, nofun, fun s hs => ?_, .inl rfl⟩
    obtain rfl := Option.some.inj hs
    exact ⟨depth, rfl⟩
  · exact ⟨rfl, rfl, nofun, nofun, fun _ ha => Option.some.inj ha, nofun, .inr ⟨hop, h, rfl⟩⟩

/-- What the last hop tells of the end of a trace can be told. -/
theorem belongs_endVisit {trace : Trace α} {last : Hop α} (h : last ∈ trace.hops) :
    Belongs trace (endVisit trace last) := by
  unfold endVisit destinationId
  cases given trace.targetAgent with
  | some agent =>
    exact ⟨rfl, rfl, fun _ ha => congrArg agentId (Option.some.inj ha), nofun, nofun, nofun,
      .inl rfl⟩
  | none =>
    refine ⟨rfl, rfl, nofun, fun _ ht => Option.some.inj ht, nofun, nofun, ?_⟩
    by_cases he : last.identifier = trace.target
    · exact .inr ⟨last, h, if_pos he⟩
    · exact .inl (if_neg he)

/-- What two visits to one node tell can be told by one. -/
theorem belongs_mergedVisit {trace : Trace α} {hop finish : Visit α} (hhop : Belongs trace hop)
    (hfinish : Belongs trace finish) (h : hop.node = finish.node) :
    Belongs trace (mergedVisit hop finish) where
  path := hhop.path
  source := hhop.source
  agent a ha := h.trans (hfinish.agent a ha)
  target t ht := h.trans (hfinish.target t ht)
  address := hhop.address
  scope := hhop.scope
  hostName := by
    simp only [mergedVisit]
    split
    · exact hhop.hostName
    · exact hfinish.hostName

/-- **Every visit of a trace belongs to it.** -/
theorem belongs_of_mem {trace : Trace α} {v : Visit α} (h : v ∈ visits trace) :
    Belongs trace v := by
  rcases mem_visits h with rfl | ⟨i, hop, hhop, rfl⟩ | ⟨last, hlast, rfl⟩ |
    ⟨i, hop, hhop, last, hlast, hnode, rfl⟩
  · exact belongs_startVisit trace
  · exact belongs_hopVisit (List.mem_of_getElem? hhop) _
  · exact belongs_endVisit hlast
  · exact belongs_mergedVisit (belongs_hopVisit (List.mem_of_getElem? hhop) _)
      (belongs_endVisit hlast) hnode

end PathAtlas.Topology
