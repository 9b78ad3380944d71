/-
# The names that hops tell

Nothing but host names can keep traces from having a graph, and it does not matter in which order,
at which depth or how often they are told.  What matters is which names are told of which address
(`Tells`): the visits to a node bring exactly the names of its address (`tells_iff`), and there is a
graph unless one of them is a container or two of them are of different kinds (`Clash`).

One consequence is used elsewhere.  Whether traces have a graph depends on the traces as a
collection (`fails_ofTraces_perm`), and neither on the limits of health nor on the time that the
graph bears.  `Clash` is about what is told and not about graphs, so it can be decided before any
graph is built.
-/
import PathAtlas.Proofs.Topology.Assembly

namespace PathAtlas.Topology

variable {α : Type}

/-! ## 1. Names and visits -/

/-- A host name that hops tell of an address.  Names that count as absent are not told. -/
def Tells (traces : List (Trace α)) (address : String) (name : Json) : Prop :=
  name.isPresent = true ∧
    ∃ t ∈ traces, ∃ hop ∈ t.hops, hop.address = some address ∧ hop.name = name

/-- Only a hop that answered has a name. -/
theorem exists_address_of_name {hop : Hop α} (h : hop.name.isPresent = true) :
    ∃ a, hop.address = some a := by
  cases hresponder : hop.responder with
  | none => simp [Hop.name, hresponder, Json.isPresent] at h
  | some host => exact ⟨host.address, by rw [Hop.address, hresponder]; rfl⟩

theorem hostName_hopVisit (trace : Trace α) (hop : Hop α) (depth : Nat) :
    (hopVisit trace hop depth).hostName = hop.name := by
  unfold hopVisit
  split
  · rename_i hnone
    rw [Hop.address, Option.map_eq_none_iff] at hnone
    rw [Hop.name, hnone]
  · rfl

theorem node_hopVisit (trace : Trace α) {hop : Hop α} {address : String}
    (h : hop.address = some address) (depth : Nat) :
    (hopVisit trace hop depth).node = address := by
  simp only [hopVisit, h]

/-- A visit passes on the name of a hop at the address that it is to. -/
def PassesOn (trace : Trace α) (v : Visit α) : Prop :=
  ∃ hop ∈ trace.hops, hop.address = some v.node ∧ hop.name = v.hostName

theorem passesOn_hopVisit {trace : Trace α} {hop : Hop α} (hhop : hop ∈ trace.hops) {depth : Nat}
    (h : (hopVisit trace hop depth).hostName.isPresent = true) :
    PassesOn trace (hopVisit trace hop depth) := by
  rw [hostName_hopVisit] at h
  obtain ⟨a, ha⟩ := exists_address_of_name h
  exact ⟨hop, hhop, by rw [node_hopVisit trace ha, ha], (hostName_hopVisit ..).symm⟩

/-- The destination has the name of the last hop only when that hop is the destination. -/
theorem passesOn_endVisit {trace : Trace α} {last : Hop α} (hlast : last ∈ trace.hops)
    (h : (endVisit trace last).hostName.isPresent = true) :
    PassesOn trace (endVisit trace last) := by
  unfold endVisit at h ⊢
  cases hgiven : given trace.targetAgent with
  | some agent => simp [hgiven, Json.isPresent] at h
  | none =>
    simp only [hgiven] at h ⊢
    split at h
    · rename_i hnode
      obtain ⟨a, ha⟩ := exists_address_of_name h
      have hidentifier : last.identifier = a := by rw [Hop.identifier, ha]; rfl
      exact ⟨last, hlast, by rw [ha, ← hidentifier, hnode], by simp [hnode]⟩
    · simp [Json.isPresent] at h

/-- **A name that a visit tells** is that of a hop at the address visited. -/
theorem passesOn_of_mem {trace : Trace α} {v : Visit α} (hv : v ∈ visits trace)
    (h : v.hostName.isPresent = true) : PassesOn trace v := by
  rcases mem_visits hv with rfl | ⟨i, hop, hhop, rfl⟩ | ⟨last, hlast, rfl⟩ |
    ⟨i, hop, hhop, last, hlast, hnode, rfl⟩
  · simp [startVisit, Json.isPresent] at h
  · exact passesOn_hopVisit (List.mem_of_getElem? hhop) h
  · exact passesOn_endVisit hlast h
  · -- an agent leaves the hop its name, a destination brings its own
    by_cases hrole : (endVisit trace last).role = .agent
    · simp only [mergedVisit, hrole, if_pos] at h
      obtain ⟨hop', hhop', haddress, hname⟩ := passesOn_hopVisit (List.mem_of_getElem? hhop) h
      exact ⟨hop', hhop', haddress, by simpa [mergedVisit, hrole] using hname⟩
    · simp only [mergedVisit, hrole, if_false] at h
      obtain ⟨hop', hhop', haddress, hname⟩ := passesOn_endVisit hlast h
      exact ⟨hop', hhop', hnode ▸ haddress, by simpa [mergedVisit, hrole] using hname⟩

/-- **The name of a hop** is told by a visit to its address. -/
theorem exists_visit_of_hop {trace : Trace α} {hop : Hop α} (hhop : hop ∈ trace.hops)
    {address : String} (h : hop.address = some address) :
    ∃ v ∈ visits trace, v.node = address ∧ v.hostName = hop.name := by
  obtain ⟨i, hi⟩ := List.getElem?_of_mem hhop
  have hnode := node_hopVisit trace h (i + 1)
  rcases getElem?_visits hi with hvisit | ⟨hmerged, hvisit⟩
  · exact ⟨_, List.mem_of_getElem? hvisit, hnode, hostName_hopVisit ..⟩
  · refine ⟨_, List.mem_of_getElem? hvisit, hnode, ?_⟩
    simp only [mergedVisit, hostName_hopVisit]
    split
    · rfl
    · rename_i hrole
      have hidentifier : hop.identifier = destinationId trace := by
        rw [Hop.identifier, h, ← node_endVisit trace hop, ← hmerged, hnode]
        rfl
      unfold endVisit at hrole ⊢
      cases hgiven : given trace.targetAgent with
      | some agent => simp [hgiven] at hrole
      | none => simp [hidentifier]

/-- **The names of a node** are those that are told of its address. -/
theorem tells_iff {traces : List (Trace α)} {address : String} {name : Json} :
    Tells traces address name ↔
      name.isPresent = true ∧ name ∈ (visitsAt traces address).map Visit.hostName := by
  refine and_congr_right fun hpresent => ?_
  rw [List.mem_map]
  constructor
  · rintro ⟨t, ht, hop, hhop, haddress, rfl⟩
    obtain ⟨v, hv, hnode, hname⟩ := exists_visit_of_hop hhop haddress
    exact ⟨v, mem_visitsAt.mpr ⟨t, ht, hv, hnode⟩, hname⟩
  · rintro ⟨v, hv, rfl⟩
    obtain ⟨t, ht, hmem, rfl⟩ := mem_visitsAt.mp hv
    obtain ⟨hop, hhop, haddress, hname⟩ := passesOn_of_mem hmem hpresent
    exact ⟨t, ht, hop, hhop, haddress, hname⟩

theorem tells_of_mem {traces : List (Trace α)} {v : Visit α} (hv : v ∈ traces.flatMap visits)
    (hpresent : v.hostName.isPresent = true) : Tells traces v.node v.hostName := by
  refine tells_iff.mpr ⟨hpresent, List.mem_map_of_mem ?_⟩
  exact List.mem_filter.mpr ⟨hv, by simp⟩

theorem tells_perm {traces traces' : List (Trace α)} (h : traces.Perm traces') :
    Tells traces = Tells traces' := by
  funext address name
  simp only [Tells, h.mem_iff]

/-! ## 2. Names that clash -/

/-- Names of addresses that no graph can show: a list or a mapping among them, or a text and a
number for one address. -/
inductive Clash (tells : String → Json → Prop) : Prop where
  | container {address : String} {name : Json} (h : tells address name) (hname : ¬ name.Nameable)
  | kinds {address : String} {name name' : Json} (h : tells address name)
      (h' : tells address name') (htext : name.isText = true) (hnumber : name'.isNumber = true)

/-- A value that is present fails as a name when it is neither text nor number. -/
theorem fails_checkName_iff (name : Json) :
    Fails (checkName name) ↔ name.isPresent = true ∧ ¬ name.Nameable := by
  unfold checkName
  split
  · rename_i hpresent
    rw [← Json.checkName_eq_ok_iff hpresent]
    cases name.checkName with
    | ok u => simp
    | error fault => simp [hpresent]
  · rename_i habsent
    simp [habsent]

theorem checkName_eq_ok_iff {name : Json} :
    checkName name = .ok () ↔ (name.isPresent = true → name.Nameable) := by
  unfold checkName
  split
  · rename_i hpresent
    rw [Json.checkName_eq_ok_iff hpresent]
    exact ⟨fun h _ => h, fun h => h hpresent⟩
  · rename_i habsent
    simp [habsent]

theorem nameable_of_checked {traces : List (Trace α)}
    (hcheck : ∀ v ∈ traces.flatMap visits, checkName v.hostName = .ok ()) (id : String) :
    ∀ n ∈ (visitsAt traces id).map Visit.hostName, n.isPresent = true → n.Nameable := by
  intro n hn
  obtain ⟨v, hv, rfl⟩ := List.mem_map.mp hn
  exact checkName_eq_ok_iff.mp (hcheck v (List.mem_filter.mp hv).1)

/-- The names of a node that can all be in a set have no least one just when a text and a number
are told of its address. -/
theorem fails_leastName_iff_tells {traces : List (Trace α)}
    (hcheck : ∀ v ∈ traces.flatMap visits, checkName v.hostName = .ok ()) (id : String) :
    Fails (leastName ((visitsAt traces id).map Visit.hostName)) ↔
      ∃ name name', Tells traces id name ∧ Tells traces id name' ∧
        name.isText = true ∧ name'.isNumber = true := by
  have hnameable := nameable_of_checked hcheck id
  rw [fails_leastName_iff hnameable]
  constructor
  · rintro ⟨x, hx, y, hy, hpx, hpy, hne⟩
    have htells := tells_iff.mpr ⟨hpx, hx⟩
    have htells' := tells_iff.mpr ⟨hpy, hy⟩
    cases htext : x.isText with
    | true =>
      have hother : y.isText = false := by simpa [htext] using hne
      exact ⟨x, y, htells, htells', htext, (hnameable y hy hpy).resolve_left (by simp [hother])⟩
    | false =>
      have hother : y.isText = true := by simpa [htext] using hne
      exact ⟨y, x, htells', htells, hother, (hnameable x hx hpx).resolve_left (by simp [htext])⟩
  · rintro ⟨name, name', h, h', htext, hnumber⟩
    obtain ⟨hpresent, hmem⟩ := tells_iff.mp h
    obtain ⟨hpresent', hmem'⟩ := tells_iff.mp h'
    refine ⟨name, hmem, name', hmem', hpresent, hpresent', ?_⟩
    rw [htext, Json.isText_eq_false hnumber]
    simp

variable [Scalar α]

/-- **Traces have a graph unless their names clash.** -/
theorem fails_ofTraces_iff_clash (limits : Thresholds α) (time : α) (traces : List (Trace α)) :
    Fails (Graph.ofTraces limits time traces) ↔ Clash (Tells traces) := by
  rw [fails_ofTraces_iff]
  constructor
  · rintro (⟨v, hv, hfails⟩ | ⟨hcheck, id, -, hfails⟩)
    · obtain ⟨hpresent, hname⟩ := (fails_checkName_iff _).mp hfails
      exact .container (tells_of_mem hv hpresent) hname
    · obtain ⟨name, name', h, h', htext, hnumber⟩ := (fails_leastName_iff_tells hcheck id).mp hfails
      exact .kinds h h' htext hnumber
  · intro hclash
    by_cases hset : ∃ v ∈ traces.flatMap visits, Fails (checkName v.hostName)
    · exact .inl hset
    · have hcheck : ∀ v ∈ traces.flatMap visits, checkName v.hostName = .ok () := by
        intro v hv
        obtain ⟨⟨⟩, hok⟩ := not_fails_iff.mp fun hfails => hset ⟨v, hv, hfails⟩
        exact hok
      rcases hclash with ⟨h, hname⟩ | @⟨id, name, name', h, h', htext, hnumber⟩
      · obtain ⟨hpresent, hmem⟩ := tells_iff.mp h
        exact absurd (nameable_of_checked hcheck _ _ hmem hpresent) hname
      · refine .inr ⟨hcheck, id, ?_,
          (fails_leastName_iff_tells hcheck id).mpr ⟨name, name', h, h', htext, hnumber⟩⟩
        obtain ⟨v, hv, -⟩ := List.mem_map.mp (tells_iff.mp h).2
        obtain ⟨t, ht, hmem, hnode⟩ := mem_visitsAt.mp hv
        exact mem_nodeNames.mpr ⟨t, ht, map_node_visits t ▸ hnode ▸ List.mem_map_of_mem hmem⟩

/-- The order of the traces does not decide whether they have a graph. -/
theorem fails_ofTraces_perm {limits limits' : Thresholds α} {time time' : α}
    {traces traces' : List (Trace α)} (h : traces.Perm traces') :
    Fails (Graph.ofTraces limits time traces) ↔ Fails (Graph.ofTraces limits' time' traces') := by
  rw [fails_ofTraces_iff_clash, fails_ofTraces_iff_clash, tells_perm h]

end PathAtlas.Topology
