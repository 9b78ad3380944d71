/-
# The names that reports bring

A report that can be read need not be one that a graph can be made of.  Reading it turns every field
of a hop into a text or a number, down to the addresses of its hosts, and only the host names are
taken over as they stand, whatever they are.

So whether the traces of a batch have a graph is decided by the documents themselves: by the host
that speaks for each hop (`speaker?`), and there by its address and its name (`Introduces`).
`tells_of_reports` follows both through the reading, and `graph_of_reports` says which batches have
a graph: those whose names do not clash.
-/
import PathAtlas.Proofs.Topology.ToldNames
import PathAtlas.Proofs.Trace.Readability

namespace PathAtlas.Report

open PathAtlas.Topology

/-! ## 1. The names in a batch -/

def isMapping : Json → Bool
  | .mapping _ => true
  | _ => false

/-- The host that speaks for a hop: the first mapping in its list of hosts. -/
def speaker? (hop : Json) : Option Json :=
  match hop.entry "hosts" with
  | .list hosts => hosts.find? isMapping
  | _ => none

/-- A host gives a name to an address that can be shown. -/
structure Introduces (host : Json) (address : String) (name : Json) : Prop where
  displayed : (orElse (host.entry "ip") (.text "")).display = address
  notEmpty : address ≠ ""
  notWildcard : address ≠ wildcard
  named : host.entry "hostname" = name
  present : name.isPresent = true

/-- In some report of a batch, the host that speaks for a hop gives a name to an address. -/
def Introduced (docs : List Json) (address : String) (name : Json) : Prop :=
  ∃ doc ∈ docs, ∃ hops, Reports doc hops ∧ ∃ hop ∈ hops, ∃ host, speaker? hop = some host ∧
    Introduces host address name

/-! ## 2. Hosts -/

theorem host?_eq (v : Json) : host? v =
    if isMapping v then
      some { address := (orElse (v.entry "ip") (.text "")).display
             name := orElse (v.entry "hostname") .null }
    else none := by
  cases v <;> rfl

/-- The first host of a list is the first mapping in it. -/
theorem head?_filterMap_host? (xs : List Json) :
    (xs.filterMap host?).head? = (xs.find? isMapping).bind host? := by
  induction xs with
  | nil => rfl
  | cons x xs ih =>
    rw [List.filterMap_cons, List.find?_cons, host?_eq x]
    cases hx : isMapping x with
    | true => simp [host?_eq, hx]
    | false => simpa using ih

/-- Texts are no hosts, so neither the letters of a text nor the keys of a mapping are. -/
theorem filterMap_host?_texts {β : Type} (f : β → String) (xs : List β) :
    (xs.map fun x => Json.text (f x)).filterMap host? = [] := by
  rw [List.filterMap_map, List.filterMap_eq_nil_iff]
  exact fun _ _ => rfl

/-- What is given for the hosts of a hop and can be gone through has the speaker for its first
host. -/
theorem head?_hosts {doc : Json} {hosts : List Json}
    (h : (orElse (doc.entry "hosts") (.list [])).elements = .ok hosts) :
    (hosts.filterMap host?).head? = (speaker? doc).bind host? := by
  unfold speaker?
  generalize doc.entry "hosts" = v at h ⊢
  unfold orElse at h
  split at h
  · cases v with
    | list xs =>
      obtain rfl : xs = hosts := Except.ok.inj h
      exact head?_filterMap_host? xs
    | text s =>
      obtain rfl := Except.ok.inj h
      rw [filterMap_host?_texts]
      rfl
    | mapping es =>
      obtain rfl := Except.ok.inj h
      rw [filterMap_host?_texts]
      rfl
    | _ => cases h
  · rename_i habsent
    obtain rfl := Except.ok.inj h
    cases v with
    | list xs => simp_all [Json.isPresent]
    | _ => rfl

theorem isMapping_of_speaker {doc host : Json} (h : speaker? doc = some host) :
    isMapping host = true := by
  unfold speaker? at h
  split at h
  · exact List.find?_some h
  · cases h

/-- A name that is present was given as it is. -/
theorem orElse_null_eq_iff {v name : Json} (hpresent : name.isPresent = true) :
    orElse v .null = name ↔ v = name := by
  unfold orElse
  split
  · rfl
  · rename_i habsent
    constructor
    · rintro rfl
      simp [Json.isPresent] at hpresent
    · rintro rfl
      exact absurd hpresent habsent

/-- The address and the name of a hop are those of its first host, when that one has an address. -/
theorem address_name_iff_head {α : Type} {hop : Hop α} {address : String} {name : Json}
    (hpresent : name.isPresent = true) :
    hop.address = some address ∧ hop.name = name ↔
      ∃ host, hop.hosts.head? = some host ∧ host.address = address ∧ host.name = name ∧
        address ≠ "" ∧ address ≠ wildcard := by
  have hname : ∀ v : Json, (if v.isPresent then v else .null) = name ↔ v = name :=
    fun v => orElse_null_eq_iff hpresent
  rw [Hop.address, Hop.name, Hop.responder]
  cases hop.hosts.head? with
  | none => simp
  | some host =>
    simp only [Option.filter_some, Hop.answers, Bool.and_eq_true, decide_eq_true_eq]
    split
    · rename_i hanswers
      simp only [Option.map_some, Option.some.injEq, hname, exists_eq_left']
      constructor
      · rintro ⟨rfl, rfl⟩
        exact ⟨rfl, rfl, hanswers⟩
      · rintro ⟨rfl, rfl, -⟩
        exact ⟨rfl, rfl⟩
    · rename_i hsilent
      simp only [Option.map_none, Option.some.injEq, exists_eq_left']
      refine iff_of_false ?_ ?_
      · rintro ⟨haddress, -⟩
        cases haddress
      · rintro ⟨rfl, -, hanswers⟩
        exact hsilent hanswers

/-- The hosts of a hop that is read. -/
theorem hosts_of_hop {index : Nat} {doc : Json} {hop : Hop Float}
    (h : Report.hop index doc = .ok hop) :
    ∃ hosts, (orElse (doc.entry "hosts") (.list [])).elements = .ok hosts ∧
      hop.hosts = hosts.filterMap host? := by
  obtain ⟨hosts, hhosts, h⟩ := bind_eq_ok.mp h
  obtain ⟨sent, -, h⟩ := bind_eq_ok.mp h
  obtain ⟨received, -, h⟩ := bind_eq_ok.mp h
  obtain ⟨lost, -, h⟩ := bind_eq_ok.mp h
  obtain ⟨ttl, -, h⟩ := bind_eq_ok.mp h
  obtain ⟨average, -, h⟩ := bind_eq_ok.mp h
  obtain ⟨best, -, h⟩ := bind_eq_ok.mp h
  obtain ⟨worst, -, h⟩ := bind_eq_ok.mp h
  obtain ⟨jitter, -, h⟩ := bind_eq_ok.mp h
  obtain rfl := Except.ok.inj h
  exact ⟨hosts, hhosts, rfl⟩

/-- **What a hop tells** is what its speaker introduces. -/
theorem address_name_iff {index : Nat} {doc : Json} {hop : Hop Float}
    (h : Report.hop index doc = .ok hop) {address : String} {name : Json}
    (hpresent : name.isPresent = true) :
    hop.address = some address ∧ hop.name = name ↔
      ∃ host, speaker? doc = some host ∧ Introduces host address name := by
  obtain ⟨hosts, helements, hhosts⟩ := hosts_of_hop h
  rw [address_name_iff_head hpresent, hhosts, head?_hosts helements]
  cases hspeaker : speaker? doc with
  | none => simp
  | some host =>
    simp only [Option.bind_some, host?_eq, isMapping_of_speaker hspeaker, if_true,
      Option.some.injEq, exists_eq_left', orElse_null_eq_iff hpresent]
    constructor
    · rintro ⟨haddress, hname, hempty, hwildcard⟩
      exact ⟨haddress, hempty, hwildcard, hname, hpresent⟩
    · rintro ⟨haddress, hempty, hwildcard, hname, -⟩
      exact ⟨haddress, hname, hempty, hwildcard⟩

/-! ## 3. Reports -/

/-- What the hops of a report tell is what their speakers introduce; what is no mapping is passed
over, and has no speaker. -/
theorem exists_hop_iff {index : Nat} {docs : List Json} {hops : List (Hop Float)}
    (h : Report.hops index docs = .ok hops) {address : String} {name : Json}
    (hpresent : name.isPresent = true) :
    (∃ hop ∈ hops, hop.address = some address ∧ hop.name = name) ↔
      ∃ doc ∈ docs, ∃ host, speaker? doc = some host ∧ Introduces host address name := by
  induction docs generalizing index hops with
  | nil =>
    obtain rfl := Except.ok.inj h
    simp
  | cons doc docs ih =>
    cases doc with
    | mapping es =>
      obtain ⟨first, hfirst, h⟩ := bind_eq_ok.mp h
      obtain ⟨rest, hrest, h⟩ := bind_eq_ok.mp h
      obtain rfl := Except.ok.inj h
      rw [List.exists_mem_cons_iff, List.exists_mem_cons_iff, address_name_iff hfirst hpresent,
        ih hrest]
    | _ =>
      rw [ih h, List.exists_mem_cons_iff]
      exact (or_iff_right (by rintro ⟨host, hspeaker, -⟩; cases hspeaker)).symm

theorem Introduced.present {docs : List Json} {address : String} {name : Json}
    (h : Introduced docs address name) : name.isPresent = true := by
  obtain ⟨doc, -, hops, -, hop, -, host, -, hintroduces⟩ := h
  exact hintroduces.present

/-- A report that is read gives a trace of its hops. -/
theorem exists_trace_of_reports {doc : Json} {docs : List Json} (h : Reports doc docs)
    (hread : ¬ Fails (trace doc)) :
    ∃ t, trace doc = .ok (some t) ∧ Report.hops 0 docs = .ok t.hops := by
  obtain ⟨t, ht⟩ := not_fails_iff.mp hread
  obtain ⟨time, -, hrest⟩ := bind_eq_ok.mp (trace_of_reports h ▸ ht)
  obtain ⟨hops, hhops, hrest⟩ := bind_eq_ok.mp hrest
  obtain rfl := Except.ok.inj hrest
  exact ⟨_, ht, hhops⟩

/-- **The names that the traces of a batch tell** are those that its documents introduce. -/
theorem tells_of_reports {docs : List Json} {ts : List (Trace Float)} (h : traces docs = .ok ts) :
    Tells ts = Introduced docs := by
  have hread : ∀ doc ∈ docs, ¬ Fails (trace doc) := by
    intro doc hdoc hfails
    have hfails := (fails_traces_iff docs).mpr ⟨doc, hdoc, (fails_trace_iff doc).mp hfails⟩
    exact not_fails_ok ts (h ▸ hfails)
  funext address name
  rw [eq_iff_iff, traces_eq_ok h]
  constructor
  · rintro ⟨hpresent, t, ht, htold⟩
    obtain ⟨doc, hdoc, husable⟩ := List.mem_filterMap.mp ht
    obtain ⟨read, htrace⟩ := not_fails_iff.mp (hread doc hdoc)
    obtain ⟨rfl, -⟩ := Option.filter_eq_some_iff.mp (usable?_of_ok htrace ▸ husable)
    obtain ⟨hops, hreports⟩ : ∃ hops, Reports doc hops := by
      by_contra hnone
      rw [trace_of_not_reports (not_exists.mp hnone)] at htrace
      cases htrace
    obtain ⟨t', ht', hhops⟩ := exists_trace_of_reports hreports (hread doc hdoc)
    obtain rfl := Option.some.inj (Except.ok.inj (htrace.symm.trans ht'))
    exact ⟨doc, hdoc, hops, hreports, (exists_hop_iff hhops hpresent).mp htold⟩
  · intro hintroduced
    have hpresent := hintroduced.present
    obtain ⟨doc, hdoc, hops, hreports, hnames⟩ := hintroduced
    obtain ⟨t, htrace, hhops⟩ := exists_trace_of_reports hreports (hread doc hdoc)
    obtain ⟨hop, hhop, htold⟩ := (exists_hop_iff hhops hpresent).mpr hnames
    refine ⟨hpresent, t, List.mem_filterMap.mpr ⟨doc, hdoc, ?_⟩, hop, hhop, htold⟩
    have hhas : t.hasHops = true := by simp [Trace.hasHops, List.ne_nil_of_mem hhop]
    rw [usable?_of_ok htrace, Option.filter_some, if_pos hhas]

/-! ## 4. Main result -/

/-- **Reports that are read have a graph unless their names clash**: unless some host name is a list
or a mapping, or the host names of one address are texts and numbers. -/
theorem graph_of_reports (limits : Thresholds Float) (time : Float) {docs : List Json}
    {ts : List (Trace Float)} (h : traces docs = .ok ts) :
    (∃ g, Graph.ofTraces limits time ts = .ok g) ↔ ¬ Clash (Introduced docs) := by
  rw [← not_fails_iff, fails_ofTraces_iff_clash, tells_of_reports h]

/-- A report of one hop, whose host has a given name. -/
def reportNaming (name : Json) : Json :=
  .mapping
    [("agent_id", .whole 7),
     ("target", .text "10.0.0.9"),
     ("hops", .list
       [.mapping [("hosts", .list [.mapping [("ip", .text "10.0.0.1"), ("hostname", name)]])]])]

/-- Whatever the names are, the reports can be read. -/
theorem traces_reportNaming (names : List Json) :
    ∃ ts, traces (names.map reportNaming) = .ok ts := by
  refine not_fails_iff.mp ?_
  rw [fails_traces_iff]
  rintro ⟨doc, hdoc, hunreadable⟩
  obtain ⟨name, -, rfl⟩ := List.mem_map.mp hdoc
  have hread : ¬ Fails (trace (reportNaming name)) := not_fails_iff.mpr ⟨_, rfl⟩
  exact hread ((fails_trace_iff _).mpr hunreadable)

/-- These reports give their names to one address. -/
theorem introduced_reportNaming (names : List Json) {address : String} {name : Json} :
    Introduced (names.map reportNaming) address name ↔
      address = "10.0.0.1" ∧ name ∈ names ∧ name.isPresent = true := by
  have hreports : ∀ name, Reports (reportNaming name) _ := fun name =>
    ⟨rfl, List.cons_ne_nil _ _, rfl, rfl, rfl⟩
  constructor
  · rintro ⟨doc, hdoc, hops, hreported, hop, hhop, host, hspeaker, hintroduces⟩
    obtain ⟨name', hname', rfl⟩ := List.mem_map.mp hdoc
    obtain rfl := (hreports name').unique hreported
    obtain rfl := List.mem_singleton.mp hhop
    obtain rfl := Option.some.inj hspeaker
    obtain rfl : name' = name := hintroduces.named
    exact ⟨hintroduces.displayed.symm, hname', hintroduces.present⟩
  · rintro ⟨rfl, hname, hpresent⟩
    exact ⟨_, List.mem_map_of_mem hname, _, hreports name, _, List.mem_cons_self, _, rfl,
      rfl, by decide, by decide, rfl, hpresent⟩

/-- A report that is read although its host is named by a list, so that no graph can be made. -/
theorem reading_accepts_listName : ∃ ts, traces [reportNaming (.list [.whole 1])] = .ok ts ∧
    ∀ limits time, Fails (Graph.ofTraces limits time ts) := by
  obtain ⟨ts, hts⟩ := traces_reportNaming [.list [.whole 1]]
  refine ⟨ts, hts, fun limits time => ?_⟩
  have hname : Introduced [reportNaming (.list [.whole 1])] "10.0.0.1" (.list [.whole 1]) :=
    (introduced_reportNaming [_]).mpr ⟨rfl, List.mem_cons_self, rfl⟩
  rw [fails_ofTraces_iff_clash, tells_of_reports hts]
  exact .container hname (by simp [Json.Nameable, Json.isText, Json.isNumber])

/-- Two reports of one address under a text and a number: either has a graph, but not both
together. -/
theorem graph_of_reports_twoNames :
    (∀ name ∈ [Json.text "gateway", .whole 5], ∃ ts g, traces [reportNaming name] = .ok ts ∧
      Graph.ofTraces .standard 0 ts = .ok g) ∧
    ∃ ts, traces [reportNaming (.text "gateway"), reportNaming (.whole 5)] = .ok ts ∧
      ¬ ∃ g, Graph.ofTraces .standard 0 ts = .ok g := by
  constructor
  · intro name hname
    obtain ⟨ts, hts⟩ := traces_reportNaming [name]
    have hclash : ¬ Clash (Introduced ([name].map reportNaming)) := by
      rintro (⟨h, hcontainer⟩ | ⟨h, h', htext, hnumber⟩)
      · obtain ⟨-, hmem, -⟩ := (introduced_reportNaming _).mp h
        obtain rfl := List.mem_singleton.mp hmem
        refine hcontainer ?_
        simp only [List.mem_cons, List.not_mem_nil, or_false] at hname
        rcases hname with rfl | rfl
        · exact .inl rfl
        · exact .inr rfl
      · obtain ⟨-, hmem, -⟩ := (introduced_reportNaming _).mp h
        obtain ⟨-, hmem', -⟩ := (introduced_reportNaming _).mp h'
        obtain rfl := List.mem_singleton.mp hmem
        obtain rfl := List.mem_singleton.mp hmem'
        exact absurd htext (by simp [Json.isText_eq_false hnumber])
    obtain ⟨g, hg⟩ := (graph_of_reports .standard 0 hts).mpr hclash
    exact ⟨ts, g, hts, hg⟩
  · obtain ⟨ts, hts⟩ := traces_reportNaming [.text "gateway", .whole 5]
    refine ⟨ts, hts, fun hgraph => (graph_of_reports .standard 0 hts).mp hgraph ?_⟩
    exact .kinds ((introduced_reportNaming [_, _]).mpr ⟨rfl, List.mem_cons_self, rfl⟩)
      ((introduced_reportNaming [_, _]).mpr
        ⟨rfl, List.mem_cons_of_mem _ List.mem_cons_self, rfl⟩) rfl rfl

end PathAtlas.Report
