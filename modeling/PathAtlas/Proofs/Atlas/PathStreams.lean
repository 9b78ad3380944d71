/-
# Paths and streams

Route groups are made path by path, and a path is known by one text, the name of the source and that
of the target with an arrow between them.  Change reports are made stream by stream, and a stream is
known by its source and its target.  All traces of a stream are on one path, so what is reported of
a stream is about a part of that path (`exists_report_iff`).  When the path holds no other stream,
the part is all of it, and a group was opened by a trace that the report compares with the same
trace before it (`flaggedAlike_of_opens`).

Two streams share a path when an arrow stands in a source: `a` to `b->c` and `a->b` to `c`.  Then
the first trace of the second stream on the path either joins a group of the first one or opens a
group that counts as a change, while its report has nothing to compare it with (`exists_mismatch`).
So both views agree on all groups of a path just when the path holds one stream
(`groups_match_iff`).
-/
import PathAtlas.Proofs.Atlas.Conservation
import PathAtlas.Proofs.Route.Signatures

namespace PathAtlas

variable {α : Type}

/-! ## 1. Following a stream -/

namespace Change

theorem follow_append (route : Option (List String)) (front back : List (Trace α)) :
    follow route (front ++ back) = follow route front
      ++ follow ((front.getLast?.map Trace.identifiers).or route) back := by
  induction front generalizing route with
  | nil => rfl
  | cons t front ih =>
    rw [List.cons_append, follow, follow, ih, List.getLast?_cons]
    cases front.getLast? <;> rfl

theorem map_trace_follow (route : Option (List String)) (traces : List (Trace α)) :
    (follow route traces).map Observation.trace = traces := by
  induction traces generalizing route with
  | nil => rfl
  | cons t traces ih => rw [follow, List.map_cons, Detector.trace_compareWith, ih]

theorem isChange_compareWith_none (trace : Trace α) :
    (compareWith none trace).isChange = false := rfl

end Change

namespace Route

open Change

/-! ## 2. Groups of paths -/

def onPath (path : String) (traces : List (Trace α)) : List (Trace α) :=
  traces.filter fun t => t.pathId == path

/-- The source and the target of a trace, as a stream. -/
abbrev stream (trace : Trace α) : Stream := Stream.ofTrace true trace

/-- All traces come from one source and go to one target. -/
def OneStream (traces : List (Trace α)) : Prop :=
  ∀ t ∈ traces, ∀ t' ∈ traces, t.source = t'.source ∧ t.target = t'.target

/-- The name of a path tells its source and its target. -/
def PathsApart (traces : List (Trace α)) : Prop :=
  ∀ t ∈ traces, ∀ t' ∈ traces, t.pathId = t'.pathId → t.source = t'.source ∧ t.target = t'.target

theorem stream_eq_iff {t t' : Trace α} :
    stream t = stream t' ↔ t.source = t'.source ∧ t.target = t'.target := by
  simp [stream, Stream.ofTrace]

theorem pathId_of_stream_eq {t t' : Trace α} (h : stream t = stream t') :
    t.pathId = t'.pathId := by
  obtain ⟨hsource, htarget⟩ := stream_eq_iff.mp h
  rw [Trace.pathId, Trace.pathId, hsource, htarget]

/-- **Sources without an arrow** keep paths apart, whatever the targets hold. -/
theorem pathsApart_of_not_infix {traces : List (Trace α)}
    (h : ∀ t ∈ traces, ¬ separator.toList <:+: t.source.toList) : PathsApart traces := by
  intro t ht t' ht' hpath
  have hcut : ∀ t ∈ traces,
      piecesOf t.pathId.toList = t.source.toList :: piecesOf t.target.toList :=
    fun t ht => by
      rw [Trace.pathId, String.toList_append, String.toList_append]
      exact piecesOf_append (h t ht) _
  have hpieces := hcut t ht
  rw [hpath, hcut t' ht'] at hpieces
  have hsource : t.source = t'.source := String.toList_inj.mp (List.cons.inj hpieces).1.symm
  refine ⟨hsource, String.toList_inj.mp ?_⟩
  have hchars := congrArg String.toList hpath
  rw [Trace.pathId, Trace.pathId, hsource] at hchars
  simpa using hchars

section Groups

variable [Scalar α] {traces : List (Trace α)}

/-- A group of one of the paths of some traces, with its members in order of time. -/
def Gathers (traces : List (Trace α)) (group : Group α) (members : List (Trace α)) : Prop :=
  ∃ path, group ∈ groups (onPath path traces) ∧
    members = ofRoute group.signature (Trace.timeline (onPath path traces))

/-- A group and the report of the stream of its first member say the same of that trace.  In the
report it is the first one of its route. -/
def FlaggedAlike (reports : List (Report α)) (group : Group α) (members : List (Trace α)) : Prop :=
  ∃ first, members.head? = some first ∧
    ∃ report ∈ reports, report.stream = ⟨first.source, some first.target⟩ ∧
      ∃ before o after, report.observations = before ++ o :: after ∧ o.trace = first ∧
        (∀ b ∈ before, b.trace.signature ≠ first.signature) ∧
        (group.isChange = true ↔ o.isChange = true)

theorem mem_timeline_onPath {path : String} {t : Trace α} :
    t ∈ Trace.timeline (onPath path traces) ↔ t ∈ traces ∧ t.hasHops = true ∧ t.pathId = path := by
  rw [Trace.mem_timeline, onPath, List.mem_filter, beq_iff_eq, and_right_comm, and_assoc]

theorem timeline_eq_filter (h : Trace.Timed traces) (path : String) :
    Trace.timeline (onPath path traces)
      = (Trace.sortByTime traces).filter fun t => t.hasHops && t.pathId == path := by
  rw [onPath, Trace.timeline_filter h, Trace.timeline, List.filter_filter]
  exact List.filter_congr fun t _ => Bool.and_comm _ _

/-- **The traces of a stream** are those of its path that belong to it. -/
theorem filter_timeline_onPath (h : Trace.Timed traces) (t : Trace α) :
    (Trace.timeline (onPath t.pathId traces)).filter (stream · == stream t)
      = (Trace.sortByTime traces).filter (Change.counts none true (stream t)) := by
  rw [timeline_eq_filter h, List.filter_filter]
  refine List.filter_congr fun t' _ => ?_
  rw [Change.counts, wanted, Option.all_none, Bool.and_true]
  cases hstream : stream t' == stream t with
  | false => simp
  | true => simp [pathId_of_stream_eq (eq_of_beq hstream)]

/-- **What is reported of a stream** follows from its traces on its path. -/
theorem exists_report_iff (h : Trace.Timed traces) {t : Trace α} (ht : t ∈ traces)
    (hhops : t.hasHops = true) (report : Report α) :
    (report ∈ detect none true traces ∧ report.stream = ⟨t.source, some t.target⟩) ↔
      report = .ofObservations (stream t)
        (follow none
          ((Trace.timeline (onPath t.pathId traces)).filter (stream · == stream t))) := by
  rw [filter_timeline_onPath h, detect_eq, List.mem_map]
  constructor
  · rintro ⟨⟨s, -, rfl⟩, hs⟩
    obtain rfl : s = stream t := hs
    rfl
  · rintro rfl
    exact ⟨⟨stream t, mem_streams.mpr ⟨t, ht, by simp [wanted, hhops], rfl⟩, rfl⟩, rfl⟩

omit [Scalar α] in
/-- The first member of a group is the trace that took its route first. -/
theorem head?_ofRoute {signature : String} {before : List (Trace α)} {first : Trace α}
    (hfirst : signature = first.signature) (hfresh : ∀ t ∈ before, t.signature ≠ signature)
    (after : List (Trace α)) :
    (ofRoute signature (before ++ first :: after)).head? = some first := by
  have hnone : before.filter (fun t => t.signature == signature) = [] :=
    List.filter_eq_nil_iff.mpr fun t ht hroute => hfresh t ht (eq_of_beq hroute)
  rw [ofRoute, List.filter_append, hnone, List.nil_append, List.filter_cons,
    if_pos (beq_iff_eq.mpr hfirst.symm), List.head?_cons]

/-- Where a path holds one stream, a group and the report of the stream say the same of the trace
that opened the group. -/
theorem flaggedAlike_of_opens (h : Trace.Timed traces) {group : Group α} {path : String}
    {before after : List (Trace α)} {first : Trace α}
    (hsplit : Trace.timeline (onPath path traces) = before ++ first :: after)
    (hopens : group.Opens before first)
    (hone : ∀ t ∈ Trace.timeline (onPath path traces), stream t = stream first) :
    FlaggedAlike (detect none true traces) group
      (ofRoute group.signature (Trace.timeline (onPath path traces))) := by
  have hfirst : first ∈ Trace.timeline (onPath path traces) := by simp [hsplit]
  obtain ⟨hmem, hhops, rfl⟩ := mem_timeline_onPath.mp hfirst
  have hall : (Trace.timeline (onPath first.pathId traces)).filter (stream · == stream first)
      = before ++ first :: after := by
    rw [List.filter_eq_self.mpr fun t ht => beq_iff_eq.mpr (hone t ht), hsplit]
  have hreport := (exists_report_iff h hmem hhops _).mpr rfl
  rw [hall, follow_append, Option.or_none] at hreport
  obtain ⟨htrace, hflag, -⟩ := compareWith_of_opens hopens rfl
  refine ⟨first, ?_, _, hreport.1, hreport.2, _, _, _, rfl, htrace, ?_, by rw [hflag]⟩
  · rw [hsplit, head?_ofRoute hopens.signature hopens.fresh]
  · intro o ho
    have hbefore : o.trace ∈ before := by
      rw [← map_trace_follow none before]
      exact List.mem_map_of_mem ho
    exact hopens.signature ▸ hopens.fresh _ hbefore

omit [Scalar α] in
/-- Where two streams are in a list, one of them comes in after another one. -/
theorem exists_newcomer {traces : List (Trace α)}
    (h : ∃ t ∈ traces, ∃ t' ∈ traces, stream t ≠ stream t') :
    ∃ x rest front newcomer back, traces = x :: rest ∧ traces = front ++ newcomer :: back ∧
      x ∈ front ∧ ∀ t ∈ front, stream t ≠ stream newcomer := by
  obtain ⟨t, ht, t', ht', hne⟩ := h
  cases traces with
  | nil => cases ht
  | cons x rest =>
    have hother : ∃ s ∈ x :: rest, decide (stream s ≠ stream x) = true := by
      by_cases hx : stream t = stream x
      · exact ⟨t', ht', decide_eq_true (hx ▸ hne.symm)⟩
      · exact ⟨t, ht, decide_eq_true hx⟩
    obtain ⟨newcomer, hfind⟩ := Option.isSome_iff_exists.mp (List.find?_isSome.mpr hother)
    obtain ⟨hnew, front, back, hsplit, hfront⟩ := List.find?_eq_some_iff_append.mp hfind
    have hold : ∀ s ∈ front, stream s = stream x := by simpa using hfront
    have hnew : stream newcomer ≠ stream x := of_decide_eq_true hnew
    refine ⟨x, rest, front, newcomer, back, rfl, hsplit, ?_, fun s hs => ?_⟩
    · cases front with
      | nil => exact absurd (congrArg stream (List.cons.inj hsplit).1.symm) hnew
      | cons y front =>
        obtain ⟨rfl, -⟩ := List.cons.inj hsplit
        exact List.mem_cons_self
    · rw [hold s hs]
      exact hnew.symm

/-- The first trace of a stream has nothing before it in its report. -/
theorem not_isChange_of_newcomer (h : Trace.Timed traces) {path : String}
    {front back : List (Trace α)} {t : Trace α}
    (hsplit : Trace.timeline (onPath path traces) = front ++ t :: back)
    (hnew : ∀ s ∈ front, stream s ≠ stream t) {report : Report α}
    (hreport : report ∈ detect none true traces)
    (hstream : report.stream = ⟨t.source, some t.target⟩)
    {before after : List (Observation α)} {o : Observation α}
    (hobserved : report.observations = before ++ o :: after)
    (hfresh : ∀ b ∈ before, b.trace.signature ≠ t.signature) : o.isChange = false := by
  have ht : t ∈ Trace.timeline (onPath path traces) := by simp [hsplit]
  obtain ⟨hmem, hhops, rfl⟩ := mem_timeline_onPath.mp ht
  have hnone : front.filter (stream · == stream t) = [] :=
    List.filter_eq_nil_iff.mpr fun s hs hsame => hnew s hs (eq_of_beq hsame)
  rw [(exists_report_iff h hmem hhops report).mp ⟨hreport, hstream⟩, hsplit, List.filter_append,
    hnone, List.nil_append, List.filter_cons, if_pos (beq_self_eq_true _),
    follow] at hobserved
  cases before with
  | nil => exact (List.cons.inj hobserved).1 ▸ isChange_compareWith_none t
  | cons b before =>
    have hb := hfresh b List.mem_cons_self
    rw [← (List.cons.inj hobserved).1, Detector.trace_compareWith] at hb
    exact absurd rfl hb

/-- **Two streams on one path** are in one group, or the second one opens a group that counts as a
change and has nothing before it in its report. -/
theorem exists_mismatch (h : Trace.Timed traces) {path : String}
    (hmeet : ∃ t ∈ Trace.timeline (onPath path traces),
      ∃ t' ∈ Trace.timeline (onPath path traces), stream t ≠ stream t') :
    ∃ group members, Gathers traces group members ∧
      ¬ (OneStream members ∧ FlaggedAlike (detect none true traces) group members) := by
  obtain ⟨x, rest, front, t, back, hcons, hsplit, hx, hnew⟩ := exists_newcomer hmeet
  have ht : t ∈ Trace.timeline (onPath path traces) := by simp [hsplit]
  obtain ⟨group, hgroup, hsignature⟩ := List.mem_map.mp (mem_map_signature_groups.mpr ⟨t, ht, rfl⟩)
  refine ⟨group, _, ⟨path, hgroup, rfl⟩, ?_⟩
  rintro ⟨hone, halike⟩
  by_cases hroute : ∃ s ∈ front, s.signature = t.signature
  · obtain ⟨s, hs, hsame⟩ := hroute
    have hs' : s ∈ Trace.timeline (onPath path traces) := by simp [hsplit, hs]
    exact hnew s hs (stream_eq_iff.mpr (hone s
      (List.mem_filter.mpr ⟨hs', beq_iff_eq.mpr (hsame.trans hsignature.symm)⟩) t
      (List.mem_filter.mpr ⟨ht, beq_iff_eq.mpr hsignature.symm⟩)))
  · have hfresh : ∀ s ∈ front, s.signature ≠ group.signature := fun s hs hsame =>
      hroute ⟨s, hs, hsame.trans hsignature⟩
    obtain ⟨_, _, _, hopened, hopens⟩ := opens_of_mem hgroup
    have hchange : group.isChange = true :=
      (opens_first hopens (hcons.symm.trans hopened)).mpr (hfresh x hx).symm
    obtain ⟨first, hfirst, report, hreport, hstream, _, o, _, hobserved, -, hbefore, hflag⟩ :=
      halike
    rw [hsplit, head?_ofRoute hsignature hfresh] at hfirst
    obtain rfl := Option.some.inj hfirst
    have hplain := not_isChange_of_newcomer h hsplit hnew hreport hstream hobserved hbefore
    rw [hflag.mp hchange] at hplain
    cases hplain

/-- **Groups match reports** on all paths just when each path holds one stream. -/
theorem groups_match_iff (h : Trace.Timed traces) :
    (∀ group members, Gathers traces group members →
        OneStream members ∧ FlaggedAlike (detect none true traces) group members) ↔
      PathsApart (traces.filter Trace.hasHops) := by
  constructor
  · intro hmatch t ht t' ht' hpath
    by_contra hne
    obtain ⟨ht, hhops⟩ := List.mem_filter.mp ht
    obtain ⟨ht', hhops'⟩ := List.mem_filter.mp ht'
    obtain ⟨group, members, hgathers, hbad⟩ := exists_mismatch h
      ⟨t, mem_timeline_onPath.mpr ⟨ht, hhops, hpath⟩, t',
        mem_timeline_onPath.mpr ⟨ht', hhops', rfl⟩, fun hsame => hne (stream_eq_iff.mp hsame)⟩
    exact hbad (hmatch group members hgathers)
  · rintro hapart group members ⟨path, hgroup, rfl⟩
    have hstreams : ∀ t ∈ Trace.timeline (onPath path traces),
        ∀ t' ∈ Trace.timeline (onPath path traces),
          t.source = t'.source ∧ t.target = t'.target := by
      intro t ht t' ht'
      obtain ⟨ht, hhops, hpath⟩ := mem_timeline_onPath.mp ht
      obtain ⟨ht', hhops', hpath'⟩ := mem_timeline_onPath.mp ht'
      exact hapart t (List.mem_filter.mpr ⟨ht, hhops⟩) t' (List.mem_filter.mpr ⟨ht', hhops'⟩)
        (hpath.trans hpath'.symm)
    obtain ⟨before, first, after, hsplit, hopens⟩ := opens_of_mem hgroup
    have hfirst : first ∈ Trace.timeline (onPath path traces) := by simp [hsplit]
    exact ⟨fun t ht t' ht' => hstreams t (List.mem_filter.mp ht).1 t' (List.mem_filter.mp ht').1,
      flaggedAlike_of_opens h hsplit hopens fun t ht =>
        stream_eq_iff.mpr (hstreams t ht first hfirst)⟩

/-- **Members of one stream**: groups have no others when no streams share a path and a route. -/
theorem oneStream_iff :
    (∀ group members, Gathers traces group members → OneStream members) ↔
      ∀ t ∈ traces.filter Trace.hasHops, ∀ t' ∈ traces.filter Trace.hasHops,
        t.pathId = t'.pathId → t.signature = t'.signature →
          t.source = t'.source ∧ t.target = t'.target := by
  constructor
  · intro hone t ht t' ht' hpath hroute
    obtain ⟨ht, hhops⟩ := List.mem_filter.mp ht
    obtain ⟨ht', hhops'⟩ := List.mem_filter.mp ht'
    have ht : t ∈ Trace.timeline (onPath t'.pathId traces) :=
      mem_timeline_onPath.mpr ⟨ht, hhops, hpath⟩
    have ht' : t' ∈ Trace.timeline (onPath t'.pathId traces) :=
      mem_timeline_onPath.mpr ⟨ht', hhops', rfl⟩
    obtain ⟨group, hgroup, hsignature⟩ :=
      List.mem_map.mp (mem_map_signature_groups.mpr ⟨t', ht', rfl⟩)
    exact hone group _ ⟨t'.pathId, hgroup, rfl⟩
      t (List.mem_filter.mpr ⟨ht, beq_iff_eq.mpr (hroute.trans hsignature.symm)⟩)
      t' (List.mem_filter.mpr ⟨ht', beq_iff_eq.mpr hsignature.symm⟩)
  · rintro hapart group members ⟨path, -, rfl⟩ t ht t' ht'
    obtain ⟨ht, hroute⟩ := List.mem_filter.mp ht
    obtain ⟨ht', hroute'⟩ := List.mem_filter.mp ht'
    obtain ⟨ht, hhops, hpath⟩ := mem_timeline_onPath.mp ht
    obtain ⟨ht', hhops', hpath'⟩ := mem_timeline_onPath.mp ht'
    exact hapart t (List.mem_filter.mpr ⟨ht, hhops⟩) t' (List.mem_filter.mpr ⟨ht', hhops'⟩)
      (hpath.trans hpath'.symm) ((eq_of_beq hroute).trans (eq_of_beq hroute').symm)

/-- **A group of a path** tells of its members. -/
theorem covers_of_gathers (h : Trace.Timed traces) {group : Group α} {members : List (Trace α)}
    (hgathers : Gathers traces group members) : group.Covers members := by
  obtain ⟨path, hgroup, rfl⟩ := hgathers
  obtain ⟨front, first, back, hsplit, -, rfl⟩ := mem_groups hgroup
  have hfirst : first.trace ∈ Trace.timeline (onPath path traces) := by
    rw [← map_trace_steps none (Trace.timeline (onPath path traces)), hsplit]
    simp
  refine covers_ofMembers (List.mem_filter.mpr ⟨hfirst, beq_self_eq_true _⟩) ?_
  exact h.of_subset fun t ht => (mem_timeline_onPath.mp (List.mem_filter.mp ht).1).1

/-- The reports of the traces to a target are those of a list that holds no others. -/
theorem detect_eq_detect_filter (h : Trace.Timed traces) (target : Option String) :
    detect target true traces
      = detect none true (traces.filter fun t => target.all (t.target == ·)) := by
  rw [detect, detect, Trace.timeline_filter h]
  simp only [Option.all_none, List.filter_true]

end Groups

end Route

/-! ## 3. The views of an atlas -/

namespace Atlas

open Route

section Views

variable [Scalar α] (a : Atlas α) (source target : Option String)

/-- **The groups of an atlas** are those of the paths of the traces that are asked for. -/
theorem mem_routeGroups {rule : TieBreak} {group : Route.Group α} :
    group ∈ a.routeGroups source target rule ↔
      ∃ members, Gathers (a.tracesFor source target) group members := by
  rw [routeGroups, rank, (rankBy_perm _ rule _).mem_iff, Order.groupByText_eq, List.flatMap_map,
    List.mem_flatMap]
  constructor
  · rintro ⟨path, -, hgroup⟩
    exact ⟨_, path, hgroup, rfl⟩
  · rintro ⟨_, path, hgroup, rfl⟩
    obtain ⟨before, first, after, hsplit, -⟩ := opens_of_mem hgroup
    have hfirst : first ∈ Trace.timeline (onPath path (a.tracesFor source target)) := by
      simp [hsplit]
    obtain ⟨hmem, -, hpath⟩ := mem_timeline_onPath.mp hfirst
    exact ⟨path, Order.mem_groupKeys.mpr (List.mem_map.mpr ⟨first, hmem, hpath⟩), hgroup⟩

/-- **The reports of an atlas** are those of the traces that are asked for. -/
theorem routeChanges_eq (h : Trace.Timed a.traces) :
    a.routeChanges source target = Change.detect none true (a.tracesFor source target) := by
  have hsource : Trace.Timed (a.tracesFor source none) := h.filter _
  rw [routeChanges, detect_eq_detect_filter hsource, tracesFor, tracesFor, List.filter_filter]
  congr 1
  exact List.filter_congr fun t _ => by simp [Bool.and_comm]

end Views

/-- The traces with hops that are shown are those that were asked for. -/
theorem mem_filter_tracesFor {a : Atlas α} {traces : List (Trace α)} [Scalar α]
    (h : a.traces = window traces) {source target : Option String} {t : Trace α} :
    t ∈ (a.tracesFor source target).filter Trace.hasHops
      ↔ t ∈ traces.filter (asked source target) := by
  simp only [tracesFor, h, List.mem_filter, mem_window, asked, Bool.and_eq_true]
  tauto

section Refreshing

variable [Scalar α] [Planar α]

/-- **Groups match reports** after a refresh just when the name of a path tells its stream.  A
refresh takes in every window whose host names are texts or absent.  For any source and target, the
groups that an atlas shows are those of the paths of the traces that were asked for.  All groups
have members of one stream when no two streams share a path and a route; they are flagged like their
first members in the reports of their streams, besides, when no two streams share a path.  That is
so whenever no source has an arrow in its name. -/
theorem groups_match_changes_iff (a : Atlas α) (generatedAt : α) (traces : List (Trace α)) :
    (Topology.Named traces → ∃ g b, a.refresh generatedAt traces = (.ok g, b)) ∧
      ∀ g b, a.refresh generatedAt traces = (.ok g, b) → ∀ source target,
        let asked := traces.filter (asked source target)
        let Shows := Gathers (b.tracesFor source target)
        (∀ rule group, group ∈ b.routeGroups source target rule ↔ ∃ members, Shows group members) ∧
        ((∀ group members, Shows group members → OneStream members) ↔
          ∀ t ∈ asked, ∀ t' ∈ asked, t.pathId = t'.pathId → t.signature = t'.signature →
            t.source = t'.source ∧ t.target = t'.target) ∧
        (Trace.Timed traces →
          (∀ group members, Shows group members → group.Covers members) ∧
          ((∀ group members, Shows group members → OneStream members ∧
              FlaggedAlike (b.routeChanges source target) group members) ↔ PathsApart asked)) ∧
        ((∀ t ∈ asked, ¬ separator.toList <:+: t.source.toList) → PathsApart asked) := by
  refine ⟨a.exists_refresh generatedAt, fun g b hrefresh source target => ?_⟩
  obtain ⟨-, htraces, -, -⟩ := holds_of_refresh hrefresh
  have hshown : ∀ t, t ∈ (b.tracesFor source target).filter Trace.hasHops
      ↔ t ∈ traces.filter (asked source target) := fun t => mem_filter_tracesFor htraces
  refine ⟨fun rule group => b.mem_routeGroups source target, ?_, fun htimed => ?_,
    pathsApart_of_not_infix⟩
  · have hmembers : (∀ group members, Gathers (b.tracesFor source target) group members →
        OneStream members) ↔ _ := oneStream_iff
    simpa only [hshown] using hmembers
  · have hwindow : Trace.Timed b.traces :=
      htraces ▸ htimed.of_subset fun t ht => (mem_window.mp ht).1
    have hasked : Trace.Timed (b.tracesFor source target) := hwindow.filter _
    refine ⟨fun group members => covers_of_gathers hasked, ?_⟩
    rw [b.routeChanges_eq source target hwindow]
    simpa only [PathsApart, hshown] using groups_match_iff hasked

end Refreshing

theorem groups_match_changes_rerouted : ∃ g b, blank.refresh 0 Change.rerouted = (.ok g, b) ∧
    (∀ group ∈ b.routeGroups (some "7") none .recency, ∃ members,
      group.Covers members ∧ OneStream members ∧
        FlaggedAlike (b.routeChanges (some "7") none) group members) := by
  have htimed : Trace.Timed Change.rerouted := Trace.timed_of_not_nan (by decide +kernel)
  obtain ⟨hexists, hmatch⟩ := groups_match_changes_iff blank 0 Change.rerouted
  obtain ⟨g, b, hrefresh⟩ := hexists (by decide)
  obtain ⟨hgroups, -, hstreams, hapart⟩ := hmatch g b hrefresh (some "7") none
  obtain ⟨hcovers, hiff⟩ := hstreams htimed
  refine ⟨g, b, hrefresh, fun group hgroup => ?_⟩
  obtain ⟨members, hshows⟩ := (hgroups .recency group).mp hgroup
  exact ⟨members, hcovers group members hshows,
    hiff.mpr (hapart (by decide +kernel)) group members hshows⟩

/-- Two traces on one path, of two streams and on two routes. -/
def crossing : List (Trace Float) :=
  [{ Change.probe "a" "10.0.0.1" 1.0 with target := "b->c" },
    { Change.probe "a->b" "10.0.0.2" 2.0 with target := "c" }]

/-- The second stream's only route counts as a change among the groups, and not in its report. -/
theorem groups_match_changes_crossing : ∃ g b, blank.refresh 0 crossing = (.ok g, b) ∧
    ((b.routeGroups none none .recency).map fun group => (group.signature, group.isChange))
      = [("10.0.0.2", true), ("10.0.0.1", false)] ∧
    ((b.routeChanges none none).map fun report => (report.stream, report.observations.map
        fun o => (o.trace.signature, o.isChange)))
      = [(⟨"a", some "b->c"⟩, [("10.0.0.1", false)]),
         (⟨"a->b", some "c"⟩, [("10.0.0.2", false)])] := by
  have hnamed : Topology.Named crossing := by decide
  obtain ⟨g, b, hrefresh⟩ := blank.exists_refresh 0 hnamed
  obtain ⟨-, htraces, -, -⟩ := holds_of_refresh hrefresh
  refine ⟨g, b, hrefresh, ?_, ?_⟩
  · rw [routeGroups, tracesFor, htraces]
    decide +kernel
  · rw [routeChanges, tracesFor, htraces]
    decide +kernel

end Atlas

end PathAtlas
