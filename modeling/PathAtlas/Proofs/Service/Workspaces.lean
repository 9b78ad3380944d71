/-
# Workspaces do not interfere

All workspaces share one server.  Here it is shown that without a feed the answers to one workspace
are the same whether or not there are requests to others: a run from which such requests are taken
out gives the same answers to those that are left (`transcript_filter_same`).

Every request is confined to the workspace that it is addressed to (`answer_confined`).  Two runs,
one with the other requests and one without, then keep hubs that are the same to the workspace.  Its
own requests take both hubs one step further with one answer (`meets_of_concerns`); any other
request leaves its hub the same (`meets_of_not_concerns`).

In the store behind the hub all workspaces lie side by side under keys that are made of their names.
No key is that of two workspaces, so a list that is read under a key is the workspace's own
(`find?_keyed`), and none is the key of the names themselves.
-/
import PathAtlas.Proofs.Service.Confinement

namespace PathAtlas.Service

/-! ## 1. Keys -/

namespace Store

theorem recordsKey_inj {workspace other : String}
    (h : recordsKey workspace = recordsKey other) : workspace = other :=
  String.append_right_inj _ |>.mp h

/-- No list of records lies where the names of the workspaces do. -/
theorem recordsKey_ne_workspacesKey (workspace : String) :
    recordsKey workspace ≠ workspacesKey := by
  intro h
  have hstart : ("routemap:records:".toList ++ workspace.toList).take 10
      = workspacesKey.toList.take 10 := by
    rw [← String.toList_append]
    exact congrArg (fun key => key.toList.take 10) h
  cases hstart

/-- **Under the key of a workspace** lies its own list. -/
theorem find?_keyed (store : Store) (workspace : String) :
    store.keyed.find? (recordsKey workspace) = store.lists.find? workspace := by
  rw [keyed]
  induction store.lists with
  | nil => rfl
  | cons entry rest ih =>
    by_cases hkey : entry.1 = workspace
    · simp [Table.find?, hkey]
    · have hne : recordsKey entry.1 ≠ recordsKey workspace := fun h => hkey (recordsKey_inj h)
      simp [Table.find?, hkey, hne, ih]

end Store

/-! ## 2. Requests -/

namespace Hub

/-- The workspace that the body of a push names. -/
def bodyWorkspace (i : Inquiry) : String :=
  match i.body >>= fun body => body.memberD "workspace" (.text defaultWorkspace) with
  | .ok name => name.display
  | .error _ => defaultWorkspace

/-- A push is confined to the workspace that its body names. -/
theorem within_handleIngest (i : Inquiry) : Within (bodyWorkspace i) (handleIngest i) := by
  unfold handleIngest
  refine within_lift_bind fun body hbody => within_lift_bind fun records _ => ?_
  split
  · refine within_lift_bind fun name hname => ?_
    have hworkspace : bodyWorkspace i = name.display := by
      rw [bodyWorkspace, hbody]
      simp only [bind, Except.bind, hname]
    rw [hworkspace]
    refine within_lift_bind fun replace _ => within_bind (within_ingest ..) fun accepted => ?_
    exact within_bind (within_atlasOf _) fun atlas => within_pure _
  · exact within_pure _

/-- A refresh is confined to the workspace that is asked for. -/
theorem within_handleRefresh (source : Json) (restarted : Bool) (i : Inquiry) :
    Within i.workspace (handleRefresh source restarted i) := by
  unfold handleRefresh
  refine within_get_bind (fun hub hub' h => ?_) fun hub => ?_
  · simp only [meets, h.atlas, h.knows, h.now]
  · refine within_lift_bind fun known _ => ?_
    simp only
    split
    · refine within_bind (within_throw _) fun _ => ?_
      exact within_bind (within_rebuild _) fun _ => within_pure _
    · exact within_bind (within_rebuild _) fun _ => within_pure _

/-- A reply that reads of the hub no more than the time. -/
theorem within_stamped {w : String} {reply : Hub → Reply}
    (h : ∀ hub hub' : Hub, hub'.now = hub.now → reply hub' = reply hub) :
    Within w (do return reply (← get) : Action Hub Reply) :=
  within_get_bind (fun hub hub' hsame => by rw [h hub hub' hsame.now]) fun _ => within_pure _

theorem within_handleTopology (source : Json) (i : Inquiry) :
    Within i.workspace (handleTopology source i) := by
  unfold handleTopology
  exact within_bind (within_atlasOf _) fun atlas => within_stamped fun _ _ h => by rw [h]

theorem within_handlePicture (i : Inquiry) : Within i.workspace (handlePicture i) := by
  unfold handlePicture
  refine within_lift_bind fun width _ => within_lift_bind fun height _ => ?_
  refine within_bind (within_atlasOf _) fun atlas => ?_
  exact within_lift_bind fun calls _ => within_pure _

theorem within_handleSelect (i : Inquiry) : Within i.workspace (handleSelect i) := by
  unfold handleSelect
  refine within_bind (within_atlasOf _) fun atlas => ?_
  exact within_bind (within_withAtlas _ _) fun _ => within_pure _

theorem within_dragPlace (i : Inquiry) : Within i.workspace (dragPlace i) := by
  unfold dragPlace
  refine within_bind (within_atlasOf _) fun _ => within_lift_bind fun body _ => ?_
  refine within_lift_bind fun _ _ => within_lift_bind fun x _ => ?_
  exact within_lift_bind fun _ _ => within_lift_bind fun y _ => within_pure _

theorem within_drag (i : Inquiry) (x y : Float) : Within i.workspace (drag i x y) := by
  unfold drag
  refine within_bind (within_atlasOf _) fun atlas => within_lift_bind fun dragged _ => ?_
  exact within_bind (within_withAtlas _ _) fun _ => within_pure _

theorem within_handleRelease (i : Inquiry) : Within i.workspace (handleRelease i) := by
  unfold handleRelease
  refine within_bind (within_atlasOf _) fun atlas => within_lift_bind fun released _ => ?_
  exact within_bind (within_withAtlas _ _) fun _ => within_pure _

theorem within_handleRoutes (i : Inquiry) : Within i.workspace (handleRoutes i) := by
  unfold handleRoutes
  refine within_bind (within_atlasOf _) fun atlas => within_lift_bind fun rule _ => ?_
  exact within_stamped fun _ _ h => by rw [h]

theorem within_handleChanges (i : Inquiry) : Within i.workspace (handleChanges i) := by
  unfold handleChanges
  exact within_bind (within_atlasOf _) fun atlas => within_stamped fun _ _ h => by rw [h]

theorem within_handleAnalysis (i : Inquiry) : Within i.workspace (handleAnalysis i) := by
  unfold handleAnalysis
  split
  · exact within_bind (within_atlasOf _) fun atlas => within_stamped fun _ _ h => by rw [h]
  · exact within_pure _

theorem within_handleAggregated (i : Inquiry) : Within i.workspace (handleAggregated i) := by
  unfold handleAggregated
  refine within_lift_bind fun width _ => within_lift_bind fun limit _ => ?_
  refine within_bind (within_atlasOf _) fun atlas => within_lift_bind fun entries _ => ?_
  exact within_lift_bind fun _ _ => within_stamped fun _ _ h => by rw [h]

end Hub

/-! ## 3. Answers -/

section Answers

variable {w : String}

theorem confined_answering {status : Fault → Nat} {action : Action Hub Reply}
    (h : Within w action) : Confined w (answering status action) := by
  refine h.andThen fun r => ?_
  cases r with
  | error fault =>
    exact ⟨_, confined_of_unchanged (.trouble (status fault) fault.message), fun hrun => by
      rw [answering, hrun]⟩
  | ok reply => exact ⟨_, confined_of_unchanged reply, fun hrun => by rw [answering, hrun]⟩

/-- A drag changes the atlas of its workspace and nothing else. -/
theorem confined_handleDrag (i : Inquiry) : Confined i.workspace (Hub.handleDrag i) := by
  refine (Hub.within_dragPlace i).andThen fun r => ?_
  cases r with
  | ok place =>
    exact ⟨_, confined_answering (Hub.within_drag i place.1 place.2), fun hrun => by
      rw [Hub.handleDrag, hrun]⟩
  | error fault =>
    cases fault with
    | unknownWorkspace name =>
      exact ⟨_, confined_of_unchanged (.trouble 404 (Fault.unknownWorkspace name).message),
        fun hrun => by rw [Hub.handleDrag, hrun]⟩
    | _ =>
      exact ⟨_, confined_of_unchanged (.trouble 400 ("Invalid drag request: " ++ Fault.message _)),
        fun hrun => by rw [Hub.handleDrag, hrun]⟩

end Answers

namespace Server

/-- The workspace that a request is addressed to; whether the service is well is asked of none. -/
def addressee (operation : Operation) (i : Inquiry) : Option String :=
  match operation with
  | .health => none
  | .ingest => some (Hub.bodyWorkspace i)
  | _ => some i.workspace

/-- **Every request** to a server without a feed is confined to the workspace that it is addressed
to. -/
theorem answer_confined {operation : Operation} {i : Inquiry} {w : String}
    (h : addressee operation i = some w) : ∃ f, Confined w f ∧
      ∀ hub : Hub, ({ hub } : Server).answer operation i = ((f hub).1, { hub := (f hub).2 }) := by
  cases operation <;> cases h
  case ingest => exact ⟨_, confined_answering (Hub.within_handleIngest i), fun _ => rfl⟩
  case refresh =>
    exact ⟨_, confined_answering (Hub.within_handleRefresh .null false i), fun _ => rfl⟩
  case topology => exact ⟨_, confined_answering (Hub.within_handleTopology .null i), fun _ => rfl⟩
  case picture => exact ⟨_, confined_answering (Hub.within_handlePicture i), fun _ => rfl⟩
  case select => exact ⟨_, confined_answering (Hub.within_handleSelect i), fun _ => rfl⟩
  case drag => exact ⟨_, confined_handleDrag i, fun _ => rfl⟩
  case release => exact ⟨_, confined_answering (Hub.within_handleRelease i), fun _ => rfl⟩
  case routes => exact ⟨_, confined_answering (Hub.within_handleRoutes i), fun _ => rfl⟩
  case changes => exact ⟨_, confined_answering (Hub.within_handleChanges i), fun _ => rfl⟩
  case analysis => exact ⟨_, confined_answering (Hub.within_handleAnalysis i), fun _ => rfl⟩
  case aggregated => exact ⟨_, confined_answering (Hub.within_handleAggregated i), fun _ => rfl⟩

/-! ## 4. Runs -/

/-- What a server meets: it is another time, time passes in its store, the keeper of the store does
otherwise from now on, or a request comes. -/
inductive Event where
  | clock (now : Float)
  | elapse (time : Nat)
  | keeper (keeper : Keeper)
  | request (operation : Operation) (i : Inquiry)

/-- Whether a workspace is concerned: with the time and the keeper all of them are. -/
def Event.concerns (w : String) : Event → Bool
  | clock _ | elapse _ | keeper _ => true
  | request operation i => addressee operation i == some w

/-- What a server answers, when it is asked something, and how it goes on. -/
def meet (s : Server) : Event → Option Reply × Server
  | .clock now => (none, s.setClock now)
  | .elapse time => (none, { s with hub := { s.hub with store := s.hub.store.pass time } })
  | .keeper keeper => (none, { s with hub := { s.hub with store := { s.hub.store with keeper } } })
  | .request operation i => (some (s.answer operation i).1, (s.answer operation i).2)

/-- All that a server meets one after the other, with its answers. -/
def transcript : Server → List Event → List (Event × Option Reply)
  | _, [] => []
  | s, e :: events => (e, (s.meet e).1) :: transcript (s.meet e).2 events

variable {w : String} {hub hub' : Hub} {e : Event}

theorem same_setClock (h : Hub.Same w hub hub') (now : Float) :
    Hub.Same w { hub with now } { hub' with now } :=
  ⟨h.layoutSettings, h.limits, rfl, h.store, h.atlas⟩

theorem same_pass (h : Hub.Same w hub hub') (time : Nat) :
    Hub.Same w { hub with store := hub.store.pass time }
      { hub' with store := hub'.store.pass time } :=
  ⟨h.layoutSettings, h.limits, h.now, h.store.pass time, h.atlas⟩

theorem same_keeper (h : Hub.Same w hub hub') (keeper : Keeper) :
    Hub.Same w { hub with store := { hub.store with keeper } }
      { hub' with store := { hub'.store with keeper } } :=
  ⟨h.layoutSettings, h.limits, h.now,
    ⟨h.store.lookback, h.store.maxRecords, rfl, h.store.entries, h.store.term, h.store.known⟩,
    h.atlas⟩

/-- What concerns a workspace is answered in the same way in hubs that are the same to it, and they
stay so. -/
theorem meets_of_concerns (hsame : Hub.Same w hub hub') (h : e.concerns w = true) :
    ∃ reply hub₁ hub₁', ({ hub } : Server).meet e = (reply, { hub := hub₁ }) ∧
      ({ hub := hub' } : Server).meet e = (reply, { hub := hub₁' }) ∧ Hub.Same w hub₁ hub₁' := by
  cases e with
  | clock now => exact ⟨none, _, _, rfl, rfl, same_setClock hsame now⟩
  | elapse time => exact ⟨none, _, _, rfl, rfl, same_pass hsame time⟩
  | keeper keeper => exact ⟨none, _, _, rfl, rfl, same_keeper hsame keeper⟩
  | request operation i =>
    obtain ⟨f, hf, hanswer⟩ := answer_confined (eq_of_beq h)
    obtain ⟨hreply, hafter⟩ := hf.determined hsame
    refine ⟨some (f hub).1, _, _, ?_, ?_, hafter⟩
    · rw [meet, hanswer]
    · rw [meet, hanswer, hreply]

/-- What does not concern a workspace leaves the hub the same to it. -/
theorem meets_of_not_concerns (hub : Hub) (h : e.concerns w = false) :
    ∃ reply hub₁, ({ hub } : Server).meet e = (reply, { hub := hub₁ }) ∧ Hub.Same w hub hub₁ := by
  cases e with
  | clock | elapse | keeper => cases h
  | request operation i =>
    cases hother : addressee operation i with
    | none =>
      obtain rfl : operation = .health := by cases operation <;> first | rfl | cases hother
      exact ⟨_, hub, rfl, .refl w hub⟩
    | some other =>
      obtain ⟨f, hf, hanswer⟩ := answer_confined hother
      have hne : w ≠ other := by
        rintro rfl
        rw [Event.concerns, hother, beq_self_eq_true] at h
        cases h
      refine ⟨some (f hub).1, (f hub).2, ?_, hf.elsewhere hub w hne⟩
      rw [meet, hanswer]

/-- Runs from hubs that are the same to a workspace. -/
theorem transcript_filter_same (w : String) (keep : Event → Bool) (events : List Event)
    (hsame : Hub.Same w hub hub') :
    (transcript { hub := hub' } (events.filter fun e => e.concerns w || keep e)).filter
        (·.1.concerns w)
      = (transcript { hub } events).filter (·.1.concerns w) := by
  -- along both runs the hubs stay the same to the workspace
  induction events generalizing hub hub' with
  | nil => rfl
  | cons e events ih =>
    cases hconcerns : e.concerns w with
    | true =>
      obtain ⟨reply, hub₁, hub₁', hmeet, hmeet', hafter⟩ := meets_of_concerns hsame hconcerns
      rw [List.filter_cons_of_pos (by simp [hconcerns]), transcript, transcript, hmeet, hmeet',
        List.filter_cons, List.filter_cons, if_pos hconcerns, if_pos hconcerns, ih hafter]
    | false =>
      obtain ⟨reply, hub₁, hmeet, hafter⟩ := meets_of_not_concerns hub hconcerns
      have hskip : (transcript { hub } (e :: events)).filter (·.1.concerns w)
          = (transcript { hub := hub₁ } events).filter (·.1.concerns w) := by
        rw [transcript, hmeet, List.filter_cons_of_neg (by simp [hconcerns])]
      rw [hskip]
      cases hkeep : keep e with
      | false =>
        rw [List.filter_cons_of_neg (by simp [hconcerns, hkeep])]
        exact ih (hafter.symm.trans hsame)
      | true =>
        obtain ⟨reply', hub₁', hmeet', hafter'⟩ := meets_of_not_concerns hub' hconcerns
        rw [List.filter_cons_of_pos (by simp [hkeep]), transcript, hmeet',
          List.filter_cons_of_neg (by simp [hconcerns])]
        exact ih ((hafter.symm.trans hsame).trans hafter')

/-- **Workspaces do not interfere.**  A server without a feed gives the same answers to the requests
that concern a workspace when requests that do not concern it are taken out of its run, be it all of
them or any.  Under the key of the workspace lies its own list, and never the names of all. -/
theorem transcript_filter (hub : Hub) (w : String) (keep : Event → Bool) (events : List Event) :
    let s : Server := { hub }
    (s.transcript (events.filter fun e => e.concerns w || keep e)).filter (·.1.concerns w)
        = (s.transcript events).filter (·.1.concerns w) ∧
      (∀ store : Store, store.keyed.find? (Store.recordsKey w) = store.lists.find? w) ∧
      Store.recordsKey w ≠ Store.workspacesKey :=
  ⟨transcript_filter_same w keep events (.refl w hub), fun store => store.find?_keyed w,
    Store.recordsKey_ne_workspacesKey w⟩

end Server

end PathAtlas.Service
