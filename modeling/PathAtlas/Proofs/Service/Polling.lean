/-
# Polls and their failures

The loop of a poller ends with its first failure, and only a start begins another one.  Here this is
followed through everything that a server with a feed can meet, in any order (`Server.Step`):
starts, stops and the further steps of a stop, requests, among them refreshes, which may start the
poller again, the steps of its loops, the time that passes, and a store that comes and goes.  What
the program does in one go stands beside the steps that it is made of.

In every run a failure is on record with its time or not at all, and a poll that fails in its
request ends its loop and changes nothing but the record of failures (`Polls`).

* That one loop at most goes on, that no failure is on record meanwhile, and that nothing is asked
  after a failure until the next start, holds of every run that leaves stops alone
  (`poller_stops_at_failure`): no loop is begun while a stop waits for one (`undisturbed`).
* It holds of no more than that.  A refresh that begins a loop in the wait of a stop has that loop
  forgotten by the stop, which never told it to stop.  The next start begins a second one beside
  it, and either of them fails while the other goes on asking (`forgotten_loop_goes_on`).

The code means to have one loop: a start looks for one that goes on and leaves it alone.  A stop
drops the loop of the poller without looking again.
-/
import PathAtlas.Proofs.Service.FailedIngest
import PathAtlas.Proofs.Service.PollLoops

namespace PathAtlas.Service.Server

/-! ## 1. Steps -/

/-- What a server with a feed can meet. -/
inductive Step where
  /-- The poller is started, or started again, which is the same. -/
  | start
  /-- A call of stop begins. -/
  | stop
  /-- A call of stop, by its place, goes on when what it waits for has come. -/
  | proceed (call : Nat)
  /-- The simulations end with the server. -/
  | closeAtlases
  | request (operation : Operation) (i : Inquiry)
  /-- A step of the event loop that comes to one loop of the poller, by its place. -/
  | resume (loop : Nat)
  /-- The time passes that one loop waits for between two polls. -/
  | wake (loop : Nat)
  | clock (now : Float)
  /-- Time passes in the store. -/
  | elapse (time : Nat)
  /-- The store comes to another keeper, or its keeper does otherwise from now on. -/
  | keeper (keeper : Keeper)
  /-- Steps of the event loop until all loops had a turn, in which a poll is made from beginning
  to end. -/
  | turn
  /-- Steps of the event loop until the poller's own loop is over. -/
  | await
  /-- The server is closed while no request comes. -/
  | close

/-- The server after something was done with its poller and its hub. -/
def withPoller (s : Server) (f : Poller → Hub → Poller × Hub) : Server :=
  match s.poller with
  | none => s
  | some p =>
    let (p, hub) := f p s.hub
    { s with poller := some p, hub }

def step (s : Server) : Step → Server
  | .start => s.startPoller
  | .stop => s.withPoller fun p hub => (p.beginStop, hub)
  | .proceed call => s.withPoller fun p hub => (p.proceed call, hub)
  | .closeAtlases => s.closeAtlases
  | .request operation i => (s.answer operation i).2
  | .resume loop =>
    s.withPoller fun p hub => Poller.stepLoop s.hub.now replaceWindow (p, hub) loop
  | .wake loop => s.withPoller fun p hub => (p.wakeLoop loop, hub)
  | .clock now => s.setClock now
  | .elapse time => { s with hub := { s.hub with store := s.hub.store.pass time } }
  | .keeper keeper => { s with hub := { s.hub with store := { s.hub.store with keeper } } }
  | .turn => s.withPoller fun p hub => p.turn s.hub.now replaceWindow hub
  | .await => s.awaitPoller.2
  | .close => s.close

def run (s : Server) (steps : List Step) : Server := steps.foldl step s

def starts (s : Server) : Step → Bool
  | .start => true
  | .request .refresh i => s.restarts i.workspace
  | _ => false

/-- Whether no step starts the poller. -/
def startless : Server → List Step → Bool
  | _, [] => true
  | s, x :: steps => !s.starts x && startless (s.step x) steps

/-- Whether a step begins a loop while a stop waits for one. -/
def disturbs (s : Server) (x : Step) : Bool :=
  s.starts x && s.poller.any fun p => !p.running && p.awaitsLoop

/-- Whether no step begins a loop while a stop waits for one. -/
def undisturbed : Server → List Step → Bool
  | _, [] => true
  | s, x :: steps => !s.disturbs x && undisturbed (s.step x) steps

variable {s : Server} {p : Poller}

/-- Only a refresh touches the poller, and it does no more than to start it. -/
theorem poller_answer (operation : Operation) (i : Inquiry) :
    (s.answer operation i).2.poller = s.poller ∨
      s.starts (.request operation i) = true ∧
        (s.answer operation i).2.poller = s.poller.map Poller.start := by
  cases operation
  case refresh =>
    simp only [answer, withHub, starts]
    cases s.restarts i.workspace with
    | false => exact .inl rfl
    | true => exact .inr ⟨rfl, rfl⟩
  all_goals exact .inl rfl

/-- **What a step makes of the poller**: it is started, or it moves. -/
theorem poller_step (h : s.poller = some p) (x : Step) : ∃ p', (s.step x).poller = some p' ∧
    (s.starts x = true ∧ p' = p.start ∨
      ∃ hub, Poller.Moves s.hub.now replaceWindow (p, s.hub) (p', hub)) := by
  have hmoves {f : Poller → Hub → Poller × Hub}
      (hf : Poller.Moves s.hub.now replaceWindow (p, s.hub) (f p s.hub)) :
      ∃ p', (s.withPoller f).poller = some p' ∧
        (s.starts x = true ∧ p' = p.start ∨
          ∃ hub, Poller.Moves s.hub.now replaceWindow (p, s.hub) (p', hub)) :=
    ⟨(f p s.hub).1, by rw [withPoller, h], .inr ⟨(f p s.hub).2, hf⟩⟩
  cases x with
  | start => exact ⟨p.start, by rw [step, startPoller, h]; rfl, .inl ⟨rfl, rfl⟩⟩
  | stop => exact hmoves (.beginStop .none)
  | proceed call => exact hmoves (.proceed .none call)
  | request operation i =>
    rcases s.poller_answer operation i with hsame | ⟨hstarts, hstart⟩
    · exact ⟨p, hsame.trans h, .inr ⟨_, .none⟩⟩
    · exact ⟨p.start, hstart.trans (by rw [h]; rfl), .inl ⟨hstarts, rfl⟩⟩
  | resume i => exact hmoves (.stepLoop .none i)
  | wake i => exact hmoves (.wakeLoop .none i)
  | closeAtlases | clock | elapse | keeper => exact ⟨p, h, .inr ⟨_, .none⟩⟩
  | turn => exact hmoves Poller.Moves.none.turn
  | await =>
    exact ⟨(p.await s.hub.now replaceWindow s.hub).2.1, by rw [step, awaitPoller, h],
      .inr ⟨_, Poller.moves_await s.hub.now replaceWindow p s.hub⟩⟩
  | close =>
    exact ⟨p.stop, by rw [step, close, closeAtlases, h]; rfl,
      .inr ⟨_, Poller.moves_stop s.hub.now replaceWindow p s.hub⟩⟩

/-! ## 2. Runs -/

/-- **In every run** a failure is on record with its time or not at all. -/
theorem paired_run (h : s.poller = some p) (hp : p.Paired) (steps : List Step) :
    ∃ p', (s.run steps).poller = some p' ∧ p'.Paired := by
  induction steps generalizing s p with
  | nil => exact ⟨p, h, hp⟩
  | cons x steps ih =>
    obtain ⟨p', hp', hcases⟩ := poller_step h x
    refine ih hp' ?_
    rcases hcases with ⟨-, rfl⟩ | ⟨hub, hmoves⟩
    · exact hp.start
    · exact hmoves.settles.paired hp

/-- A start that does not disturb finds the poller running or no stop that waits. -/
theorem quiet_of_not_disturbs (h : s.poller = some p) {x : Step} (hstarts : s.starts x = true)
    (hx : s.disturbs x = false) : p.running = true ∨ p.awaitsLoop = false := by
  cases hrunning : p.running with
  | true => exact .inl rfl
  | false => exact .inr (by simpa [disturbs, hstarts, h, hrunning] using hx)

/-- **In a run that leaves stops alone** the poller keeps its loops in hand. -/
theorem orderly_run (h : s.poller = some p) (hp : p.Orderly) {steps : List Step}
    (hsteps : s.undisturbed steps = true) :
    ∃ p', (s.run steps).poller = some p' ∧ p'.Orderly := by
  induction steps generalizing s p with
  | nil => exact ⟨p, h, hp⟩
  | cons x steps ih =>
    obtain ⟨hx, hrest⟩ : s.disturbs x = false ∧ (s.step x).undisturbed steps = true := by
      simpa [undisturbed] using hsteps
    obtain ⟨p', hp', hcases⟩ := poller_step h x
    refine ih hp' ?_ hrest
    rcases hcases with ⟨hstarts, rfl⟩ | ⟨hub, hmoves⟩
    · exact hp.start (quiet_of_not_disturbs h hstarts hx)
    · exact hmoves.orderly hp

/-- **Without a start** a poller of which no loop goes on asks nothing of its feed. -/
theorem calls_of_startless (h : s.poller = some p) (hp : p.Idle) {steps : List Step}
    (hstartless : s.startless steps = true) :
    ∃ p', (s.run steps).poller = some p' ∧ p'.calls = p.calls := by
  -- no move brings a loop back, and without a loop no request is made
  induction steps generalizing s p with
  | nil => exact ⟨p, h, rfl⟩
  | cons x steps ih =>
    obtain ⟨hstarts, hrest⟩ : s.starts x = false ∧ (s.step x).startless steps = true := by
      simpa [startless] using hstartless
    obtain ⟨p', hp', hcases⟩ := poller_step h x
    rcases hcases with ⟨hstart, -⟩ | ⟨hub, hmoves⟩
    · rw [hstarts] at hstart
      cases hstart
    · obtain ⟨p'', hp'', hcalls⟩ := ih hp' (hmoves.settles.idle hp) hrest
      exact ⟨p'', hp'', hcalls.trans (hmoves.settles.calls hp)⟩

/-! ## 3. Polls -/

/-- A loop whose poll fails in its next step before it has any records. -/
inductive FailsInRequest (p : Poller) (loop : Nat) : Prop
  | closed (h : p.loops[loop]? = some .due) (hclosed : p.sessionClosed = true)
  | unusable (h : p.loops[loop]? = some .asking)
      (hunusable : Unusable (p.responses.headD .exhausted))

/-- What the step of a loop comes to. -/
structure Polls (s : Server) (p : Poller) (loop : Nat) (s' : Server) (p' : Poller) : Prop where
  /-- A loop that is due asks once. -/
  calls : p'.calls = p.calls
    + if p.loops[loop]? = some .due ∧ p.sessionClosed = false then 1 else 0
  /-- A loop that goes on leaves the record of failures as it is. -/
  goesOn : p'.loops[loop]? ≠ some .finished →
    p'.lastError = p.lastError ∧ p'.failedAt = p.failedAt
  ends : p.isOpen loop = true → p'.loops[loop]? = some .finished →
    p'.lastError.isSome = true ∧ p'.failedAt = some s.hub.now
  /-- No record, no atlas and no count of the hub changes. -/
  fails : FailsInRequest p loop → p'.loops[loop]? = some .finished ∧ s'.hub = s.hub ∧
    p'.lastSuccess = p.lastSuccess

/-- **An answer** that comes to a loop is taken as it is, and the loop rests or is over. -/
theorem polls_of_asking {loop : Nat} (h : p.loops[loop]? = some .asking) :
    let answer := p.takeAnswer s.hub.now replaceWindow s.hub
    let p' := answer.2.1.withPhase loop (.afterPoll answer.1)
    Polls s p loop { s with poller := some p', hub := answer.2.2 } p' := by
  intro answer p'
  have hanswered := Poller.answered s.hub.now replaceWindow p s.hub
  have hself : p'.loops[loop]? = some (.afterPoll answer.1) :=
    Poller.getElem?_withPhase_self
      ((Poller.isOpen_congr hanswered.loops loop).trans (Poller.isOpen_of_getElem? h))
  have hfinished : PollPhase.afterPoll answer.1 = .finished ↔ answer.1.isSome = false := by
    rcases answer.1 with _ | _ | _ <;> simp [PollPhase.afterPoll]
  refine ⟨by rw [if_neg (by simp [h])]; exact hanswered.calls,
    fun hgoes => hanswered.clear ?_, fun _ hover => hanswered.records ?_, fun hfails => ?_⟩
  · by_contra hnot
    exact hgoes (hself.trans (congrArg some (hfinished.mpr (Bool.not_eq_true _ ▸ hnot))))
  · exact hfinished.mp (Option.some.inj (hself.symm.trans hover))
  · cases hfails with
    | closed hdue _ => cases h.symm.trans hdue
    | unusable _ hunusable =>
      obtain ⟨hnone, hhub, hsuccess⟩ :=
        Poller.takeAnswer_of_unusable s.hub.now replaceWindow s.hub hunusable
      exact ⟨hself.trans (congrArg some (hfinished.mpr (by rw [hnone]; rfl))), hhub, hsuccess⟩

/-- The step of a loop, told of the whole server. -/
theorem polls_of_stepped {loop : Nat} {state : Poller × Hub}
    (h : Poller.Stepped s.hub.now replaceWindow p s.hub loop state) :
    Polls s p loop { s with poller := some state.1, hub := state.2 } state.1 := by
  have hneither (hdue : p.loops[loop]? ≠ some .due) (hasking : p.loops[loop]? ≠ some .asking) :
      ¬ FailsInRequest p loop
    | .closed h _ => hdue h
    | .unusable h _ => hasking h
  cases h with
  | @asks asking h hopen hask =>
    have hself : (asking.withPhase loop .asking).loops[loop]? = some .asking :=
      Poller.getElem?_withPhase_self
        ((Poller.isOpen_congr hask.loops loop).trans (Poller.isOpen_of_getElem? h))
    refine ⟨by rw [if_pos ⟨h, hopen⟩]; exact hask.calls, fun _ => ⟨hask.lastError, hask.failedAt⟩,
      fun _ hfinished => (nomatch hself.symm.trans hfinished), fun hfails => ?_⟩
    cases hfails with
    | closed _ hclosed => cases hopen.symm.trans hclosed
    | unusable hasking _ => cases h.symm.trans hasking
  | refused h hclosed =>
    have hself : (p.withPhase loop .finished).loops[loop]? = some .finished :=
      Poller.getElem?_withPhase_self (Poller.isOpen_of_getElem? h)
    exact ⟨by rw [if_neg (by simp [hclosed])]; rfl,
      fun hgoes => absurd hself hgoes, fun _ _ => ⟨rfl, rfl⟩, fun _ => ⟨hself, rfl, rfl⟩⟩
  | hears h => exact polls_of_asking h
  | ends h =>
    have hself : (p.withPhase loop .cancelled).loops[loop]? = some .cancelled :=
      Poller.getElem?_withPhase_self (Poller.isOpen_of_getElem? h)
    exact ⟨by rw [if_neg (by simp [h])]; rfl, fun _ => ⟨rfl, rfl⟩,
      fun _ hfinished => (nomatch hself.symm.trans hfinished),
      fun hfails => absurd hfails (hneither (by simp [h]) (by simp [h]))⟩
  | still hdue hasking hcancelling =>
    refine ⟨by rw [if_neg fun h => hdue h.1]; rfl, fun _ => ⟨rfl, rfl⟩, fun hopen hfinished => ?_,
      fun hfails => absurd hfails (hneither hdue hasking)⟩
    cases hopen.symm.trans (Poller.isOpen_of_getElem? hfinished)

theorem polls_resume (h : s.poller = some p) (loop : Nat) :
    ∃ p', (s.step (.resume loop)).poller = some p' ∧
      Polls s p loop (s.step (.resume loop)) p' := by
  rw [step, withPoller, h]
  exact ⟨_, rfl, polls_of_stepped (Poller.stepped ..)⟩

/-! ## 4. Pollers and their failures -/

/-- **A poller and its failures.**  Whatever its feed says and whatever a server with a new poller
meets, in any order, a failure is on record with its time or not at all; a step of a loop makes one
request if the loop is due and none otherwise; a loop that fails ends with the failure on record;
and one that fails in its request changes no record and no atlas, and the last success stays.

When no loop is begun while a stop waits for one, one loop at most goes on, and it is the
poller's own.  While it does no failure is on record, and after a failure nothing is asked of the
feed until the next start. -/
theorem poller_stops_at_failure (hub : Hub) (outage : Option Fault)
    (url workspace interval lookbackMinutes : Json) (reports : Bool) (responses : List Response)
    (steps : List Step) :
    let first : Server := {
      hub, outage
      poller := some { url, workspace, interval, lookbackMinutes, reports, responses } }
    ∃ p, (first.run steps).poller = some p ∧
      p.lastError.isSome = p.failedAt.isSome ∧
      (∀ loop, ∃ p', ((first.run steps).step (.resume loop)).poller = some p' ∧
        Polls (first.run steps) p loop ((first.run steps).step (.resume loop)) p') ∧
      (first.undisturbed steps = true →
        (p.openLoops ≤ 1 ∧ ∀ loop, p.isOpen loop = true → p.current = some loop) ∧
        (p.openLoops ≠ 0 → p.lastError = none ∧ p.failedAt = none) ∧
        (p.failed = true → ∀ later, (first.run steps).startless later = true →
          ∃ p', ((first.run steps).run later).poller = some p' ∧ p'.calls = p.calls)) := by
  intro first
  obtain ⟨p, hp, hpaired⟩ := paired_run (s := first) rfl (by rfl) steps
  refine ⟨p, hp, hpaired, polls_resume hp, fun hsteps => ?_⟩
  have hnew : Poller.Idle { url, workspace, interval, lookbackMinutes, reports, responses } :=
    fun _ => rfl
  obtain ⟨p', hp', horderly⟩ := orderly_run (s := first) rfl hnew.orderly hsteps
  obtain rfl : p' = p := Option.some.inj (hp'.symm.trans hp)
  refine ⟨⟨horderly.single, horderly.own⟩, fun hopen => ?_, fun hfailed later hlater =>
    calls_of_startless hp (horderly.idle_of_failed hfailed) hlater⟩
  obtain ⟨loop, hloop⟩ := Poller.exists_isOpen_of_openLoops hopen
  exact horderly.clear loop hloop

def refusing : Server where
  hub := Hub.quiet
  poller := some
    { url := .text "feed", workspace := .text defaultWorkspace, interval := .whole 30
      lookbackMinutes := .whole 60, responses := [.answer (.whole 500) .null] }

/-- A start in the wait of a stop that leaves its loop alone. -/
def stoppedInPeace : List Step :=
  [.start, .resume 0, .stop, .start, .resume 0, .proceed 0, .proceed 0, .request .refresh {},
    .resume 1, .resume 1]

theorem poller_stops_at_failure_refusing :
    refusing.undisturbed stoppedInPeace = true ∧
      ∃ p, (refusing.run stoppedInPeace).poller = some p ∧ p.failed = true ∧ p.openLoops ≤ 1 ∧
        ∀ later, (refusing.run stoppedInPeace).startless later = true →
          ∃ p', ((refusing.run stoppedInPeace).run later).poller = some p' ∧
            p'.calls = p.calls := by
  have hsteps : refusing.undisturbed stoppedInPeace = true := by decide +kernel
  have hfailed : (refusing.run stoppedInPeace).poller.any Poller.failed = true := by decide +kernel
  obtain ⟨p, hp, -, -, hstops⟩ := poller_stops_at_failure Hub.quiet none (.text "feed")
    (.text defaultWorkspace) (.whole 30) (.whole 60) true [.answer (.whole 500) .null]
    stoppedInPeace
  obtain ⟨⟨hsingle, -⟩, -, hlater⟩ := hstops hsteps
  replace hfailed : p.failed = true := by
    have hp' : (refusing.run stoppedInPeace).poller = some p := hp
    rwa [hp'] at hfailed
  exact ⟨hsteps, p, hp, hfailed, hsingle, hlater hfailed⟩

/-- **A forgotten loop goes on.**  A refresh in the wait of a stop begins a loop, the stop forgets
it, and a start begins another one.  One of the two fails while the other goes on, and that one asks
again though nothing was started since. -/
theorem forgotten_loop_goes_on :
    let forgotten : List Step :=
      [.start, .resume 0, .stop, .resume 0, .request .refresh {}, .proceed 0, .proceed 0, .start]
    let failed := forgotten ++ [.resume 1, .resume 1]
    let told (steps : List Step) :=
      (refusing.run steps).poller.map fun p => (p.openLoops, p.failed, p.calls)
    refusing.undisturbed forgotten = false ∧
      told forgotten = some (2, false, 1) ∧
      told failed = some (1, true, 2) ∧
      (refusing.run failed).startless [.resume 2] = true ∧
      told (failed ++ [.resume 2]) = some (1, true, 3) := by
  decide +kernel

end PathAtlas.Service.Server
