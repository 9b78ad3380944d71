/-
# The loops of a poller

Between two starts four things can come to a poller: a step of one of its loops, the end of a
loop's rest, the beginning of a stop, and the next step of one.  Everything that the program does
in one go is a row of these (`Moves`), so what each of the four keeps is kept by all.

Two facts hold whatever happens (`Settles`).  No move brings a loop back that is over, and a
failure is put on record as a whole, its text and its time.  A poller of which no loop goes on
therefore asks nothing more.

A third one does not.  A poller has its loops in hand (`Orderly`) when the only one that goes on
is its own, no failure is on record meanwhile, and every stop under way waits for THAT loop.  All
moves keep this, and so does a start while nothing is waited for.  A start in the wait of a stop
breaks the last part: the stop then forgets a loop that it never told to stop, and the poller,
which does not know of it any more, can begin another one beside it.
-/
import PathAtlas.Proofs.Outcome
import PathAtlas.Service.Poller

namespace PathAtlas.Service

/-! ## 1. Responses -/

/-- A document that brings records: a list of them, or a mapping that has one under its first
name. -/
inductive Carries (records : List Json) : Json → Prop
  | list : Carries records (.list records)
  | records {es} (h : Json.lookUp "records" es = some (.list records)) :
    Carries records (.mapping es)
  | data {es} (hrecords : Json.lookUp "records" es = none)
      (hdata : Json.lookUp "data" es = some (.list records)) : Carries records (.mapping es)

/-- What a feed can say that is of no use. -/
inductive Unusable : Response → Prop
  | unreachable (text : String) : Unusable (.failure text)
  | refused {status body} (h : status.same (.whole 200) = false) : Unusable (.answer status body)
  | shapeless {status body} (h : ∀ records, ¬ Carries records body) : Unusable (.answer status body)

/-- A body carries records as a list, or in one of two entries. -/
theorem recordsOf_eq_ok {body : Json} {records : List Json} :
    recordsOf body = .ok records ↔ Carries records body := by
  constructor
  · intro h
    cases body with
    | list rs =>
      obtain rfl := Except.ok.inj h
      exact .list
    | mapping es =>
      cases hrecords : Json.lookUp "records" es with
      | some v =>
        cases v <;> simp [recordsOf, hrecords] at h
        exact .records (h ▸ hrecords)
      | none =>
        cases hdata : Json.lookUp "data" es with
        | none => simp [recordsOf, hrecords, hdata] at h
        | some v =>
          cases v <;> simp [recordsOf, hrecords, hdata] at h
          exact .data hrecords (h ▸ hdata)
    | _ => cases h
  · rintro (_ | h | ⟨hrecords, hdata⟩)
    · rfl
    · simp [recordsOf, h]
    · simp [recordsOf, hrecords, hdata]

/-- **Responses without records** are the unusable ones. -/
theorem fails_records_iff {r : Response} : Fails r.records ↔ Unusable r := by
  cases r with
  | failure text => exact iff_of_true (fails_error _) (.unreachable text)
  | answer status body =>
    rw [Response.records]
    cases hstatus : status.same (.whole 200) with
    | false => exact iff_of_true (fails_error _) (.refused hstatus)
    | true =>
      rw [if_pos rfl]
      constructor
      · rintro ⟨fault, hfault⟩
        refine .shapeless fun records hcarries => ?_
        rw [recordsOf_eq_ok.mpr hcarries] at hfault
        cases hfault
      · rintro (_ | hrefused | hshapeless)
        · rw [hstatus] at hrefused
          cases hrefused
        · by_contra hfails
          obtain ⟨records, hrecords⟩ := not_fails_iff.mp hfails
          exact hshapeless records (recordsOf_eq_ok.mp hrecords)

namespace Poller

/-! ## 2. Loops by their places -/

section Places

variable {p p' : Poller} {i j : Nat} {phase : PollPhase}

theorem isOpen_of_getElem? (h : p.loops[i]? = some phase) : p.isOpen i = !phase.isOver := by
  simp [isOpen, h]

theorem lt_length_of_isOpen (h : p.isOpen i = true) : i < p.loops.length := by
  by_contra hge
  rw [isOpen, List.getElem?_eq_none (Nat.not_lt.mp hge)] at h
  cases h

theorem isOpen_congr (h : p'.loops = p.loops) (i : Nat) : p'.isOpen i = p.isOpen i := by
  simp [isOpen, h]

theorem isOpen_withPhase_of_ne (h : j ≠ i) : (p.withPhase i phase).isOpen j = p.isOpen j := by
  simp [isOpen, withPhase, List.getElem?_set_ne h.symm]

theorem getElem?_withPhase_self (h : p.isOpen i = true) :
    (p.withPhase i phase).loops[i]? = some phase :=
  List.getElem?_set_self (lt_length_of_isOpen h)

/-- A loop that is given a state goes on only where it went on before. -/
theorem isOpen_of_withPhase (h : p.isOpen i = true)
    (hj : (p.withPhase i phase).isOpen j = true) : p.isOpen j = true := by
  by_cases hji : j = i
  · exact hji ▸ h
  · exact (isOpen_withPhase_of_ne hji).symm.trans hj

def openLoops (p : Poller) : Nat := p.loops.countP fun phase => !phase.isOver

/-- At most one element has a property that only one place allows. -/
theorem countP_le_one {β : Type} {q : β → Bool} {xs : List β}
    (h : ∀ (i j : Nat) (x y : β), xs[i]? = some x → q x = true → xs[j]? = some y → q y = true →
      i = j) :
    xs.countP q ≤ 1 := by
  induction xs with
  | nil => exact Nat.zero_le 1
  | cons x xs ih =>
    by_cases hx : q x = true
    · have hnone : xs.countP q = 0 := List.countP_eq_zero.mpr fun y hy hq => by
        obtain ⟨j, hj⟩ := List.mem_iff_getElem?.mp hy
        have hsame := h 0 (j + 1) x y rfl hx hj hq
        cases hsame
      exact Nat.le_of_eq (by rw [List.countP_cons_of_pos hx, hnone])
    · rw [List.countP_cons_of_neg hx]
      exact ih fun i j y z hi hy hj hz => Nat.succ.inj (h (i + 1) (j + 1) y z hi hy hj hz)

theorem exists_isOpen_of_openLoops (h : p.openLoops ≠ 0) : ∃ i, p.isOpen i = true := by
  obtain ⟨phase, hphase, hopen⟩ := List.countP_pos_iff.mp (Nat.pos_of_ne_zero h)
  obtain ⟨i, hi⟩ := List.mem_iff_getElem?.mp hphase
  exact ⟨i, (isOpen_of_getElem? hi).trans hopen⟩

end Places

/-! ## 3. One step of a loop -/

section Steps

variable {σ : Type} {now : Float} {sink : Sink σ} {p : Poller} {s : σ} {i : Nat}

/-- What asking and taking an answer leave alone. -/
structure Framed (p p' : Poller) : Prop where
  loops : p'.loops = p.loops
  current : p'.current = p.current
  stops : p'.stops = p.stops

/-- What asking changes of a poller whose session is not closed. -/
structure Asked (p p' : Poller) : Prop extends Framed p p' where
  calls : p'.calls = p.calls + 1
  lastError : p'.lastError = p.lastError
  failedAt : p'.failedAt = p.failedAt
  lastSuccess : p'.lastSuccess = p.lastSuccess

theorem ask_of_open (h : p.sessionClosed = false) :
    ∃ p', p.ask = (.ok (), p') ∧ Asked p p' := by
  rw [ask, if_neg (Bool.eq_false_iff.mp h), openSession]
  split <;> exact ⟨_, rfl, ⟨rfl, rfl, rfl⟩, rfl, rfl, rfl, rfl⟩

theorem ask_of_closed (h : p.sessionClosed = true) : p.ask = (.error .sessionClosed, p) := by
  rw [ask, h]
  rfl

/-- What an answer changes of a poller, and whether its loop goes on. -/
structure Answered (now : Float) (p p' : Poller) (goesOn : Bool) : Prop extends Framed p p' where
  calls : p'.calls = p.calls
  /-- A failure is recorded with its time. -/
  records : goesOn = false → p'.lastError.isSome = true ∧ p'.failedAt = some now
  clear : goesOn = true → p'.lastError = p.lastError ∧ p'.failedAt = p.failedAt

/-- Taking an answer records a failure, and else changes nothing. -/
theorem answered (now : Float) (sink : Sink σ) (p : Poller) (s : σ) :
    Answered now p (p.takeAnswer now sink s).2.1 (p.takeAnswer now sink s).1.isSome := by
  have hfailed {p' : Poller} {fault : Fault} (h : Framed p p') (hcalls : p'.calls = p.calls) :
      Answered now p (p'.recordFailure now fault) false :=
    ⟨⟨h.loops, h.current, h.stops⟩, hcalls, fun _ => ⟨rfl, rfl⟩, fun h => (nomatch h)⟩
  rw [takeAnswer, hear]
  cases (p.responses.headD .exhausted).records with
  | error fault => exact hfailed ⟨rfl, rfl, rfl⟩ rfl
  | ok records =>
    simp only [deliver]
    rcases sink p.workspace records s with ⟨fault | ⟨⟩, s'⟩
    · exact hfailed ⟨rfl, rfl, rfl⟩ rfl
    · simp only [conclude, Except.bind]
      cases passesTime p.interval with
      | error fault => exact hfailed ⟨rfl, rfl, rfl⟩ rfl
      | ok pauses => exact ⟨⟨rfl, rfl, rfl⟩, rfl, fun h => (nomatch h), fun _ => ⟨rfl, rfl⟩⟩

/-- **An answer that is of no use** reaches nobody. -/
theorem takeAnswer_of_unusable (now : Float) (sink : Sink σ) (s : σ)
    (h : Unusable (p.responses.headD .exhausted)) :
    (p.takeAnswer now sink s).1 = none ∧ (p.takeAnswer now sink s).2.2 = s ∧
      (p.takeAnswer now sink s).2.1.lastSuccess = p.lastSuccess := by
  obtain ⟨fault, hfault⟩ := fails_records_iff.mpr h
  rw [takeAnswer, hear, hfault]
  exact ⟨rfl, rfl, rfl⟩

/-- What a step of a loop does, by what the loop waits for. -/
inductive Stepped (now : Float) (sink : Sink σ) (p : Poller) (s : σ) (i : Nat) :
    Poller × σ → Prop
  | asks {p'} (h : p.loops[i]? = some .due) (hopen : p.sessionClosed = false) (hask : Asked p p') :
    Stepped now sink p s i (p'.withPhase i .asking, s)
  | refused (h : p.loops[i]? = some .due) (hclosed : p.sessionClosed = true) :
    Stepped now sink p s i ((p.recordFailure now .sessionClosed).withPhase i .finished, s)
  | hears (h : p.loops[i]? = some .asking) :
    Stepped now sink p s i
      ((p.takeAnswer now sink s).2.1.withPhase i (.afterPoll (p.takeAnswer now sink s).1),
        (p.takeAnswer now sink s).2.2)
  | ends (h : p.loops[i]? = some .cancelling) :
    Stepped now sink p s i (p.withPhase i .cancelled, s)
  /-- The loop rests, is over or was never begun. -/
  | still (hdue : p.loops[i]? ≠ some .due) (hasking : p.loops[i]? ≠ some .asking)
      (hcancelling : p.loops[i]? ≠ some .cancelling) : Stepped now sink p s i (p, s)

/-- The step of a loop comes to one of these. -/
theorem stepped (now : Float) (sink : Sink σ) (p : Poller) (s : σ) (i : Nat) :
    Stepped now sink p s i (stepLoop now sink (p, s) i) := by
  rw [stepLoop]
  cases hphase : p.loops[i]? with
  | none => exact .still (by simp [hphase]) (by simp [hphase]) (by simp [hphase])
  | some phase =>
    cases phase with
    | due =>
      cases hclosed : p.sessionClosed with
      | true =>
        simp only [ask_of_closed hclosed]
        exact .refused hphase hclosed
      | false =>
        obtain ⟨p', hask, hasked⟩ := ask_of_open hclosed
        simp only [hask]
        exact .asks hphase hclosed hasked
    | asking => exact .hears hphase
    | cancelling => exact .ends hphase
    | resting | finished | cancelled =>
      exact .still (by simp [hphase]) (by simp [hphase]) (by simp [hphase])

theorem isOver_afterPoll (pauses : Option Bool) :
    (PollPhase.afterPoll pauses).isOver = !pauses.isSome := by
  rcases pauses with _ | _ | _ <;> rfl

end Steps

/-! ## 4. Moves -/

/-- What comes to a poller, and to what it hands its records to, between two starts. -/
inductive Moves {σ : Type} (now : Float) (sink : Sink σ) (first : Poller × σ) : Poller × σ → Prop
  | none : Moves now sink first first
  | stepLoop {state : Poller × σ} (h : Moves now sink first state) (i : Nat) :
    Moves now sink first (Poller.stepLoop now sink state i)
  | wakeLoop {state : Poller × σ} (h : Moves now sink first state) (i : Nat) :
    Moves now sink first (state.1.wakeLoop i, state.2)
  | beginStop {state : Poller × σ} (h : Moves now sink first state) :
    Moves now sink first (state.1.beginStop, state.2)
  | proceed {state : Poller × σ} (h : Moves now sink first state) (call : Nat) :
    Moves now sink first (state.1.proceed call, state.2)

section Moves

variable {σ : Type} {now : Float} {sink : Sink σ} {first state : Poller × σ}

theorem Moves.turnLoop (h : Moves now sink first state) (i : Nat) :
    Moves now sink first (Poller.turnLoop now sink state i) := by
  rw [Poller.turnLoop]
  split
  · exact (h.stepLoop i).stepLoop i
  · exact h.stepLoop i

theorem Moves.turn (h : Moves now sink first state) :
    Moves now sink first (state.1.turn now sink state.2) := by
  rw [Poller.turn]
  generalize List.range state.1.loops.length = loops
  induction loops generalizing state with
  | nil => exact h
  | cons i loops ih => exact ih (h.turnLoop i)

theorem Moves.wake (h : Moves now sink first state) :
    Moves now sink first (state.1.wake, state.2) := by
  rw [Poller.wake]
  generalize List.range state.1.loops.length = loops
  induction loops generalizing state with
  | nil => exact h
  | cons i loops ih => exact ih (h.wakeLoop i)

theorem Moves.turnUntilOver (h : Moves now sink first state) (i n : Nat) :
    Moves now sink first (Poller.turnUntilOver now sink i n state.1 state.2) := by
  induction n generalizing state with
  | zero => exact h
  | succ n ih =>
    rw [Poller.turnUntilOver]
    split
    · exact ih h.wake.turn
    · exact h

/-- **Waiting for a loop** is a row of moves. -/
theorem moves_await (now : Float) (sink : Sink σ) (p : Poller) (s : σ) :
    Moves now sink (p, s) (p.await now sink s).2 := by
  rw [await]
  split
  · exact .none
  · exact Moves.none.turnUntilOver _ _

/-- A stop that waits has told the loop that it waits for. -/
theorem getElem?_beginStop {p : Poller} {i : Nat}
    (h : p.beginStop.stops[p.stops.length]? = some (.waiting i)) :
    p.beginStop.loops[i]? = some .cancelling := by
  unfold beginStop at h ⊢
  split at h
  · rename_i j hj
    obtain rfl : j = i := by simpa using h
    exact getElem?_withPhase_self (Option.filter_eq_some_iff.mp hj).2
  · unfold afterRelease at h
    split at h <;> simp at h

/-- **Stopping in one go** is a row of moves. -/
theorem moves_stop (now : Float) (sink : Sink σ) (p : Poller) (s : σ) :
    Moves now sink (p, s) (p.stop, s) := by
  have hbegun : Moves now sink (p, s) (p.beginStop, s) := .beginStop .none
  rw [stop]
  split
  · rename_i i hi
    have hstep := hbegun.stepLoop i
    rw [Poller.stepLoop] at hstep
    simp only [getElem?_beginStop hi] at hstep
    exact (hstep.proceed _).proceed _
  · exact (hbegun.proceed _).proceed _

end Moves

/-! ## 5. What always holds -/

/-- What no move undoes. -/
structure Settles (p p' : Poller) : Prop where
  /-- No loop comes back. -/
  closes : ∀ i, p'.isOpen i = true → p.isOpen i = true
  /-- A failure is recorded as a whole. -/
  records : p'.lastError = p.lastError ∧ p'.failedAt = p.failedAt ∨
    p'.lastError.isSome = true ∧ p'.failedAt.isSome = true
  calls : (∀ i, p.isOpen i = false) → p'.calls = p.calls

def Idle (p : Poller) : Prop := ∀ i, p.isOpen i = false

section Settles

variable {σ : Type} {now : Float} {sink : Sink σ} {p p' p'' : Poller} {s : σ}

theorem Settles.refl (p : Poller) : Settles p p := ⟨fun _ h => h, .inl ⟨rfl, rfl⟩, fun _ => rfl⟩

theorem Settles.idle (h : Settles p p') (hp : p.Idle) : p'.Idle := fun i => by
  by_contra hopen
  have hbefore := h.closes i (Bool.not_eq_false _ ▸ hopen)
  rw [hp i] at hbefore
  cases hbefore

theorem Settles.trans (h : Settles p p') (h' : Settles p' p'') : Settles p p'' where
  closes i hi := h.closes i (h'.closes i hi)
  records := by
    obtain ⟨herror', htime'⟩ | hrecorded := h'.records
    · rw [herror', htime']
      exact h.records
    · exact .inr hrecorded
  calls hidle := (h'.calls (h.idle hidle)).trans (h.calls hidle)

/-- A loop that goes on gives no reason to speak of a poller at rest. -/
theorem Settles.of_open {i : Nat} (hopen : p.isOpen i = true)
    (hcloses : ∀ j, p'.isOpen j = true → p.isOpen j = true)
    (hrecords : p'.lastError = p.lastError ∧ p'.failedAt = p.failedAt ∨
      p'.lastError.isSome = true ∧ p'.failedAt.isSome = true) : Settles p p' :=
  ⟨hcloses, hrecords, fun hidle => nomatch hopen.symm.trans (hidle i)⟩

/-- A loop of which the poller was changed on the side is given its next state. -/
theorem closes_withPhase {i : Nat} {phase : PollPhase} (hloops : p'.loops = p.loops)
    (hopen : p.isOpen i = true) (j : Nat) (hj : (p'.withPhase i phase).isOpen j = true) :
    p.isOpen j = true := by
  rw [← isOpen_congr hloops] at hopen ⊢
  exact isOpen_of_withPhase hopen hj

/-- A step of a loop undoes nothing. -/
theorem Stepped.settles {i : Nat} {state : Poller × σ} (h : Stepped now sink p s i state) :
    Settles p state.1 := by
  cases h with
  | asks h _ hask =>
    have hopen := isOpen_of_getElem? h
    exact .of_open hopen (closes_withPhase hask.loops hopen) (.inl ⟨hask.lastError, hask.failedAt⟩)
  | refused h _ =>
    have hopen := isOpen_of_getElem? h
    exact .of_open hopen (closes_withPhase rfl hopen) (.inr ⟨rfl, rfl⟩)
  | hears h =>
    have hopen := isOpen_of_getElem? h
    have hanswered := answered now sink p s
    refine .of_open hopen (closes_withPhase hanswered.loops hopen) ?_
    cases hgoes : (p.takeAnswer now sink s).1.isSome with
    | true => exact .inl (hanswered.clear hgoes)
    | false =>
      obtain ⟨herror, htime⟩ := hanswered.records hgoes
      exact .inr ⟨herror, Option.isSome_of_eq_some htime⟩
  | ends h =>
    have hopen := isOpen_of_getElem? h
    exact .of_open hopen (closes_withPhase rfl hopen) (.inl ⟨rfl, rfl⟩)
  | still => exact .refl p

theorem settles_wakeLoop (p : Poller) (i : Nat) : Settles p (p.wakeLoop i) := by
  rw [wakeLoop]
  split
  · rename_i h
    have hopen := isOpen_of_getElem? h
    exact .of_open hopen (closes_withPhase rfl hopen) (.inl ⟨rfl, rfl⟩)
  · exact .refl p

theorem settles_beginStop (p : Poller) : Settles p p.beginStop := by
  unfold beginStop
  split
  · rename_i i hi
    have hopen := (Option.filter_eq_some_iff.mp hi).2
    exact .of_open hopen (closes_withPhase rfl hopen) (.inl ⟨rfl, rfl⟩)
  · exact ⟨fun _ h => h, .inl ⟨rfl, rfl⟩, fun _ => rfl⟩

theorem settles_proceed (p : Poller) (call : Nat) : Settles p (p.proceed call) := by
  have hstays {p' : Poller} (hloops : p'.loops = p.loops) (herror : p'.lastError = p.lastError)
      (htime : p'.failedAt = p.failedAt) (hcalls : p'.calls = p.calls) : Settles p p' :=
    ⟨fun i hi => (isOpen_congr hloops i).symm.trans hi, .inl ⟨herror, htime⟩, fun _ => hcalls⟩
  unfold proceed
  split
  · split <;> exact hstays rfl rfl rfl rfl
  · exact hstays rfl rfl rfl rfl
  · exact .refl p

/-- **No move brings a loop back** or records half a failure. -/
theorem Moves.settles {first state : Poller × σ} (h : Moves now sink first state) :
    Settles first.1 state.1 := by
  induction h with
  | none => exact .refl _
  | stepLoop _ i ih => exact ih.trans (stepped ..).settles
  | wakeLoop _ i ih => exact ih.trans (settles_wakeLoop ..)
  | beginStop _ ih => exact ih.trans (settles_beginStop _)
  | proceed _ call ih => exact ih.trans (settles_proceed ..)

/-- A failure is on record with its time or not at all. -/
def Paired (p : Poller) : Prop := p.lastError.isSome = p.failedAt.isSome

theorem Settles.paired (h : Settles p p') (hp : p.Paired) : p'.Paired := by
  obtain ⟨herror, htime⟩ | ⟨herror, htime⟩ := h.records
  · rw [Paired, herror, htime]
    exact hp
  · exact herror.trans htime.symm

theorem Paired.start (h : p.Paired) : p.start.Paired := by
  unfold Poller.start
  split
  · exact h
  · rfl

end Settles

/-! ## 6. A poller with its loops in hand -/

/-- Whether a stop waits for a loop. -/
def awaitsLoop (p : Poller) : Bool :=
  p.stops.any fun
    | .waiting _ => true
    | _ => false

/-- A poller that knows of all that goes on. -/
structure Orderly (p : Poller) : Prop where
  own : ∀ i, p.isOpen i = true → p.current = some i
  /-- A stop waits for the loop that it has told to stop, and there is no other. -/
  awaited : ∀ i j, .waiting i ∈ p.stops → p.isOpen j = true → j = i
  clear : ∀ i, p.isOpen i = true → p.lastError = none ∧ p.failedAt = none

section Orderly

variable {σ : Type} {now : Float} {sink : Sink σ} {p p' : Poller} {s : σ}

theorem Orderly.single (h : p.Orderly) : p.openLoops ≤ 1 := by
  refine countP_le_one fun i j x y hi hx hj hy => ?_
  have hcurrent := h.own i ((isOpen_of_getElem? hi).trans hx)
  exact Option.some.inj (hcurrent.symm.trans (h.own j ((isOpen_of_getElem? hj).trans hy)))

theorem Orderly.running_of_isOpen (h : p.Orderly) {i : Nat} (hi : p.isOpen i = true) :
    p.running = true := by
  rw [running, h.own i hi]
  exact hi

theorem Orderly.idle (h : p.Orderly) (hidle : p.running = false) : p.Idle := fun i => by
  by_contra hopen
  rw [h.running_of_isOpen (Bool.not_eq_false _ ▸ hopen)] at hidle
  cases hidle

theorem Orderly.idle_of_failed (h : p.Orderly) (hfailed : p.failed = true) : p.Idle := fun i => by
  by_contra hopen
  rw [failed, (h.clear i (Bool.not_eq_false _ ▸ hopen)).1] at hfailed
  cases hfailed

/-- With no loop going on everything is in hand. -/
theorem Idle.orderly (h : p.Idle) : p.Orderly where
  own i hi := nomatch hi.symm.trans (h i)
  awaited _ j _ hj := nomatch hj.symm.trans (h j)
  clear i hi := nomatch hi.symm.trans (h i)

theorem not_waiting_of_awaitsLoop (h : p.awaitsLoop = false) (i : Nat) :
    StopPhase.waiting i ∉ p.stops := fun hmem => by
  rw [awaitsLoop, List.any_eq_false] at h
  exact h _ hmem rfl

/-- **A start** keeps the loops in hand when it begins none, or while no stop waits for one. -/
theorem Orderly.start (h : p.Orderly) (hquiet : p.running = true ∨ p.awaitsLoop = false) :
    p.start.Orderly := by
  unfold Poller.start
  split
  · exact h
  · rename_i hidle
    have hidle := h.idle (Bool.not_eq_true _ ▸ hidle)
    have hfree := not_waiting_of_awaitsLoop (hquiet.resolve_left ‹_›)
    refine ⟨fun i hi => ?_, fun i _ hi _ => absurd hi (hfree i), fun _ _ => ⟨rfl, rfl⟩⟩
    -- the loops before are all over, so the one that is not is the new one
    rcases Nat.lt_trichotomy i p.loops.length with hlt | rfl | hgt
    · rw [isOpen, List.getElem?_append_left hlt] at hi
      exact nomatch hi.symm.trans (hidle i)
    · rfl
    · rw [isOpen, List.getElem?_eq_none (by simp; omega)] at hi
      cases hi

/-- Loops, stops and what is recorded of failures are all that there is to being in hand. -/
theorem Orderly.of_eq (h : p.Orderly) (hcurrent : p'.current = p.current)
    (hstops : p'.stops = p.stops) (hsettles : Settles p p')
    (hclear : p'.lastError = p.lastError ∧ p'.failedAt = p.failedAt) : p'.Orderly where
  own i hi := hcurrent.trans (h.own i (hsettles.closes i hi))
  awaited i j hi hj := h.awaited i j (hstops ▸ hi) (hsettles.closes j hj)
  clear i hi := by
    obtain ⟨herror, htime⟩ := h.clear i (hsettles.closes i hi)
    exact ⟨hclear.1.trans herror, hclear.2.trans htime⟩

/-- When the loop that failed is over, no other one goes on. -/
theorem Orderly.idle_of_withPhase {i : Nat} (h : p.Orderly) (hloops : p'.loops = p.loops)
    (hopen : p.isOpen i = true) {phase : PollPhase} (hover : phase.isOver = true) :
    (p'.withPhase i phase).Idle := fun j => by
  rw [← isOpen_congr hloops] at hopen
  by_cases hj : j = i
  · rw [hj, isOpen_of_getElem? (getElem?_withPhase_self hopen), hover]
    rfl
  · rw [isOpen_withPhase_of_ne hj, isOpen_congr hloops]
    by_contra hj'
    have hi := h.own i (isOpen_congr hloops i ▸ hopen)
    exact hj (Option.some.inj ((h.own j (Bool.not_eq_false _ ▸ hj')).symm.trans hi))

/-- A step of a loop keeps the poller in order. -/
theorem Orderly.stepped {i : Nat} {state : Poller × σ} (h : p.Orderly)
    (hstep : Stepped now sink p s i state) : state.1.Orderly := by
  have hsettles := hstep.settles
  cases hstep with
  | asks _ _ hask => exact h.of_eq hask.current hask.stops hsettles ⟨hask.lastError, hask.failedAt⟩
  | refused hdue _ =>
    have hloops : (p.recordFailure now .sessionClosed).loops = p.loops := rfl
    have hover : PollPhase.finished.isOver = true := rfl
    exact (h.idle_of_withPhase hloops (isOpen_of_getElem? hdue) hover).orderly
  | hears hasking =>
    have hanswered := answered now sink p s
    cases hgoes : (p.takeAnswer now sink s).1.isSome with
    | true => exact h.of_eq hanswered.current hanswered.stops hsettles (hanswered.clear hgoes)
    | false =>
      have hover : (PollPhase.afterPoll (p.takeAnswer now sink s).1).isOver = true := by
        rw [isOver_afterPoll, hgoes]
        rfl
      exact (h.idle_of_withPhase hanswered.loops (isOpen_of_getElem? hasking) hover).orderly
  | ends => exact h.of_eq rfl rfl hsettles ⟨rfl, rfl⟩
  | still => exact h

theorem Orderly.wakeLoop (h : p.Orderly) (i : Nat) : (p.wakeLoop i).Orderly := by
  have hsettles := settles_wakeLoop p i
  revert hsettles
  rw [Poller.wakeLoop]
  split
  · exact fun hsettles => h.of_eq rfl rfl hsettles ⟨rfl, rfl⟩
  · exact fun _ => h

/-- A stop that begins keeps the poller in order. -/
theorem Orderly.beginStop (h : p.Orderly) : p.beginStop.Orderly := by
  have hsettles := settles_beginStop p
  revert hsettles
  unfold Poller.beginStop
  split
  · rename_i i hi
    obtain ⟨hcurrent, hopen⟩ := Option.filter_eq_some_iff.mp hi
    intro hsettles
    refine ⟨fun j hj => h.own j (hsettles.closes j hj), fun j k hj hk => ?_,
      fun j hj => h.clear j (hsettles.closes j hj)⟩
    rcases List.mem_append.mp hj with hj | hj
    · exact h.awaited j k hj (hsettles.closes k hk)
    · -- the new stop waits for the poller's own loop
      obtain rfl : j = i := by simpa using hj
      exact Option.some.inj ((h.own k (hsettles.closes k hk)).symm.trans hcurrent)
  · rename_i hnone
    have hrunning : p.running = false := by
      rw [running, Option.any_eq_false]
      intro i hi
      simpa [hi] using hnone
    intro hsettles
    exact (hsettles.idle (h.idle hrunning)).orderly

/-- A stop that goes on keeps the poller in order. -/
theorem Orderly.proceed (h : p.Orderly) (call : Nat) : (p.proceed call).Orderly := by
  have hsettles := settles_proceed p call
  revert hsettles
  unfold Poller.proceed
  split
  · rename_i i hi
    split
    · exact fun _ => h
    · -- the loop is over that the stop waits for, and no other one goes on
      rename_i hover
      have hidle : p.Idle := fun j => by
        by_contra hopen
        rw [Bool.not_eq_false] at hopen
        exact hover (h.awaited i j (List.mem_of_getElem? hi) hopen ▸ hopen)
      exact fun hsettles => (hsettles.idle hidle).orderly
  · intro hsettles
    refine ⟨h.own, fun i j hi hj => h.awaited i j ?_ hj, h.clear⟩
    rcases List.mem_or_eq_of_mem_set hi with hi | hi
    · exact hi
    · cases hi
  · exact fun _ => h

/-- **Every move** finds the loops in hand and leaves them so. -/
theorem Moves.orderly {first state : Poller × σ} (h : Moves now sink first state)
    (hfirst : first.1.Orderly) : state.1.Orderly := by
  induction h with
  | none => exact hfirst
  | stepLoop _ i ih => exact ih.stepped (stepped ..)
  | wakeLoop _ i ih => exact ih.wakeLoop i
  | beginStop _ ih => exact ih.beginStop
  | proceed _ call ih => exact ih.proceed call

end Orderly

end Poller

end PathAtlas.Service
