/-
# Sorting by runs

A stable sort for comparisons that need not be orders, such as that of times some of which are
not numbers.  Under an order every stable sort gives the same list; without one the list shows
which elements were compared.  So the scheme is fixed here: the list is cut into runs that
ascend or fall by themselves, short ones are filled up by binary insertion, and neighbouring runs
are merged in an order that depends on their lengths alone.

Main statement: sorting only moves elements (`sort_perm`).

The number of merges in a row that one side may win before the search leaps ahead (`patience`) is
carried from merge to merge, as it decides which elements are compared next.  Fuel bounds the
recursions whose arguments do not shrink by structure.  That sorting only moves elements holds
however little of it there is; that it is never short belongs to the proof that a list comes out in
order.
-/
namespace PathAtlas.Order.Runs

variable {β : Type}

/-! ## 1. Searching -/

/-- Where a stretch ends that lasts as long as a test holds, between two places and found by
halving.  The bias says which of the two middle places of an even stretch is tried. -/
def halve (test : Nat → Bool) (bias low high : Nat) : Nat :=
  if low < high then
    let mid := low + (high - low - bias) / 2
    if test mid then halve test bias (mid + 1) high else halve test bias low mid
  else low
termination_by high - low
decreasing_by all_goals omega

/-- Two places between which such a stretch ends, found by leaps that double: the last one at
which the test held, and the next one. -/
def leap (test : Nat → Bool) (size last next : Nat) : Nat × Nat :=
  if next < size then
    if test next then leap test size next (2 * next + 1) else (last, next)
  else (last, size)
termination_by size - next
decreasing_by omega

/-- Whether the element at a place of a list passes a test. -/
def passes (test : β → Bool) (xs : List β) (i : Nat) : Bool := xs[i]?.any test

/-- How many elements at the front of a list pass a test. -/
def gallop (bias : Nat) (test : β → Bool) (xs : List β) : Nat :=
  if passes test xs 0 then
    let (last, next) := leap (passes test xs) xs.length 0 1
    halve (passes test xs) bias (last + 1) next
  else 0

/-! ## 2. Runs -/

/-- How many elements follow an element in a list while a test on neighbours holds. -/
def stretch (test : β → β → Bool) : β → List β → Nat
  | _, [] => 0
  | x, y :: ys => if test x y then stretch test y ys + 1 else 0

/-- The run at the front of a list, and the rest.  A run that falls is turned round; it falls
strictly, so that elements which the comparison does not separate keep their order. -/
def firstRun (before : β → β → Bool) : List β → List β × List β
  | [] => ([], [])
  | [x] => ([x], [])
  | x :: y :: rest =>
    let falls := before y x
    let size := stretch (fun a b => before b a == falls) x (y :: rest) + 1
    let run := (x :: y :: rest).take size
    (if falls then run.reverse else run, (x :: y :: rest).drop size)

/-- Puts an element into a run, behind all that it does not stand before. -/
def insert (before : β → β → Bool) (run : List β) (x : β) : List β :=
  let place := halve (passes (fun y => !before x y) run) 0 0 run.length
  run.take place ++ x :: run.drop place

theorem insert_perm (before : β → β → Bool) (run : List β) (x : β) :
    (insert before run x).Perm (x :: run) := by
  unfold insert
  exact List.perm_middle.trans (.cons x (.of_eq (List.take_append_drop _ run)))

theorem foldl_insert_perm (before : β → β → Bool) (run xs : List β) :
    (xs.foldl (insert before) run).Perm (run ++ xs) := by
  induction xs generalizing run with
  | nil => simp
  | cons x xs ih =>
    exact (ih _).trans (((insert_perm before run x).append_right xs).trans List.perm_middle.symm)

/-- The run at the front and what follows it are the list. -/
theorem firstRun_perm (before : β → β → Bool) (xs : List β) :
    ((firstRun before xs).1 ++ (firstRun before xs).2).Perm xs := by
  match xs with
  | [] => exact .refl _
  | [x] => exact .refl _
  | x :: y :: rest =>
    simp only [firstRun]
    refine .trans (.append_right _ ?_) (.of_eq (List.take_append_drop _ (x :: y :: rest)))
    split
    · exact List.reverse_perm _
    · exact .refl _

/-- The length up to which short runs are filled: that of a short list, else a number from 32 to
64 of which a power of two makes up the length of the list, or a little more. -/
def leastLength (size : Nat) (more : Bool) : Nat :=
  if size < 64 then size + more.toNat
  else leastLength (size / 2) (more || size % 2 == 1)
termination_by size
decreasing_by omega

/-- The run at the front of a list, filled up to a length, and the rest. -/
def filledRun (before : β → β → Bool) (least : Nat) (xs : List β) : List β × List β :=
  let (run, rest) := firstRun before xs
  let missing := least - run.length
  ((rest.take missing).foldl (insert before) run, rest.drop missing)

theorem filledRun_perm (before : β → β → Bool) (least : Nat) (xs : List β) :
    ((filledRun before least xs).1 ++ (filledRun before least xs).2).Perm xs := by
  simp only [filledRun]
  refine .trans (.append_right _ (foldl_insert_perm before _ _)) ?_
  rw [List.append_assoc, List.take_append_drop]
  exact firstRun_perm before xs

/-! ## 3. Merging two runs -/

/-- How two runs are merged.  They are merged from one of their ends, and one of them keeps its
last element back until the other is used up. -/
structure Manner (β : Type) where
  /-- Whether the element of the first run is taken, not that of the second. -/
  takesFirst : β → β → Bool
  /-- How many elements the first run keeps back. -/
  firstKept : Nat
  /-- How many elements the second run keeps back. -/
  secondKept : Nat
  /-- The bias of the search in the runs. -/
  bias : Nat

/-- From the front: the first run keeps its last element back. -/
def Manner.forward (before : β → β → Bool) : Manner β := ⟨fun x y => !before y x, 1, 0, 0⟩

/-- From the back, on runs that are turned round: the second run keeps its first element back. -/
def Manner.backward (before : β → β → Bool) : Manner β := ⟨fun x y => before y x, 0, 1, 1⟩

/-- Two runs on the way to be merged. -/
structure Merge (β : Type) where
  /-- What has been taken so far, in order. -/
  taken : List β
  /-- What is left of the first run. -/
  first : List β
  /-- What is left of the second run. -/
  second : List β
  /-- How often in a row the first run has been taken from. -/
  firstWins : Nat := 0
  /-- How often in a row the second run has been taken from. -/
  secondWins : Nat := 0
  /-- Whether many elements are taken at once. -/
  gallops : Bool := false
  /-- How many wins in a row it takes to take many elements at once. -/
  patience : Nat

namespace Merge

/-- All elements of the two runs. -/
def content (m : Merge β) : List β := m.taken ++ (m.first ++ m.second)

def takeFirst (n : Nat) (m : Merge β) : Merge β :=
  { m with taken := m.taken ++ m.first.take n, first := m.first.drop n }

def takeSecond (n : Nat) (m : Merge β) : Merge β :=
  { m with taken := m.taken ++ m.second.take n, second := m.second.drop n }

/-- Whether one of the runs has nothing left but what it keeps back. -/
def isDone (manner : Manner β) (m : Merge β) : Bool :=
  m.first.length ≤ manner.firstKept || m.second.length ≤ manner.secondKept

/-- Goes on unless it is done. -/
def onward (manner : Manner β) (next : Merge β → Merge β) (m : Merge β) : Merge β :=
  if m.isDone manner then m else next m

/-- How many elements of the first run come before the second one. -/
def firstLead (manner : Manner β) (m : Merge β) : Nat :=
  match m.second with
  | [] => 0
  | y :: _ => gallop manner.bias (fun x => manner.takesFirst x y) m.first

/-- How many elements of the second run come before the first one. -/
def secondLead (manner : Manner β) (m : Merge β) : Nat :=
  match m.first with
  | [] => 0
  | x :: _ => gallop manner.bias (fun y => !manner.takesFirst x y) m.second

/-- A lead that is worth being looked for. -/
def longLead : Nat := 7

/-- Takes to taking many elements at once when one of the runs has won often enough in a row. -/
def impatient (m : Merge β) : Merge β :=
  if m.patience ≤ m.firstWins + m.secondWins then
    { m with gallops := true, patience := m.patience + 1 }
  else m

/-- Takes one element, from the run that wins. -/
def single (manner : Manner β) (m : Merge β) : Merge β :=
  match m.first, m.second with
  | x :: _, y :: _ =>
    let m :=
      if manner.takesFirst x y then
        { m.takeFirst 1 with firstWins := m.firstWins + 1, secondWins := 0 }
      else { m.takeSecond 1 with firstWins := 0, secondWins := m.secondWins + 1 }
    m.onward manner impatient
  | _, _ => m

/-- Goes on taking many elements at once as long as one of the leads was long. -/
def review (firstLead secondLead : Nat) (m : Merge β) : Merge β :=
  if longLead ≤ firstLead || longLead ≤ secondLead then m
  else { m with gallops := false, firstWins := 0, secondWins := 0, patience := m.patience + 1 }

/-- Takes the lead of the first run and the element that it came before, then the lead of the
second run and the element that it came before. -/
def many (manner : Manner β) (m : Merge β) : Merge β :=
  let m := { m with patience := if 1 < m.patience then m.patience - 1 else m.patience }
  let firstLead := m.firstLead manner
  (m.takeFirst firstLead).onward manner fun m =>
    (m.takeSecond 1).onward manner fun m =>
      let secondLead := m.secondLead manner
      (m.takeSecond secondLead).onward manner fun m =>
        (m.takeFirst 1).onward manner (review firstLead secondLead)

/-- Merges until it is done, in so many steps at most. -/
def run (manner : Manner β) : Nat → Merge β → Merge β
  | 0, m => m
  | fuel + 1, m =>
    m.onward manner fun m => run manner fuel (if m.gallops then m.many manner else m.single manner)

/-- The merged run: what has been taken, and then what is left, first what was not kept back. -/
def result (manner : Manner β) (m : Merge β) : List β :=
  m.taken ++ (if manner.firstKept = 0 then m.first ++ m.second else m.second ++ m.first)

theorem content_takeFirst (n : Nat) (m : Merge β) : (m.takeFirst n).content = m.content := by
  rw [content, content, takeFirst, List.append_assoc, ← List.append_assoc (List.take n m.first),
    List.take_append_drop]

theorem content_takeSecond (n : Nat) (m : Merge β) :
    (m.takeSecond n).content.Perm m.content := by
  simp only [content, takeSecond, List.append_assoc]
  refine .append_left _ ?_
  refine (List.perm_append_comm_assoc _ _ _).trans (.append_left _ ?_)
  rw [List.take_append_drop]

theorem content_onward {manner : Manner β} {next : Merge β → Merge β}
    (h : ∀ m, (next m).content.Perm m.content) (m : Merge β) :
    (m.onward manner next).content.Perm m.content := by
  unfold onward
  split
  · exact .refl _
  · exact h m

theorem content_impatient (m : Merge β) : m.impatient.content = m.content := by
  unfold impatient
  split <;> rfl

theorem content_single (manner : Manner β) (m : Merge β) :
    (m.single manner).content.Perm m.content := by
  unfold single
  split
  · refine .trans (content_onward (fun m => .of_eq (content_impatient m)) _) ?_
    split
    · exact .of_eq (content_takeFirst 1 m)
    · exact content_takeSecond 1 m
  · exact .refl _

theorem content_review (a b : Nat) (m : Merge β) : (review a b m).content = m.content := by
  unfold review
  split <;> rfl

theorem content_many (manner : Manner β) (m : Merge β) :
    (m.many manner).content.Perm m.content := by
  simp only [many]
  refine .trans (content_onward (fun m => ?_) _) (.of_eq (content_takeFirst _ _))
  refine .trans (content_onward (fun m => ?_) _) (content_takeSecond _ _)
  refine .trans (content_onward (fun m => ?_) _) (content_takeSecond _ _)
  exact .trans (content_onward (fun m => .of_eq (content_review _ _ m)) _)
    (.of_eq (content_takeFirst _ _))

theorem content_run (manner : Manner β) (fuel : Nat) (m : Merge β) :
    (m.run manner fuel).content.Perm m.content := by
  induction fuel generalizing m with
  | zero => exact .refl _
  | succ fuel ih =>
    refine content_onward (fun m => (ih _).trans ?_) m
    split
    · exact content_many manner m
    · exact content_single manner m

theorem result_perm (manner : Manner β) (m : Merge β) : (m.result manner).Perm m.content := by
  unfold result content
  split
  · exact .refl _
  · exact .append_left _ List.perm_append_comm

end Merge

/-- Merges two runs of which the second one begins before the first, and the first one ends
after the second.  Tells how much patience is left for further runs. -/
def mergeCore (before : β → β → Bool) (patience : Nat) (xs ys : List β) : List β × Nat :=
  let fuel := xs.length + ys.length
  if xs.length ≤ ys.length then
    let manner := Manner.forward before
    let start : Merge β := { taken := [], first := xs, second := ys, patience }
    let m := (start.takeSecond 1).run manner fuel
    (m.result manner, m.patience)
  else
    let manner := Manner.backward before
    let start : Merge β := { taken := [], first := xs.reverse, second := ys.reverse, patience }
    let m := (start.takeFirst 1).run manner fuel
    ((m.result manner).reverse, m.patience)

/-- Merges two runs.  What the first one has in front of the second, and what the second one has
behind the first, stays where it is. -/
def mergeRuns (before : β → β → Bool) (patience : Nat) (xs ys : List β) : List β × Nat :=
  match ys with
  | [] => (xs, patience)
  | y :: _ =>
    let front := gallop 0 (fun x => !before y x) xs
    match (xs.drop front).getLast? with
    | none => (xs ++ ys, patience)
    | some x =>
      let inner := ys.length - gallop 1 (fun y => !before y x) ys.reverse
      let (core, patience) := mergeCore before patience (xs.drop front) (ys.take inner)
      (xs.take front ++ (core ++ ys.drop inner), patience)

theorem mergeCore_perm (before : β → β → Bool) (patience : Nat) (xs ys : List β) :
    (mergeCore before patience xs ys).1.Perm (xs ++ ys) := by
  simp only [mergeCore]
  split
  · refine (Merge.result_perm _ _).trans ((Merge.content_run _ _ _).trans ?_)
    exact Merge.content_takeSecond _ _
  · refine (List.reverse_perm _).trans ((Merge.result_perm _ _).trans
      ((Merge.content_run _ _ _).trans (.trans (.of_eq (Merge.content_takeFirst _ _)) ?_)))
    exact (List.reverse_perm xs).append (List.reverse_perm ys)

/-- Merging two runs loses nothing. -/
theorem mergeRuns_perm (before : β → β → Bool) (patience : Nat) (xs ys : List β) :
    (mergeRuns before patience xs ys).1.Perm (xs ++ ys) := by
  unfold mergeRuns
  split
  · simp
  · simp only
    split
    · exact .refl _
    · rename_i y rest _ _ _
      simp only
      refine .trans (.append_left _ ((mergeCore_perm before patience _ _).append_right _)) ?_
      rw [List.append_assoc, List.take_append_drop, ← List.append_assoc, List.take_append_drop]

/-! ## 4. Merging all runs -/

/-- A run that waits to be merged, with the depth at which it is to be merged with the next. -/
structure Run (β : Type) where
  items : List β
  depth : Nat := 0

/-- How often a list has to be halved until the middles of two neighbouring runs lie in two of
its parts.  The numbers are twice the places of the middles, read against the length of the list;
the halvings are at most so many. -/
def boundaryDepth (size : Nat) : Nat → Nat → Nat → Nat
  | 0, _, _ => 1
  | fuel + 1, a, b =>
    if size ≤ a then boundaryDepth size fuel (2 * (a - size)) (2 * (b - size)) + 1
    else if size ≤ b then 1
    else boundaryDepth size fuel (2 * a) (2 * b) + 1

/-- Runs that wait to be merged, the last one first, and the patience of their merging. -/
structure Pending (β : Type) where
  runs : List (Run β)
  patience : Nat := Merge.longLead

namespace Pending

/-- All elements of the runs. -/
def content (p : Pending β) : List β := p.runs.flatMap Run.items

/-- Merges the last run with the one before it as long as that boundary lies deeper than the
next one. -/
def settle (before : β → β → Bool) (depth : Nat) : Nat → List (Run β) → Pending β
  | patience, last :: previous :: rest =>
    if depth < previous.depth then
      let (items, patience) := mergeRuns before patience previous.items last.items
      settle before depth patience ({ previous with items } :: rest)
    else ⟨{ last with depth } :: previous :: rest, patience⟩
  | patience, [last] => ⟨[{ last with depth }], patience⟩
  | patience, [] => ⟨[], patience⟩
termination_by _ runs => runs.length

/-- Puts a run behind the others of a list of a length. -/
def add (before : β → β → Bool) (size : Nat) (items : List β) (p : Pending β) : Pending β :=
  match p.runs with
  | [] => { p with runs := [{ items }] }
  | last :: others =>
    let start := (others.flatMap Run.items).length
    let a := 2 * start + last.items.length
    let depth := boundaryDepth size size a (a + last.items.length + items.length)
    let settled := settle before depth p.patience p.runs
    { settled with runs := { items } :: settled.runs }

/-- Merges all runs, of the last three the shorter outer one with the middle one. -/
def collapse (before : β → β → Bool) : Nat → List (Run β) → List β
  | patience, last :: previous :: earlier :: rest =>
    if earlier.items.length < last.items.length then
      let (items, patience) := mergeRuns before patience earlier.items previous.items
      collapse before patience (last :: { earlier with items } :: rest)
    else
      let (items, patience) := mergeRuns before patience previous.items last.items
      collapse before patience ({ previous with items } :: earlier :: rest)
  | patience, [last, previous] => (mergeRuns before patience previous.items last.items).1
  | _, [last] => last.items
  | _, [] => []
termination_by _ runs => runs.length

/-- Cuts a list into runs, in so many steps at most, and puts them behind others. -/
def collect (before : β → β → Bool) (size least : Nat) : Nat → List β → Pending β → Pending β
  | 0, xs, p => p.add before size xs
  | fuel + 1, xs, p =>
    if xs.isEmpty then p
    else
      let (run, rest) := filledRun before least xs
      collect before size least fuel rest (p.add before size run)

/-- Merges that keep the lengths of the runs in balance lose nothing. -/
theorem settle_perm (before : β → β → Bool) (depth patience : Nat) (runs : List (Run β)) :
    (settle before depth patience runs).content.Perm (runs.flatMap Run.items) := by
  fun_induction settle before depth patience runs with
  | case1 patience last previous rest _ items next h ih =>
    refine ih.trans ?_
    have hm := mergeRuns_perm before patience previous.items last.items
    rw [h] at hm
    simp only [List.flatMap_cons]
    rw [← List.append_assoc]
    exact (hm.trans List.perm_append_comm).append_right _
  | case2 => exact .refl _
  | case3 => exact .refl _
  | case4 => exact .refl _

theorem add_perm (before : β → β → Bool) (size : Nat) (items : List β) (p : Pending β) :
    (p.add before size items).content.Perm (items ++ p.content) := by
  unfold add
  split
  · rename_i h
    simp [content, h]
  · simp only [content, List.flatMap_cons]
    refine .append_left _ ?_
    exact settle_perm before _ _ p.runs

/-- The merges at the end lose nothing. -/
theorem collapse_perm (before : β → β → Bool) (patience : Nat) (runs : List (Run β)) :
    (collapse before patience runs).Perm (runs.flatMap Run.items) := by
  fun_induction collapse before patience runs with
  | case1 patience last previous earlier rest _ items next h ih =>
    refine ih.trans ?_
    have hm := mergeRuns_perm before patience earlier.items previous.items
    rw [h] at hm
    simp only [List.flatMap_cons]
    refine .append_left _ ?_
    rw [← List.append_assoc]
    exact (hm.trans List.perm_append_comm).append_right _
  | case2 patience last previous earlier rest _ items next h ih =>
    refine ih.trans ?_
    have hm := mergeRuns_perm before patience previous.items last.items
    rw [h] at hm
    simp only [List.flatMap_cons]
    rw [← List.append_assoc last.items]
    exact (hm.trans List.perm_append_comm).append_right _
  | case3 patience last previous =>
    simpa using (mergeRuns_perm before patience previous.items last.items).trans
      List.perm_append_comm
  | case4 => simp
  | case5 => simp

/-- The runs that are collected along a list hold what the list holds. -/
theorem collect_perm (before : β → β → Bool) (size least fuel : Nat) (xs : List β)
    (p : Pending β) :
    (collect before size least fuel xs p).content.Perm (xs ++ p.content) := by
  induction fuel generalizing xs p with
  | zero => exact add_perm before size xs p
  | succ fuel ih =>
    unfold collect
    split
    · rename_i h
      simp [List.isEmpty_iff.mp h]
    · simp only
      refine (ih _ _).trans ?_
      refine (List.Perm.append_left _ (add_perm before size _ p)).trans ?_
      rw [← List.append_assoc]
      exact (List.perm_append_comm.trans (filledRun_perm before least xs)).append_right _

end Pending

/-- Sorts a list; what the comparison does not separate keeps its order, as far as the
comparison is an order. -/
def sort (before : β → β → Bool) (xs : List β) : List β :=
  let size := xs.length
  let pending := Pending.collect before size (leastLength size false) size xs ⟨[], Merge.longLead⟩
  Pending.collapse before pending.patience pending.runs

/-- Sorting moves the elements of a list; it neither adds nor loses any. -/
theorem sort_perm (before : β → β → Bool) (xs : List β) : (sort before xs).Perm xs := by
  refine (Pending.collapse_perm before _ _).trans ?_
  refine (Pending.collect_perm before _ _ _ xs ⟨[], Merge.longLead⟩).trans ?_
  simp [Pending.content]

end PathAtlas.Order.Runs
