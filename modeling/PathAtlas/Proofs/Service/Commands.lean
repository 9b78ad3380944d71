/-
# Commands to a store

A call on a store is a row of commands to its keeper, and any of them can be the last.  Two things
are settled here for every row and every keeper.

* **Where a row ends.**  It is carried out as a whole, or up to a command that did not come back
  well (`carryOut_eq_ok`, `carryOut_eq_error`).  What the store is afterwards is in both cases what
  the commands make of it that were carried out, one after the other, and nothing is taken back.
* **Whom it concerns.**  Two stores are the same to a workspace when they agree in its entries, in
  the time that is left to them, in whether it is known, and in what is set for all (`Same`).  A
  command that names another workspace leaves a store the same to it (`same_obey_of_ne`), and any
  command takes stores that are the same to stores that are the same (`Same.obey`).

The last section says what the commands of one batch make of a list when none of them fails
(`entries_add`).
-/
import PathAtlas.Proofs.Outcome
import PathAtlas.Service.Store

namespace PathAtlas.Service

def Command.workspace : Command → String
  | delete workspace | push workspace _ | trim workspace _ | expire workspace _ | enlist workspace
  | strike workspace | range workspace | member workspace => workspace

namespace Store

/-! ## 1. The store as a workspace sees it -/

/-- Two stores that are the same to a workspace. -/
structure Same (workspace : String) (store store' : Store) : Prop where
  lookback : store'.lookback = store.lookback
  maxRecords : store'.maxRecords = store.maxRecords
  keeper : store'.keeper = store.keeper
  entries : store'.entries workspace = store.entries workspace
  /-- As much time is left to the list. -/
  term : store'.terms.find? workspace = store.terms.find? workspace
  known : store'.hasWorkspace workspace = store.hasWorkspace workspace

variable {w other workspace : String} {store store' store'' : Store}

theorem Same.refl (w : String) (store : Store) : Same w store store :=
  ⟨rfl, rfl, rfl, rfl, rfl, rfl⟩

theorem Same.symm (h : Same w store store') : Same w store' store :=
  ⟨h.lookback.symm, h.maxRecords.symm, h.keeper.symm, h.entries.symm, h.term.symm, h.known.symm⟩

theorem Same.trans (h : Same w store store') (h' : Same w store' store'') :
    Same w store store'' where
  lookback := h'.lookback.trans h.lookback
  maxRecords := h'.maxRecords.trans h.maxRecords
  keeper := h'.keeper.trans h.keeper
  entries := h'.entries.trans h.entries
  term := h'.term.trans h.term
  known := h'.known.trans h.known

/-! ## 2. One command -/

theorem hasWorkspace_iff : store.hasWorkspace workspace ↔ workspace ∈ store.workspaces :=
  List.contains_iff_mem

theorem hasWorkspace_enlist (store : Store) (workspace : String) :
    (store.obey (.enlist workspace)).hasWorkspace other
      ↔ other = workspace ∨ store.hasWorkspace other := by
  simp only [hasWorkspace_iff, obey, Order.mem_insertText]

theorem hasWorkspace_strike (store : Store) (workspace : String) :
    (store.obey (.strike workspace)).hasWorkspace other
      ↔ other ≠ workspace ∧ store.hasWorkspace other := by
  rw [hasWorkspace_iff, hasWorkspace_iff, obey, List.mem_filter, decide_eq_true_iff, and_comm]

theorem entries_push (store : Store) (workspace : String) (es : List Entry) :
    (store.obey (.push workspace es)).entries workspace = store.entries workspace ++ es :=
  entries_withEntries_self ..

theorem entries_trim (store : Store) (workspace : String) (limit : Int) :
    (store.obey (.trim workspace limit)).entries workspace
      = newest limit (store.entries workspace) :=
  entries_withEntries_self ..

theorem entries_expire (store : Store) (workspace : String) (seconds : Figure Float) :
    (store.obey (.expire workspace seconds)).entries workspace
      = if store.forgets seconds then [] else store.entries workspace := by
  rw [obey, letExpire]
  split
  · exact entries_withoutEntries_self store workspace
  · rfl

theorem term_expire (store : Store) (workspace : String) (seconds : Figure Float) :
    (store.obey (.expire workspace seconds)).terms.find? workspace
      = if store.forgets seconds then none else store.keeper.term seconds := by
  rw [obey, letExpire]
  split
  · exact Table.find?_erase_self workspace store.terms
  · exact Table.find?_put_self workspace _ store.terms

theorem hasWorkspace_expire (store : Store) (seconds : Figure Float) :
    (store.obey (.expire workspace seconds)).hasWorkspace other = store.hasWorkspace other := by
  rw [obey, letExpire]
  split <;> rfl

/-- What is set for all workspaces stays. -/
theorem settings_obey (store : Store) (c : Command) :
    (store.obey c).lookback = store.lookback ∧ (store.obey c).maxRecords = store.maxRecords ∧
      (store.obey c).keeper = store.keeper := by
  cases c with
  | expire workspace seconds =>
    rw [obey, letExpire]
    split <;> exact ⟨rfl, rfl, rfl⟩
  | _ => exact ⟨rfl, rfl, rfl⟩

@[simp] theorem keeper_obey (store : Store) (c : Command) : (store.obey c).keeper = store.keeper :=
  (store.settings_obey c).2.2

/-- **A command** for one workspace leaves the store the same to every other one. -/
theorem same_obey_of_ne {c : Command} (h : other ≠ c.workspace) (store : Store) :
    Same other store (store.obey c) := by
  obtain ⟨hlookback, hmaxRecords, hkeeper⟩ := store.settings_obey c
  have hrest : (store.obey c).entries other = store.entries other ∧
      (store.obey c).terms.find? other = store.terms.find? other ∧
      (store.obey c).hasWorkspace other = store.hasWorkspace other := by
    cases c with
    | delete workspace =>
      exact ⟨entries_withoutEntries_of_ne h store, Table.find?_erase_of_ne h store.terms, rfl⟩
    | push | trim => exact ⟨entries_withEntries_of_ne h store _, rfl, rfl⟩
    | expire workspace seconds =>
      refine ⟨?_, ?_, hasWorkspace_expire store seconds⟩ <;> rw [obey, letExpire] <;> split
      · exact entries_withoutEntries_of_ne h store
      · rfl
      · exact Table.find?_erase_of_ne h store.terms
      · exact Table.find?_put_of_ne h _ store.terms
    | enlist workspace =>
      exact ⟨rfl, rfl, Bool.eq_iff_iff.mpr ((hasWorkspace_enlist ..).trans (or_iff_right h))⟩
    | strike workspace =>
      exact ⟨rfl, rfl, Bool.eq_iff_iff.mpr ((hasWorkspace_strike ..).trans (and_iff_right h))⟩
    | range | member => exact ⟨rfl, rfl, rfl⟩
  exact ⟨hlookback, hmaxRecords, hkeeper, hrest.1, hrest.2.1, hrest.2.2⟩

/-- What a command does to its workspace depends on that workspace alone. -/
theorem Same.obey_self {c : Command} (h : Same c.workspace store store') :
    (store'.obey c).entries c.workspace = (store.obey c).entries c.workspace ∧
      (store'.obey c).terms.find? c.workspace = (store.obey c).terms.find? c.workspace ∧
      (store'.obey c).hasWorkspace c.workspace = (store.obey c).hasWorkspace c.workspace := by
  obtain ⟨-, -, hkeeper, hentries, hterm, hknown⟩ := h
  cases c <;> simp only [Command.workspace] at hentries hterm hknown ⊢
  case delete workspace =>
    have hnone (store : Store) : (store.obey (.delete workspace)).entries workspace = [] ∧
        (store.obey (.delete workspace)).terms.find? workspace = none :=
      ⟨entries_withoutEntries_self store workspace, Table.find?_erase_self workspace store.terms⟩
    exact ⟨(hnone store').1.trans (hnone store).1.symm,
      (hnone store').2.trans (hnone store).2.symm, hknown⟩
  case push workspace entries =>
    exact ⟨by rw [entries_push, entries_push, hentries], hterm, hknown⟩
  case trim workspace limit =>
    exact ⟨by rw [entries_trim, entries_trim, hentries], hterm, hknown⟩
  case expire workspace seconds =>
    have hforgets : store'.forgets seconds = store.forgets seconds := by
      rw [forgets, forgets, hkeeper]
    rw [entries_expire, entries_expire, term_expire, term_expire, hasWorkspace_expire,
      hasWorkspace_expire, hforgets, hkeeper, hentries]
    exact ⟨rfl, rfl, hknown⟩
  case enlist workspace =>
    refine ⟨hentries, hterm, Bool.eq_iff_iff.mpr ?_⟩
    rw [hasWorkspace_enlist, hasWorkspace_enlist, hknown]
  case strike workspace =>
    refine ⟨hentries, hterm, Bool.eq_iff_iff.mpr ?_⟩
    rw [hasWorkspace_strike, hasWorkspace_strike, hknown]
  all_goals exact ⟨hentries, hterm, hknown⟩

/-- **Stores that are the same** to a workspace stay so under any command. -/
theorem Same.obey (h : Same w store store') (c : Command) :
    Same w (store.obey c) (store'.obey c) := by
  by_cases hc : w = c.workspace
  · subst hc
    obtain ⟨hlookback, hmaxRecords, hkeeper⟩ := store.settings_obey c
    obtain ⟨hlookback', hmaxRecords', hkeeper'⟩ := store'.settings_obey c
    obtain ⟨hentries, hterm, hknown⟩ := h.obey_self
    exact ⟨by rw [hlookback, hlookback', h.lookback],
      by rw [hmaxRecords, hmaxRecords', h.maxRecords],
      by rw [hkeeper, hkeeper', h.keeper], hentries, hterm, hknown⟩
  · exact ((same_obey_of_ne hc store).symm.trans h).trans (same_obey_of_ne hc store')

/-! ## 3. Rows of commands -/

variable {commands : List Command} {fault : Fault}

theorem keeper_foldl_obey (store : Store) (commands : List Command) :
    (commands.foldl Store.obey store).keeper = store.keeper := by
  induction commands generalizing store with
  | nil => rfl
  | cons c commands ih => rw [List.foldl_cons, ih, keeper_obey]

theorem same_foldl_obey_of_ne (h : ∀ c ∈ commands, other ≠ c.workspace) (store : Store) :
    Same other store (commands.foldl Store.obey store) := by
  induction commands generalizing store with
  | nil => exact .refl other store
  | cons c commands ih =>
    obtain ⟨hc, hrest⟩ := List.forall_mem_cons.mp h
    exact (same_obey_of_ne hc store).trans (ih hrest _)

/-- **A row is carried out** as a whole when none of its commands fails. -/
theorem carryOut_eq_ok : store.carryOut commands = (.ok (), store') ↔
    (∀ c ∈ commands, store.keeper.fate c = .done) ∧ store' = commands.foldl Store.obey store := by
  induction commands generalizing store with
  | nil => simp [carryOut, eq_comm]
  | cons c commands ih =>
    rw [carryOut, List.forall_mem_cons, List.foldl_cons]
    cases store.keeper.fate c with
    | done => rw [ih, keeper_obey, eq_self, true_and]
    | refused _ | unheard _ => simp

/-- How a row ended that was not carried out as a whole: up to a command that was refused, or of
which nothing was heard but that it went wrong. -/
structure BreaksOff (store : Store) (commands : List Command) (fault : Fault) (store' : Store)
    (done : List Command) (last : Command) (rest : List Command) : Prop where
  row : commands = done ++ last :: rest
  before : ∀ c ∈ done, store.keeper.fate c = .done
  ends : store.keeper.fate last = .refused fault ∧ store' = done.foldl Store.obey store ∨
    store.keeper.fate last = .unheard fault ∧ store' = (done ++ [last]).foldl Store.obey store

/-- **A row that fails** does so at one command, and what was done before stays. -/
theorem carryOut_eq_error (h : store.carryOut commands = (.error fault, store')) :
    ∃ done last rest, BreaksOff store commands fault store' done last rest := by
  induction commands generalizing store with
  | nil => cases h
  | cons c commands ih =>
    rw [carryOut] at h
    cases hfate : store.keeper.fate c with
    | done =>
      rw [hfate] at h
      obtain ⟨done, last, rest, hrow, hdone, hends⟩ := ih h
      rw [keeper_obey] at hdone hends
      exact ⟨c :: done, last, rest, by rw [hrow, List.cons_append],
        List.forall_mem_cons.mpr ⟨hfate, hdone⟩, hends⟩
    | refused refusal =>
      rw [hfate] at h
      cases h
      exact ⟨[], c, commands, rfl, fun _ hc => (nomatch hc), .inl ⟨hfate, rfl⟩⟩
    | unheard loss =>
      rw [hfate] at h
      cases h
      exact ⟨[], c, commands, rfl, fun _ hc => (nomatch hc), .inr ⟨hfate, rfl⟩⟩

/-- A refusal after commands that were carried out. -/
theorem carryOut_of_refused {done rest : List Command} {last : Command}
    (hdone : ∀ c ∈ done, store.keeper.fate c = .done)
    (hlast : store.keeper.fate last = .refused fault) :
    store.carryOut (done ++ last :: rest) = (.error fault, done.foldl Store.obey store) := by
  induction done generalizing store with
  | nil => rw [List.nil_append, carryOut, hlast, List.foldl_nil]
  | cons c done ih =>
    obtain ⟨hc, hdone⟩ := List.forall_mem_cons.mp hdone
    rw [List.cons_append, carryOut, hc, List.foldl_cons]
    exact ih (by rwa [keeper_obey]) (by rwa [keeper_obey])

/-- A row for other workspaces leaves a store the same, wherever it ends. -/
theorem same_carryOut_of_ne (h : ∀ c ∈ commands, other ≠ c.workspace) (store : Store) :
    Same other store (store.carryOut commands).2 := by
  rcases hrun : store.carryOut commands with ⟨fault | ⟨⟩, store'⟩
  · obtain ⟨done, last, rest, hrow, -, hends⟩ := carryOut_eq_error hrun
    subst hrow
    rcases hends with ⟨-, rfl⟩ | ⟨-, rfl⟩
    · exact same_foldl_obey_of_ne (fun c hc => h c (List.mem_append_left _ hc)) store
    · refine same_foldl_obey_of_ne (fun c hc => h c ?_) store
      rcases List.mem_append.mp hc with hc | hc
      · exact List.mem_append_left _ hc
      · exact List.mem_append_right _ (List.mem_singleton.mp hc ▸ List.mem_cons_self)
  · obtain ⟨-, rfl⟩ := carryOut_eq_ok.mp hrun
    exact same_foldl_obey_of_ne h store

/-- Stores that are the same answer a row in the same way and stay the same. -/
theorem Same.carryOut (h : Same w store store') (commands : List Command) :
    (store'.carryOut commands).1 = (store.carryOut commands).1 ∧
      Same w (store.carryOut commands).2 (store'.carryOut commands).2 := by
  induction commands generalizing store store' with
  | nil => exact ⟨rfl, h⟩
  | cons c commands ih =>
    rw [Store.carryOut, Store.carryOut, h.keeper]
    cases store.keeper.fate c with
    | done => exact ih (h.obey c)
    | refused fault => exact ⟨rfl, h⟩
    | unheard fault => exact ⟨rfl, h.obey c⟩

/-! ## 4. Time -/

theorem find?_terms_pass (store : Store) (time : Nat) (workspace : String) :
    (store.pass time).terms.find? workspace
      = if store.outlasts time workspace then (store.terms.find? workspace).map (· - (time : Int))
        else none := by
  have hkept := Table.find?_filter (store.outlasts time) store.terms workspace
  refine (Table.find?_map_values (fun _ left => left - (time : Int)) _ workspace).trans ?_
  rw [hkept]
  split <;> rfl

/-- A list that does not outlast the time is no more; the others are as they were. -/
theorem entries_pass (store : Store) (time : Nat) (workspace : String) :
    (store.pass time).entries workspace
      = if store.outlasts time workspace then store.entries workspace else [] := by
  have hkept := Table.find?_filter (store.outlasts time) store.lists workspace
  rw [entries, pass, hkept]
  split <;> rfl

theorem Same.pass (h : Same w store store') (time : Nat) :
    Same w (store.pass time) (store'.pass time) where
  lookback := h.lookback
  maxRecords := h.maxRecords
  keeper := h.keeper
  entries := by rw [entries_pass, entries_pass, outlasts, outlasts, h.term, h.entries]
  term := by rw [find?_terms_pass, find?_terms_pass, outlasts, outlasts, h.term]
  known := h.known

/-! ## 5. Batches -/

/-- What is stored of a workspace before a batch comes behind it. -/
def standing (store : Store) (workspace : String) (replace : Bool) : List Entry :=
  if replace then [] else store.entries workspace

/-- All commands of a batch name its workspace. -/
theorem workspace_of_mem_addition (store : Store) (now : Float) (workspace : String)
    (records : List Json) (replace : Bool) :
    ∀ c ∈ store.addition now workspace records replace, c.workspace = workspace := by
  cases replace <;> cases records <;> simp [addition, deposit, storing, bringing, Command.workspace]

theorem same_addition (h : Same w store store') (now : Float) (records : List Json)
    (replace : Bool) :
    store'.addition now w records replace = store.addition now w records replace := by
  rw [addition, addition, deposit, deposit, storing, storing, h.maxRecords, h.lookback]

/-- A batch comes behind what stands. -/
theorem entries_bringing (store : Store) (now : Float) (workspace : String) (records : List Json)
    (replace : Bool) :
    ((bringing now workspace records replace).foldl Store.obey store).entries workspace
      = store.standing workspace replace ++ arrived now records := by
  have hpush (store : Store) :
      ((if records.isEmpty then [] else [.push workspace (arrived now records)] :
        List Command).foldl Store.obey store).entries workspace
        = store.entries workspace ++ arrived now records := by
    cases records with
    | nil => exact (List.append_nil _).symm
    | cons raw rest => exact entries_push store workspace _
  rw [bringing, List.foldl_append, hpush]
  cases replace with
  | true => exact congrArg (· ++ _) (entries_withoutEntries_self store workspace)
  | false => rfl

/-- What is put behind a list does not renew it; a list that is replaced has no term any more. -/
theorem term_bringing (store : Store) (now : Float) (workspace : String) (records : List Json)
    (replace : Bool) :
    ((bringing now workspace records replace).foldl Store.obey store).terms.find? workspace
      = if replace then none else store.terms.find? workspace := by
  cases replace <;> cases records <;>
    first | rfl | exact Table.find?_erase_self workspace store.terms

theorem hasWorkspace_bringing (store : Store) (now : Float) (workspace : String)
    (records : List Json) (replace : Bool) :
    ((bringing now workspace records replace).foldl Store.obey store).hasWorkspace other
      = store.hasWorkspace other := by
  cases replace <;> cases records <;> rfl

theorem storing_nil (store : Store) (now : Float) (workspace : String) (replace : Bool) :
    store.storing now workspace [] replace = bringing now workspace [] replace :=
  List.append_nil _

theorem storing_of_ne_nil (store : Store) (now : Float) (workspace : String)
    {records : List Json} (h : records ≠ []) (replace : Bool) :
    store.storing now workspace records replace
      = bringing now workspace records replace ++ [.trim workspace store.maxRecords] := by
  obtain ⟨raw, rest, rfl⟩ := List.exists_cons_of_ne_nil h
  rfl

/-- The newest of all entries stay; an empty batch trims nothing. -/
theorem entries_storing (store : Store) (now : Float) (workspace : String) (records : List Json)
    (replace : Bool) :
    ((store.storing now workspace records replace).foldl Store.obey store).entries workspace
      = if records = [] then store.standing workspace replace
        else newest store.maxRecords
          (store.standing workspace replace ++ arrived now records) := by
  split
  · rename_i hempty
    rw [hempty, storing_nil, entries_bringing]
    exact List.append_nil _
  · rename_i hsome
    rw [storing_of_ne_nil store now workspace hsome, List.foldl_append, List.foldl_cons,
      List.foldl_nil, entries_trim, entries_bringing]

theorem term_storing (store : Store) (now : Float) (workspace : String) (records : List Json)
    (replace : Bool) :
    ((store.storing now workspace records replace).foldl Store.obey store).terms.find? workspace
      = if replace then none else store.terms.find? workspace := by
  rw [← term_bringing store now workspace records replace, storing, List.foldl_append]
  cases records <;> rfl

theorem hasWorkspace_storing (store : Store) (now : Float) (workspace : String)
    (records : List Json) (replace : Bool) :
    ((store.storing now workspace records replace).foldl Store.obey store).hasWorkspace other
      = store.hasWorkspace other := by
  rw [← hasWorkspace_bringing store now workspace records replace, storing, List.foldl_append]
  cases records <;> rfl

/-- A batch that is stored as a whole. -/
theorem add_eq (store : Store) (now : Float) (workspace : String) (records : List Json)
    (replace : Bool) :
    store.add now workspace records replace
      = (if records = [] then (store.storing now workspace records replace).foldl Store.obey store
        else ((store.storing now workspace records replace).foldl Store.obey store).obey
          (.expire workspace store.lookback)).obey (.enlist workspace) := by
  rw [add, addition, deposit, List.foldl_append, List.foldl_append, List.foldl_cons,
    List.foldl_nil]
  cases records <;> rfl

/-- **What a batch makes of a list** when nothing is refused: what is stored goes again when the
keeper forgets it at once. -/
theorem entries_add (store : Store) (now : Float) (workspace : String) (records : List Json)
    (replace : Bool) :
    (store.add now workspace records replace).entries workspace
      = if records = [] then store.standing workspace replace
        else if store.forgets store.lookback then []
        else newest store.maxRecords (store.standing workspace replace ++ arrived now records) := by
  have hforgets : ((store.storing now workspace records replace).foldl Store.obey store).forgets
      store.lookback = store.forgets store.lookback := by
    rw [forgets, forgets, keeper_foldl_obey]
  rw [add_eq]
  show (if records = [] then _ else _ : Store).entries workspace = _
  split
  · rename_i hempty
    rw [entries_storing, if_pos hempty]
  · rename_i hsome
    rw [entries_expire, hforgets, entries_storing, if_neg hsome]

/-- What is left to a list after a batch. -/
theorem term_add (store : Store) (now : Float) (workspace : String) {records : List Json}
    (h : records ≠ []) (replace : Bool) :
    (store.add now workspace records replace).terms.find? workspace
      = if store.forgets store.lookback then none else store.keeper.term store.lookback := by
  rw [add_eq, if_neg h]
  refine (term_expire ..).trans ?_
  rw [forgets, keeper_foldl_obey, ← forgets]

/-- A batch makes its workspace known and no other one. -/
theorem hasWorkspace_add (store : Store) (now : Float) (records : List Json) (replace : Bool) :
    (store.add now workspace records replace).hasWorkspace other
      ↔ other = workspace ∨ store.hasWorkspace other := by
  rw [add_eq, hasWorkspace_enlist]
  split
  · rw [hasWorkspace_storing]
  · rw [hasWorkspace_expire, hasWorkspace_storing]

end Store

end PathAtlas.Service
