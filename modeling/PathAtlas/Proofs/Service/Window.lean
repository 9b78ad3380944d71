/-
# The stored window

A store keeps the newest records of each workspace, trims them again with every batch, and lets
them go when nothing new has come for a while.  Here it is held against a log that is never
trimmed: all that was added to a workspace since it was last replaced, cleared or forgotten (`log`).

* `kept_after`:              what is stored is the end of the log, whatever was done in between;
* `known_after`:             a workspace is known from a batch that came through until it is
                             cleared;
* `fails_addition_iff`:      which batches do not come through;
* `loadTraces_of_readable`:  what is loaded are the traces of that end from the last while.

Two arguments meet.  Trimming step by step is the same as trimming once because the end of an end
is an end (`rtake_rtake_append`).  And a list is there exactly as long as the time since its last
records has not passed the time it is given, because only these renew it: what is left to it and
its age add up to the same at every step (`Kept`).

The keeper is taken to do what it is told, but for two commands whose numbers have to fit in 64 bits
(`Documented`).  It trims a list only to a limit that fits, and it lets a list expire only after a
whole number of seconds that fits, and may refuse even those.  A refusal comes late.  The records
are stored and stay, for good, and their workspace is not made known.

Loading asks for one thing more than that the records can be read: the seconds to look back have to
be a number that times can be reckoned with, and whole numbers go further than times do
(`fails_quantity_whole_iff`).
-/
import Mathlib.Data.List.DropRight
import PathAtlas.Proofs.Service.Commands
import PathAtlas.Proofs.Service.Loading

namespace PathAtlas.Service

/-! ## 1. The end of a list -/

theorem rtake_append_of_length_le {β : Type} {n : Nat} {ys : List β} (xs : List β)
    (h : n ≤ ys.length) : (xs ++ ys).rtake n = ys.rtake n := by
  have hdrop : (xs ++ ys).length - n = xs.length + (ys.length - n) := by
    rw [List.length_append]
    omega
  rw [List.rtake, List.rtake, hdrop, ← List.drop_drop, List.drop_left]

/-- Trimming before more is added makes no difference to what is left in the end. -/
theorem rtake_rtake_append {β : Type} (n : Nat) (xs ys : List β) :
    (xs.rtake n ++ ys).rtake n = (xs ++ ys).rtake n := by
  have hsplit : xs ++ ys = xs.take (xs.length - n) ++ (xs.rtake n ++ ys) := by
    rw [List.rtake, ← List.append_assoc, List.take_append_drop]
  by_cases hlong : n ≤ xs.length
  · have hlen : n ≤ (xs.rtake n ++ ys).length := by
      rw [List.rtake, List.length_append, List.length_drop]
      omega
    rw [hsplit, rtake_append_of_length_le _ hlen]
  · have hall : xs.rtake n = xs := by
      rw [List.rtake, Nat.sub_eq_zero_of_le (by omega), List.drop_zero]
    rw [hall]

/-! ## 2. Keepers -/

/-- A keeper that does what it is told, but for numbers that do not fit in 64 bits.  It may refuse
to trim a list to such a limit, and to let a list expire; the latter it does refuse when it is not
told a whole number of seconds that fits. -/
structure Keeper.Documented (keeper : Keeper) : Prop where
  obeys : ∀ c, (∀ workspace limit, c ≠ .trim workspace limit) →
    (∀ workspace seconds, c ≠ .expire workspace seconds) → keeper.fate c = .done
  trims : ∀ workspace limit,
    keeper.fate (.trim workspace limit) = .done ∨
      ¬ (-2 ^ 63 < limit ∧ limit ≤ 2 ^ 63) ∧
        ∃ fault, keeper.fate (.trim workspace limit) = .refused fault
  expires : ∀ workspace seconds,
    (∃ n : Int, seconds = .whole n ∧ -2 ^ 63 ≤ n ∧ n < 2 ^ 63 ∧
        keeper.fate (.expire workspace seconds) = .done ∧
        keeper.term seconds = some (1000 * n)) ∨
      ∃ fault, keeper.fate (.expire workspace seconds) = .refused fault

namespace Store

/-- How many entries of a list stay; absent when the keeper refuses to trim it. -/
def bound (store : Store) (workspace : String) : Option Nat :=
  match store.keeper.fate (.trim workspace store.maxRecords) with
  | .done => some store.maxRecords.toNat
  | _ => none

/-- The milliseconds that a list is given with its last records; absent when the keeper refuses
to let it expire, or to trim it before. -/
def lifetime (store : Store) (workspace : String) : Option Int :=
  match store.keeper.fate (.trim workspace store.maxRecords),
    store.keeper.fate (.expire workspace store.lookback) with
  | .done, .done => store.keeper.term store.lookback
  | _, _ => none

/-- What stays of some entries. -/
def cut (bound : Option Nat) (entries : List Entry) : List Entry :=
  bound.elim entries entries.rtake

/-- Whether a list of some age is gone. -/
def lapsed (life : Option Int) (age : Nat) : Bool :=
  life.any fun given => given ≤ 0 || given < (age : Int)

/-- **What becomes of a batch with records**: the keeper takes all of it, or it refuses to let the
list expire, or it refuses to trim it. -/
inductive Treats (store : Store) (workspace : String) : Prop where
  | keeps (n : Int) (hseconds : store.lookback = .whole n) (hlow : -2 ^ 63 ≤ n) (hhigh : n < 2 ^ 63)
      (htrim : store.keeper.fate (.trim workspace store.maxRecords) = .done)
      (hexpire : store.keeper.fate (.expire workspace store.lookback) = .done)
      (hterm : store.keeper.term store.lookback = some (1000 * n))
      (hbound : store.bound workspace = some store.maxRecords.toNat)
      (hlife : store.lifetime workspace = some (1000 * n))
  | forever (fault : Fault) (htrim : store.keeper.fate (.trim workspace store.maxRecords) = .done)
      (hexpire : store.keeper.fate (.expire workspace store.lookback) = .refused fault)
      (hbound : store.bound workspace = some store.maxRecords.toNat)
      (hlife : store.lifetime workspace = none)
  | untrimmed (fault : Fault) (hlimit : ¬ (-2 ^ 63 < store.maxRecords ∧ store.maxRecords ≤ 2 ^ 63))
      (htrim : store.keeper.fate (.trim workspace store.maxRecords) = .refused fault)
      (hbound : store.bound workspace = none)
      (hlife : store.lifetime workspace = none)

variable {store : Store} {workspace : String}

theorem treats (h : store.keeper.Documented) (workspace : String) : store.Treats workspace := by
  rcases h.trims workspace store.maxRecords with htrim | ⟨hlimit, fault, htrim⟩
  · have hbound : store.bound workspace = some store.maxRecords.toNat := by rw [bound, htrim]
    rcases h.expires workspace store.lookback with
      ⟨n, hn, hlow, hhigh, hexpire, hterm⟩ | ⟨fault, hexpire⟩
    · exact .keeps n hn hlow hhigh htrim hexpire hterm hbound
        (by rw [lifetime, htrim, hexpire, hterm])
    · exact .forever fault htrim hexpire hbound (by rw [lifetime, htrim, hexpire])
  · exact .untrimmed fault hlimit htrim (by rw [bound, htrim]) (by rw [lifetime, htrim])

/-- Only a whole number of seconds that fits in 64 bits can be given to a list. -/
theorem whole_of_lifetime {given : Int} (h : store.keeper.Documented)
    (hgiven : store.lifetime workspace = some given) :
    ∃ n : Int, store.lookback = .whole n ∧ -2 ^ 63 ≤ n ∧ n < 2 ^ 63 ∧ given = 1000 * n := by
  cases store.treats h workspace with
  | keeps n hseconds hlow hhigh _ _ _ _ hlife =>
    rw [hlife] at hgiven
    exact ⟨n, hseconds, hlow, hhigh, (Option.some.inj hgiven).symm⟩
  | forever _ _ _ _ hlife | untrimmed _ _ _ _ hlife =>
    rw [hlife] at hgiven
    cases hgiven

/-- A limit that fits in 64 bits is heeded. -/
theorem bound_of_fits (h : store.keeper.Documented) (hlow : 1 ≤ store.maxRecords)
    (hhigh : store.maxRecords ≤ 2 ^ 63) (workspace : String) :
    store.bound workspace = some store.maxRecords.toNat := by
  cases store.treats h workspace with
  | keeps _ _ _ _ _ _ _ hbound _ | forever _ _ _ hbound _ => exact hbound
  | untrimmed _ hnot _ _ _ => exact absurd ⟨lt_of_lt_of_le (by decide) hlow, hhigh⟩ hnot

theorem cut_nil (bound : Option Nat) : cut bound [] = [] := by
  cases bound with
  | none => rfl
  | some n => exact List.rtake_nil ..

/-- Cutting before more is added makes no difference to what is left in the end. -/
theorem cut_cut_append (bound : Option Nat) (xs ys : List Entry) :
    cut bound (cut bound xs ++ ys) = cut bound (xs ++ ys) := by
  cases bound with
  | none => rfl
  | some n => exact rtake_rtake_append n xs ys

theorem mem_of_mem_cut {bound : Option Nat} {entries : List Entry} {entry : Entry}
    (h : entry ∈ cut bound entries) : entry ∈ entries := by
  cases bound with
  | none => exact h
  | some n => exact List.mem_of_mem_drop h

theorem lapsed_some_iff {given : Int} {age : Nat} :
    lapsed (some given) age = true ↔ given ≤ 0 ∨ given < (age : Int) := by
  simp [lapsed]

/-! ## 3. Batches and logs -/

variable {other : String} {limit : Int}

theorem newest_eq_rtake (h : 1 ≤ limit) (entries : List Entry) :
    newest limit entries = entries.rtake limit.toNat := if_pos h

/-- What is done to a store from outside, and the time that passes between. -/
inductive Write where
  | add (now : Float) (workspace : String) (records : List Json) (replace : Bool)
  | clear (workspace : String)
  /-- So many milliseconds pass. -/
  | elapse (time : Nat)

namespace Write

def target : Write → Option String
  | add _ workspace _ _ | clear workspace => some workspace
  | elapse _ => none

def apply (store : Store) : Write → Store
  | add now workspace records replace =>
    (store.carryOut (store.addition now workspace records replace)).2
  | clear workspace => (store.carryOut (clearing workspace)).2
  | elapse time => store.pass time

/-- Whether what a workspace held before does not count any more. -/
def resets (workspace : String) : Write → Bool
  | add _ other _ replace => other == workspace && replace
  | clear other => other == workspace
  | elapse _ => false

def batch (workspace : String) : Write → List Entry
  | add now other records _ => if other = workspace then arrived now records else []
  | clear _ | elapse _ => []

def renews (workspace : String) : Write → Bool
  | add _ other records _ => other == workspace && !records.isEmpty
  | clear _ | elapse _ => false

def time : Write → Nat
  | elapse time => time
  | add .. | clear _ => 0

end Write

/-- The store after some writes, the first one first. -/
def after (store : Store) (writes : List Write) : Store := writes.foldl Write.apply store

/-- The milliseconds since records last came to a workspace, the last write first. -/
def age (workspace : String) : List Write → Nat
  | [] => 0
  | w :: earlier => if w.renews workspace then 0 else age workspace earlier + w.time

/-- The log of a workspace, the last write first: what was added since the last write that put an
end to what there was, be it that its time was up. -/
def logBack (life : Option Int) (workspace : String) : List Write → List Entry
  | [] => []
  | w :: earlier =>
    if lapsed life (age workspace (w :: earlier)) then []
    else (if w.resets workspace then [] else logBack life workspace earlier) ++ w.batch workspace

/-- All that was added to a workspace since it was last replaced, cleared or forgotten. -/
def log (life : Option Int) (workspace : String) (writes : List Write) : List Entry :=
  logBack life workspace writes.reverse

/-- Whether something was added to a workspace after which it was not cleared.  An empty batch will
do, and one with records when the keeper let the list expire. -/
def AddedSince (life : Option Int) (workspace : String) (writes : List Write) : Prop :=
  ∃ earlier now records replace later,
    writes = earlier ++ .add now workspace records replace :: later ∧
      (records = [] ∨ life ≠ none) ∧ .clear workspace ∉ later

theorem after_append (store : Store) (writes more : List Write) :
    store.after (writes ++ more) = (store.after writes).after more := List.foldl_append

theorem after_concat (store : Store) (writes : List Write) (w : Write) :
    store.after (writes ++ [w]) = w.apply (store.after writes) := after_append store writes [w]

/-- With one more write a workspace is known when that adds to it, or when it was known and is not
cleared. -/
theorem addedSince_concat (life : Option Int) (workspace : String) (writes : List Write)
    (w : Write) :
    AddedSince life workspace (writes ++ [w]) ↔
      (∃ now records replace, w = .add now workspace records replace ∧
        (records = [] ∨ life ≠ none)) ∨
        w ≠ .clear workspace ∧ AddedSince life workspace writes := by
  constructor
  · rintro ⟨earlier, now, records, replace, later, h, hthrough, hlater⟩
    rcases List.eq_nil_or_concat later with rfl | ⟨later, last, rfl⟩
    · obtain ⟨-, hlast⟩ := List.append_inj' h rfl
      exact .inl ⟨now, records, replace, (List.cons.inj hlast).1, hthrough⟩
    · have hsplit : writes ++ [w]
          = (earlier ++ .add now workspace records replace :: later) ++ [last] := by
        simpa using h
      obtain ⟨rfl, hlast⟩ := List.append_inj' hsplit rfl
      obtain rfl : w = last := (List.cons.inj hlast).1
      refine .inr ⟨?_, earlier, now, records, replace, later, rfl, hthrough, ?_⟩
      · rintro rfl
        exact hlater (by simp)
      · exact fun hmem => hlater (by simp [hmem])
  · rintro (⟨now, records, replace, rfl, hthrough⟩ |
      ⟨hne, earlier, now, records, replace, later, rfl, hthrough, hlater⟩)
    · exact ⟨writes, now, records, replace, [], rfl, hthrough, List.not_mem_nil⟩
    · refine ⟨earlier, now, records, replace, later ++ [w], by simp, hthrough, fun hmem => ?_⟩
      rcases List.mem_append.mp hmem with hmem | hmem
      · exact hlater hmem
      · exact hne (List.mem_singleton.mp hmem).symm

/-! ## 4. One write -/

section Documented

variable {fault : Fault}

theorem done_of_mem_bringing (h : store.keeper.Documented) (now : Float) (workspace : String)
    (records : List Json) (replace : Bool) :
    ∀ c ∈ bringing now workspace records replace, store.keeper.fate c = .done := by
  intro c hc
  refine h.obeys c ?_ ?_ <;> rintro other value rfl <;>
    cases replace <;> cases records <;> simp [bringing] at hc

/-- A batch comes through when it has no records, or when the keeper trims its list and lets it
expire. -/
theorem carryOut_addition (h : store.keeper.Documented) (now : Float) (workspace : String)
    {records : List Json} (replace : Bool)
    (hthrough : records = [] ∨ store.keeper.fate (.trim workspace store.maxRecords) = .done ∧
      store.keeper.fate (.expire workspace store.lookback) = .done) :
    store.carryOut (store.addition now workspace records replace)
      = (.ok (), store.add now workspace records replace) := by
  refine carryOut_eq_ok.mpr ⟨fun c hc => ?_, rfl⟩
  have hbrought := done_of_mem_bringing h now workspace records replace c
  rw [addition, deposit, storing, List.mem_append, List.mem_append, List.mem_append] at hc
  rcases hc with ((hc | hc) | hc) | hc
  · exact hbrought hc
  · rcases hthrough with rfl | ⟨htrim, -⟩
    · cases hc
    · split at hc
      · cases hc
      · exact List.mem_singleton.mp hc ▸ htrim
  · rcases hthrough with rfl | ⟨-, hexpire⟩
    · cases hc
    · split at hc
      · cases hc
      · exact List.mem_singleton.mp hc ▸ hexpire
  · obtain rfl := List.mem_singleton.mp hc
    exact h.obeys _ (fun _ _ => Command.noConfusion) fun _ _ => Command.noConfusion

/-- A batch that the keeper does not let expire is stored, and that is all. -/
theorem carryOut_addition_of_forever (h : store.keeper.Documented) (now : Float)
    {records : List Json} (hsome : records ≠ []) (replace : Bool)
    (htrim : store.keeper.fate (.trim workspace store.maxRecords) = .done)
    (hexpire : store.keeper.fate (.expire workspace store.lookback) = .refused fault) :
    store.carryOut (store.addition now workspace records replace)
      = (.error fault, (store.storing now workspace records replace).foldl Store.obey store) := by
  have hrow : store.addition now workspace records replace
      = store.storing now workspace records replace
        ++ .expire workspace store.lookback :: [.enlist workspace] := by
    obtain ⟨raw, rest, rfl⟩ := List.exists_cons_of_ne_nil hsome
    rw [addition, deposit, List.append_assoc]
    rfl
  rw [hrow]
  refine carryOut_of_refused (fun c hc => ?_) hexpire
  rw [storing_of_ne_nil store now workspace hsome, List.mem_append, List.mem_singleton] at hc
  rcases hc with hc | rfl
  · exact done_of_mem_bringing h now workspace records replace c hc
  · exact htrim

/-- A batch that the keeper does not trim comes behind the others, and that is all. -/
theorem carryOut_addition_of_untrimmed (h : store.keeper.Documented) (now : Float)
    {records : List Json} (hsome : records ≠ []) (replace : Bool)
    (htrim : store.keeper.fate (.trim workspace store.maxRecords) = .refused fault) :
    store.carryOut (store.addition now workspace records replace)
      = (.error fault, (bringing now workspace records replace).foldl Store.obey store) := by
  have hrow : store.addition now workspace records replace
      = bringing now workspace records replace ++ .trim workspace store.maxRecords ::
        [.expire workspace store.lookback, .enlist workspace] := by
    obtain ⟨raw, rest, rfl⟩ := List.exists_cons_of_ne_nil hsome
    rw [addition, deposit, storing, List.append_assoc, List.append_assoc]
    rfl
  rw [hrow]
  exact carryOut_of_refused (done_of_mem_bringing h now workspace records replace) htrim

end Documented

namespace Write

/-- A write for one workspace leaves the store the same to every other one. -/
theorem same_apply {w : Write} (h : w.target = some workspace) (hne : other ≠ workspace)
    (store : Store) : Same other store (w.apply store) := by
  cases w with
  | add now named records replace =>
    obtain rfl : named = workspace := Option.some.inj h
    exact same_carryOut_of_ne
      (fun c hc => workspace_of_mem_addition store now named records replace c hc ▸ hne) store
  | clear named =>
    obtain rfl : named = workspace := Option.some.inj h
    exact same_carryOut_of_ne
      (fun c hc => by simp [clearing] at hc; rcases hc with rfl | rfl <;> exact hne) store
  | elapse time => cases h

/-- What is set for all workspaces stays. -/
theorem settings_apply (store : Store) (w : Write) :
    (w.apply store).lookback = store.lookback ∧
      (w.apply store).maxRecords = store.maxRecords ∧ (w.apply store).keeper = store.keeper := by
  have hrow (commands : List Command) : (store.carryOut commands).2.lookback = store.lookback ∧
      (store.carryOut commands).2.maxRecords = store.maxRecords ∧
      (store.carryOut commands).2.keeper = store.keeper := by
    induction commands generalizing store with
    | nil => exact ⟨rfl, rfl, rfl⟩
    | cons c commands ih =>
      obtain ⟨hlookback, hmaxRecords, hkeeper⟩ := store.settings_obey c
      rw [carryOut]
      cases store.keeper.fate c with
      | done => exact ⟨(ih _).1.trans hlookback, (ih _).2.1.trans hmaxRecords,
          (ih _).2.2.trans hkeeper⟩
      | refused fault => exact ⟨rfl, rfl, rfl⟩
      | unheard fault => exact ⟨hlookback, hmaxRecords, hkeeper⟩
  cases w with
  | add => exact hrow _
  | clear => exact hrow _
  | elapse => exact ⟨rfl, rfl, rfl⟩

end Write

/-! ## 5. What is kept -/

/-- A list that is held against a log of some age.  Either it is not to expire, or nothing is left
of the log, or as much time is left to the list as its age leaves of what it was given. -/
structure Kept (bound : Option Nat) (life : Option Int) (workspace : String)
    (logged : List Entry) (age : Nat) (store : Store) : Prop where
  entries : store.entries workspace = cut bound logged
  term : store.terms.find? workspace = none ∧ (life = none ∨ logged = []) ∨
    ∃ given : Int, life = some given ∧ 0 < given ∧ (age : Int) ≤ given ∧
      store.terms.find? workspace = some (given - (age : Int))

section Kept

variable {bound : Option Nat} {life : Option Int} {logged : List Entry} {age : Nat}
  {store store' : Store}

/-- A log of which something is left has not lapsed. -/
theorem Kept.of_lapsed (h : Kept bound life workspace logged age store)
    (hlapsed : lapsed life age = true) : logged = [] := by
  rcases h.term with ⟨-, rfl | hnil⟩ | ⟨given, rfl, hpos, hage, -⟩
  · cases hlapsed
  · exact hnil
  · rw [lapsed_some_iff] at hlapsed
    omega

/-- What leaves a list and its term alone leaves it as it is. -/
theorem Kept.of_eq (h : Kept bound life workspace logged age store)
    (hentries : store'.entries workspace = store.entries workspace)
    (hterm : store'.terms.find? workspace = store.terms.find? workspace) :
    Kept bound life workspace (if lapsed life age then [] else logged) age store' := by
  have hlogged : (if lapsed life age then [] else logged) = logged := by
    split
    · rename_i hlapsed
      exact (h.of_lapsed hlapsed).symm
    · rfl
  rw [hlogged]
  exact ⟨hentries.trans h.entries, by rw [hterm]; exact h.term⟩

/-- A list with nothing in it and no term is that of a log of which nothing is left. -/
theorem kept_nil (hentries : store.entries workspace = [])
    (hterm : store.terms.find? workspace = none) : Kept bound life workspace [] age store :=
  ⟨hentries.trans (cut_nil bound).symm, .inl ⟨hterm, .inr rfl⟩⟩

/-- **Time that passes** makes a log older, and takes the list when the log has lapsed. -/
theorem Kept.pass (h : Kept bound life workspace logged age store) (time : Nat) :
    Kept bound life workspace (if lapsed life (age + time) then [] else logged) (age + time)
      (store.pass time) := by
  rcases h.term with ⟨hterm, hnone⟩ | ⟨given, rfl, hpos, hage, hterm⟩
  · have houtlasts : store.outlasts time workspace = true := by rw [outlasts, hterm]; rfl
    have hlogged : (if lapsed life (age + time) then [] else logged) = logged := by
      rcases hnone with rfl | rfl <;> simp [lapsed]
    rw [hlogged]
    refine ⟨by rw [entries_pass, if_pos houtlasts]; exact h.entries, .inl ⟨?_, hnone⟩⟩
    rw [find?_terms_pass, if_pos houtlasts, hterm]
    rfl
  · by_cases hlapsed : given < ((age + time : Nat) : Int)
    · have hgone : store.outlasts time workspace = false := by
        rw [outlasts, hterm, Option.all_some, decide_eq_false_iff_not]
        omega
      rw [if_pos (lapsed_some_iff.mpr (.inr hlapsed))]
      exact kept_nil (by rw [entries_pass, hgone]; rfl) (by rw [find?_terms_pass, hgone]; rfl)
    · have houtlasts : store.outlasts time workspace = true := by
        rw [outlasts, hterm, Option.all_some, decide_eq_true_iff]
        omega
      have hnot : ¬ lapsed (some given) (age + time) = true := by
        rw [lapsed_some_iff]
        omega
      rw [if_neg hnot]
      refine ⟨by rw [entries_pass, if_pos houtlasts]; exact h.entries,
        .inr ⟨given, rfl, hpos, by omega, ?_⟩⟩
      rw [find?_terms_pass, if_pos houtlasts, hterm, Option.map_some]
      exact congrArg some (by omega)

theorem Kept.standing (h : Kept bound life workspace logged age store) (replace : Bool) :
    store.standing workspace replace
      = cut bound (if replace then [] else logged) := by
  cases replace with
  | true => exact (cut_nil bound).symm
  | false => exact h.entries

/-- A batch comes behind the log, as far as a list is trimmed to it. -/
theorem Kept.cut_standing (h : Kept bound life workspace logged age store) (replace : Bool)
    (entries : List Entry) :
    cut bound (store.standing workspace replace ++ entries)
      = cut bound ((if replace then [] else logged) ++ entries) := by
  rw [h.standing, cut_cut_append]

theorem Kept.newest_standing (hlimit : 1 ≤ store.maxRecords)
    (h : Kept (some store.maxRecords.toNat) life workspace logged age store) (replace : Bool)
    (entries : List Entry) :
    newest store.maxRecords (store.standing workspace replace ++ entries)
      = cut (some store.maxRecords.toNat) ((if replace then [] else logged) ++ entries) := by
  rw [newest_eq_rtake hlimit, ← h.cut_standing]
  rfl

/-- A list that is given no time has no term. -/
theorem Kept.eternal (h : Kept bound none workspace logged age store) :
    store.terms.find? workspace = none := by
  rcases h.term with ⟨hterm, -⟩ | ⟨_, hgiven, -⟩
  · exact hterm
  · cases hgiven

/-- With a term the list is there for so long, or goes as soon as it has come. -/
theorem Kept.add_of_term (hlimit : 1 ≤ store.maxRecords)
    (h : Kept (some store.maxRecords.toNat) life workspace logged age store) {given : Int}
    (hterm : store.keeper.term store.lookback = some given) (now : Float) {records : List Json}
    (hsome : records ≠ []) (replace : Bool) :
    Kept (some store.maxRecords.toNat) (some given) workspace
      (if lapsed (some given) 0 then []
        else (if replace then [] else logged) ++ arrived now records) 0
      (store.add now workspace records replace) := by
  have hforgets : store.forgets store.lookback = decide (given ≤ 0) := by
    rw [forgets, hterm, Option.any_some]
  by_cases hover : given ≤ 0
  · rw [if_pos (lapsed_some_iff.mpr (.inl hover))]
    refine kept_nil ?_ ?_
    · rw [entries_add, if_neg hsome, hforgets, decide_eq_true hover]
      rfl
    · rw [term_add store now workspace hsome, hforgets, decide_eq_true hover]
      rfl
  · have hnot : ¬ lapsed (some given) 0 = true := by
      rw [lapsed_some_iff]
      omega
    rw [if_neg hnot]
    refine ⟨?_, .inr ⟨given, rfl, by omega, by omega, ?_⟩⟩
    · rw [entries_add, if_neg hsome, hforgets, decide_eq_false hover]
      exact h.newest_standing hlimit replace _
    · rw [term_add store now workspace hsome, hforgets, decide_eq_false hover, hterm]
      simp

/-- **A batch with records** comes behind the log, as far as it counts, and makes it new. -/
theorem Kept.add (hkeeper : store.keeper.Documented) (hlimit : 1 ≤ store.maxRecords)
    (h : Kept (store.bound workspace) (store.lifetime workspace) workspace logged age store)
    (now : Float) {records : List Json} (hsome : records ≠ []) (replace : Bool) :
    Kept (store.bound workspace) (store.lifetime workspace) workspace
      (if lapsed (store.lifetime workspace) 0 then []
        else (if replace then [] else logged) ++ arrived now records) 0
      ((Write.add now workspace records replace).apply store) := by
  rw [Write.apply]
  cases store.treats hkeeper workspace with
  | keeps n _ _ _ htrim hexpire hterm hbound hlife =>
    rw [hbound, hlife] at h ⊢
    rw [carryOut_addition hkeeper now workspace replace (.inr ⟨htrim, hexpire⟩)]
    exact h.add_of_term hlimit hterm now hsome replace
  | forever fault htrim hexpire hbound hlife =>
    rw [hbound, hlife] at h ⊢
    rw [carryOut_addition_of_forever hkeeper now hsome replace htrim hexpire]
    refine ⟨?_, .inl ⟨?_, .inl rfl⟩⟩
    · rw [entries_storing, if_neg hsome]
      exact h.newest_standing hlimit replace _
    · rw [term_storing, h.eternal, ite_self]
  | untrimmed fault _ htrim hbound hlife =>
    rw [hbound, hlife] at h ⊢
    rw [carryOut_addition_of_untrimmed hkeeper now hsome replace htrim]
    refine ⟨?_, .inl ⟨?_, .inl rfl⟩⟩
    · exact (entries_bringing ..).trans (h.cut_standing replace (arrived now records))
    · rw [term_bringing, h.eternal, ite_self]

end Kept

/-- Clearing a workspace takes its list away. -/
theorem carryOut_clearing {store : Store} (h : store.keeper.Documented) (workspace : String) :
    store.carryOut (clearing workspace)
      = (.ok (), (clearing workspace).foldl Store.obey store) := by
  refine carryOut_eq_ok.mpr ⟨fun c hc => ?_, rfl⟩
  simp only [clearing, List.mem_cons, List.not_mem_nil, or_false] at hc
  rcases hc with rfl | rfl <;>
    exact h.obeys _ (fun _ _ => Command.noConfusion) fun _ _ => Command.noConfusion

/-- A write that neither brings records to a workspace nor takes any, nor lets time pass. -/
structure Write.Still (workspace : String) (w : Write) : Prop where
  renews : w.renews workspace = false
  time : w.time = 0
  resets : w.resets workspace = false
  batch : w.batch workspace = []

/-- A write that means another workspace is still for this one. -/
theorem Write.still_of_ne {w : Write} (h : w.target = some other) (hne : workspace ≠ other) :
    w.Still workspace := by
  cases w with
  | add now named records replace =>
    obtain rfl : named = other := Option.some.inj h
    have hnamed : (named == workspace) = false := beq_false_of_ne hne.symm
    exact ⟨by rw [renews, hnamed]; rfl, rfl, by rw [resets, hnamed]; rfl, if_neg hne.symm⟩
  | clear named =>
    obtain rfl : named = other := Option.some.inj h
    exact ⟨rfl, rfl, beq_false_of_ne hne.symm, rfl⟩
  | elapse time => cases h

section Writes

variable {store : Store} {bound : Option Nat} {life : Option Int} {earlier : List Write}
  {w : Write}

theorem Kept.still (h : Kept bound life workspace (logBack life workspace earlier)
      (age workspace earlier) store) (hw : w.Still workspace)
    (hentries : (w.apply store).entries workspace = store.entries workspace)
    (hterm : (w.apply store).terms.find? workspace = store.terms.find? workspace) :
    Kept bound life workspace (logBack life workspace (w :: earlier))
      (age workspace (w :: earlier)) (w.apply store) := by
  rw [logBack, age, hw.renews, hw.time, hw.resets, hw.batch]
  simpa using h.of_eq hentries hterm

/-- An empty batch only replaces. -/
theorem Kept.addNothing (hkeeper : store.keeper.Documented)
    (h : Kept bound life workspace (logBack life workspace earlier) (age workspace earlier) store)
    (now : Float) (replace : Bool) :
    Kept bound life workspace (logBack life workspace (.add now workspace [] replace :: earlier))
      (age workspace (.add now workspace [] replace :: earlier))
      ((Write.add now workspace [] replace).apply store) := by
  have happly : (Write.add now workspace [] replace).apply store
      = store.add now workspace [] replace := by
    rw [Write.apply, carryOut_addition hkeeper now workspace replace (.inl rfl)]
  cases replace with
  | false =>
    have hstill : (Write.add now workspace [] false).Still workspace :=
      ⟨by simp [Write.renews], rfl, by simp [Write.resets], by simp [Write.batch, arrived]⟩
    exact h.still hstill (by rw [happly]; rfl) (by rw [happly]; rfl)
  | true =>
    have hempty : logBack life workspace (.add now workspace [] true :: earlier) = [] := by
      simp [logBack, Write.resets, Write.batch, arrived]
    rw [hempty, happly]
    exact kept_nil (entries_withoutEntries_self store workspace)
      (Table.find?_erase_self workspace store.terms)

theorem Kept.clear (hkeeper : store.keeper.Documented) (workspace : String) :
    Kept bound life workspace (logBack life workspace (.clear workspace :: earlier))
      (age workspace (.clear workspace :: earlier)) ((Write.clear workspace).apply store) := by
  have hempty : logBack life workspace (.clear workspace :: earlier) = [] := by
    simp [logBack, Write.resets, Write.batch]
  rw [hempty, Write.apply, carryOut_clearing hkeeper]
  exact kept_nil (entries_withoutEntries_self store workspace)
    (Table.find?_erase_self workspace store.terms)

/-- **One write** takes a list that is kept to one that is kept. -/
theorem Kept.apply (hkeeper : store.keeper.Documented) (hlimit : 1 ≤ store.maxRecords)
    (hbound : store.bound workspace = bound) (hlife : store.lifetime workspace = life)
    (h : Kept bound life workspace (logBack life workspace earlier) (age workspace earlier) store)
    (w : Write) :
    Kept bound life workspace (logBack life workspace (w :: earlier))
      (age workspace (w :: earlier)) (w.apply store) := by
  have helsewhere {other : String} (htarget : w.target = some other) (hne : workspace ≠ other) :
      Kept bound life workspace (logBack life workspace (w :: earlier))
        (age workspace (w :: earlier)) (w.apply store) := by
    have hsame := Write.same_apply htarget hne store
    exact h.still (Write.still_of_ne htarget hne) hsame.entries hsame.term
  cases w with
  | elapse time =>
    have hpass := h.pass time
    rw [logBack, age]
    simpa [Write.renews, Write.time, Write.resets, Write.batch, Write.apply] using hpass
  | clear named =>
    by_cases hnamed : workspace = named
    · exact hnamed ▸ Kept.clear hkeeper workspace
    · exact helsewhere rfl hnamed
  | add now named records replace =>
    by_cases hnamed : workspace = named
    · subst hnamed
      by_cases hsome : records = []
      · exact hsome ▸ h.addNothing hkeeper now replace
      · subst hbound hlife
        have hadd := h.add hkeeper hlimit now hsome replace
        have hrenews : (Write.add now workspace records replace).renews workspace = true := by
          simp [Write.renews, hsome]
        rw [logBack, age, if_pos hrenews]
        simpa [Write.resets, Write.batch] using hadd
    · exact helsewhere rfl hnamed

end Writes

/-- A batch makes its workspace known when it comes through. -/
theorem hasWorkspace_addition {store : Store} (hkeeper : store.keeper.Documented) (now : Float)
    (workspace : String) (records : List Json) (replace : Bool) :
    ((Write.add now workspace records replace).apply store).hasWorkspace workspace ↔
      (records = [] ∨ store.lifetime workspace ≠ none) ∨ store.hasWorkspace workspace := by
  rw [Write.apply]
  by_cases hempty : records = []
  · rw [carryOut_addition hkeeper now workspace replace (.inl hempty), hasWorkspace_add]
    simp [hempty]
  · cases store.treats hkeeper workspace with
    | keeps n _ _ _ htrim hexpire _ _ hlife =>
      rw [carryOut_addition hkeeper now workspace replace (.inr ⟨htrim, hexpire⟩),
        hasWorkspace_add]
      simp [hlife]
    | forever fault htrim hexpire _ hlife =>
      rw [carryOut_addition_of_forever hkeeper now hempty replace htrim hexpire,
        hasWorkspace_storing]
      simp [hempty, hlife]
    | untrimmed fault _ htrim _ hlife =>
      rw [carryOut_addition_of_untrimmed hkeeper now hempty replace htrim, hasWorkspace_bringing]
      simp [hempty, hlife]

/-- **A batch fails** when it has records that the keeper does not let expire. -/
theorem fails_addition_iff {store : Store} (hkeeper : store.keeper.Documented) (now : Float)
    (workspace : String) (records : List Json) (replace : Bool) :
    Fails (store.carryOut (store.addition now workspace records replace)).1 ↔
      records ≠ [] ∧ store.lifetime workspace = none := by
  by_cases hempty : records = []
  · rw [carryOut_addition hkeeper now workspace replace (.inl hempty)]
    simp [hempty]
  · cases store.treats hkeeper workspace with
    | keeps n _ _ _ htrim hexpire _ _ hlife =>
      rw [carryOut_addition hkeeper now workspace replace (.inr ⟨htrim, hexpire⟩)]
      simp [hlife]
    | forever fault htrim hexpire _ hlife =>
      rw [carryOut_addition_of_forever hkeeper now hempty replace htrim hexpire]
      simp [hempty, hlife]
    | untrimmed fault _ htrim _ hlife =>
      rw [carryOut_addition_of_untrimmed hkeeper now hempty replace htrim]
      simp [hempty, hlife]

/-- A write makes a workspace known when it adds to it, and leaves it known unless it clears it. -/
theorem Write.hasWorkspace_apply {store : Store} (hkeeper : store.keeper.Documented)
    (workspace : String) (w : Write) :
    (w.apply store).hasWorkspace workspace ↔
      (∃ now records replace, w = .add now workspace records replace ∧
        (records = [] ∨ store.lifetime workspace ≠ none)) ∨
        w ≠ .clear workspace ∧ store.hasWorkspace workspace := by
  cases w with
  | elapse time => exact ⟨fun h => .inr ⟨nofun, h⟩, fun h => h.elim nofun And.right⟩
  | clear named =>
    rw [Write.apply, carryOut_clearing hkeeper]
    refine (hasWorkspace_strike ..).trans ?_
    constructor
    · rintro ⟨hne, h⟩
      exact .inr ⟨fun e => hne (Write.clear.inj e).symm, h⟩
    · rintro (⟨_, _, _, h, -⟩ | ⟨hne, h⟩)
      · cases h
      · exact ⟨fun e => hne (e ▸ rfl), h⟩
  | add now named records replace =>
    by_cases hnamed : workspace = named
    · subst hnamed
      rw [hasWorkspace_addition hkeeper]
      refine or_congr ⟨fun h => ⟨now, records, replace, rfl, h⟩, ?_⟩
        (and_iff_right Write.noConfusion).symm
      rintro ⟨_, _, _, h, hthrough⟩
      obtain ⟨-, -, rfl, -⟩ := Write.add.inj h
      exact hthrough
    · rw [(Write.same_apply rfl hnamed store).known]
      refine ⟨fun h => .inr ⟨Write.noConfusion, h⟩, ?_⟩
      rintro (⟨_, _, _, h, -⟩ | ⟨-, h⟩)
      · exact absurd (Write.add.inj h).2.1.symm hnamed
      · exact h

/-! ## 6. Runs -/

/-- A store that nothing was added to. -/
def opened (lookback : Figure Float) (maxRecords : Int) (keeper : Keeper) : Store :=
  { lookback, maxRecords, keeper }

variable {lookback : Figure Float} {maxRecords : Int} {keeper : Keeper}

/-- Writes leave the settings of a store alone. -/
theorem settings_after (store : Store) (writes : List Write) :
    (store.after writes).lookback = store.lookback ∧
      (store.after writes).maxRecords = store.maxRecords ∧
      (store.after writes).keeper = store.keeper := by
  induction writes using List.reverseRecOn with
  | nil => exact ⟨rfl, rfl, rfl⟩
  | append_singleton writes w ih =>
    obtain ⟨hlookback, hmaxRecords, hkeeper⟩ := Write.settings_apply (store.after writes) w
    rw [after_concat, hlookback, hmaxRecords, hkeeper]
    exact ih

theorem bound_after (store : Store) (writes : List Write) (workspace : String) :
    (store.after writes).bound workspace = store.bound workspace := by
  obtain ⟨-, hmax, hkeeper⟩ := settings_after store writes
  rw [bound, bound, hmax, hkeeper]

theorem lifetime_after (store : Store) (writes : List Write) (workspace : String) :
    (store.after writes).lifetime workspace = store.lifetime workspace := by
  obtain ⟨hlookback, hmax, hkeeper⟩ := settings_after store writes
  rw [lifetime, lifetime, hlookback, hmax, hkeeper]

/-- **What is stored** of a workspace is kept at every point of a run. -/
theorem kept_after (hkeeper : keeper.Documented) (h : 1 ≤ maxRecords) (writes : List Write)
    (workspace : String) :
    let store := opened lookback maxRecords keeper
    Kept (store.bound workspace) (store.lifetime workspace) workspace
      (log (store.lifetime workspace) workspace writes) (age workspace writes.reverse)
      (store.after writes) := by
  intro store
  induction writes using List.reverseRecOn with
  | nil => exact kept_nil rfl rfl
  | append_singleton writes w ih =>
    obtain ⟨-, hmax, hsame⟩ := settings_after store writes
    rw [after_concat, log, List.reverse_append]
    exact ih.apply (by rwa [hsame]) (by rwa [hmax]) (bound_after store writes workspace)
      (lifetime_after store writes workspace) w

/-- **A workspace is known** when something was added to it after which it was not cleared. -/
theorem known_after (hkeeper : keeper.Documented) (lookback : Figure Float) (maxRecords : Int)
    (writes : List Write) (workspace : String) :
    let store := opened lookback maxRecords keeper
    (store.after writes).hasWorkspace workspace
      ↔ AddedSince (store.lifetime workspace) workspace writes := by
  intro store
  induction writes using List.reverseRecOn with
  | nil => simp [store, opened, after, hasWorkspace, AddedSince]
  | append_singleton writes w ih =>
    obtain ⟨-, -, hsame⟩ := settings_after store writes
    rw [after_concat, Write.hasWorkspace_apply (by rwa [hsame]), addedSince_concat, ih,
      lifetime_after]

/-- Only records get into a store by its own writes. -/
theorem record_of_mem_logBack {life : Option Int} {writes : List Write} {entry : Entry}
    (h : entry ∈ logBack life workspace writes) : ∃ now raw, entry = .record now raw := by
  induction writes with
  | nil => cases h
  | cons w earlier ih =>
    rw [logBack] at h
    split at h
    · cases h
    · rcases List.mem_append.mp h with hold | hnew
      · split at hold
        · cases hold
        · exact ih hold
      · cases w with
        | add now named records replace =>
          rw [Write.batch] at hnew
          split at hnew
          · obtain ⟨raw, -, rfl⟩ := List.mem_map.mp hnew
            exact ⟨now, raw, rfl⟩
          · cases hnew
        | clear | elapse => cases hnew

/-- A record that was added blocks its workspace only when it cannot be read: its arrival is a
number. -/
theorem not_blocks_record {now : Float} {raw : Json} (h : ¬ Fails (Report.trace raw)) :
    ¬ Blocks (.record now raw) := by
  rintro (⟨raw', arrival, hparts, hraw⟩ | ⟨raw', arrival, hparts, trace, -, -, harrival⟩)
  · obtain ⟨rfl, -⟩ := Prod.mk.inj (Option.some.inj hparts)
    exact h ((Report.fails_trace_iff raw).mpr hraw)
  · obtain ⟨-, rfl⟩ := Prod.mk.inj (Option.some.inj hparts)
    simp [Json.isNumber] at harrival

/-- **What is loaded** from records that can be read are their traces within the window, in
order. -/
theorem loadTraces_of_readable {store : Store} {seconds now : Float}
    (hlookback : store.lookback.quantity "-" = .ok seconds)
    (hrecords : ∀ entry ∈ store.entries workspace, ∃ arrival raw, entry = .record arrival raw)
    (hread : ∀ arrival raw, .record arrival raw ∈ store.entries workspace →
      ¬ Fails (Report.trace raw)) :
    store.loadTraces workspace now
      = .ok ((store.entries workspace).filterMap (loadable? (now - seconds))) := by
  have hok : ¬ Fails (store.loadTraces workspace now) := by
    rw [fails_loadTraces_iff, hlookback]
    rintro (hfails | ⟨entry, hmem, hblocks⟩)
    · exact not_fails_ok seconds hfails
    · obtain ⟨arrival, raw, rfl⟩ := hrecords entry hmem
      exact not_blocks_record (hread arrival raw hmem) hblocks
  obtain ⟨ts, hts⟩ := not_fails_iff.mp hok
  obtain ⟨seconds', hseconds, rfl⟩ := loadTraces_eq_ok hts
  rw [hlookback] at hseconds
  rw [hts, ← Except.ok.inj hseconds]

/-- A keeper that does what it is told gives its entries when it is asked for them. -/
theorem fetchTraces_eq {store : Store} (h : store.keeper.Documented) (workspace : String)
    (now : Float) : store.fetchTraces workspace now = store.loadTraces workspace now := by
  have hheard : store.heard (.range workspace) = .ok () := by
    rw [heard, h.obeys _ (fun _ _ => Command.noConfusion) fun _ _ => Command.noConfusion]
  rw [fetchTraces, hheard]
  cases hseconds : store.lookback.quantity "-" with
  | ok seconds => rfl
  | error fault =>
    rw [loadTraces, hseconds]
    rfl

/-- Every poll starts the log of its workspace anew. -/
theorem log_polls (life : Option Int) (workspace : String) (records : List Json)
    (writes : List Write) (earlier : List Float) (last : Float) :
    log life workspace
        (writes ++ (earlier ++ [last]).map fun now => .add now workspace records true)
      = if lapsed life 0 then [] else arrived last records := by
  rw [List.map_append, ← List.append_assoc, List.map_singleton, log, List.reverse_append,
    List.reverse_singleton, List.singleton_append, logBack]
  by_cases hempty : records = []
  · simp [hempty, Write.resets, Write.batch, arrived]
  · have hrenews : (Write.add last workspace records true).renews workspace = true := by
      simp [Write.renews, hempty]
    rw [age, if_pos hrenews]
    simp [Write.resets, Write.batch]

/-- However often a window is polled, one copy of it is stored, as long as it lasts. -/
theorem entries_after_polls (hkeeper : keeper.Documented) (h : 1 ≤ maxRecords)
    (writes : List Write) (workspace : String) (records : List Json) (earlier : List Float)
    (last : Float) :
    let start := opened lookback maxRecords keeper
    ((start.after writes).after
        ((earlier ++ [last]).map fun now => .add now workspace records true)).entries workspace
      = if lapsed (start.lifetime workspace) 0 then []
        else cut (start.bound workspace) (arrived last records) := by
  intro start
  rw [← after_append, (kept_after hkeeper h _ workspace).entries, log_polls]
  split
  · exact cut_nil _
  · rfl

/-! ## 7. The window as a whole -/

/-- A whole number is a quantity unless it lies beyond the range. -/
theorem fails_quantity_whole_iff (use : String) (n : Int) :
    Fails ((Figure.whole n : Figure Float).quantity use) ↔ Decimal.rangeEnd ≤ n.natAbs := by
  have hquotient : (Scalar.quotient n 1 : Option Float) = Decimal.wholeFloat? n := rfl
  rw [← Decimal.wholeFloat?_eq_none_iff, ← hquotient, Figure.quantity, Figure.number, fails_bind]
  simp only [not_fails_ok, false_or, Except.ok.injEq, exists_eq_left']
  split
  · rename_i x h
    simp [h]
  · rename_i h
    simp [h]

/-- **The stored window** is a bounded log, whatever was written before and however much time has
passed.  Of each workspace the newest entries of its log are stored, all of them when the keeper
does not trim; a write for one workspace leaves the others as they are; a workspace is known from
a batch that came through until it is cleared, and a batch comes through unless it has records
that the keeper does not let expire; and loading gives the traces of the last while when the stored
records can be read and times can be reckoned with the seconds to look back, and fails when these
are too many.  Polls of one window leave one copy of it, as long as it lasts. -/
theorem after_refines_log (lookback : Figure Float) (maxRecords : Int) (h : 1 ≤ maxRecords)
    (keeper : Keeper) (hkeeper : keeper.Documented) (writes : List Write) (workspace : String) :
    let start := opened lookback maxRecords keeper
    let store := start.after writes
    (∀ given, start.lifetime workspace = some given →
      ∃ n : Int, lookback = .whole n ∧ -2 ^ 63 ≤ n ∧ n < 2 ^ 63 ∧ given = 1000 * n) ∧
    (maxRecords ≤ 2 ^ 63 →
      store.entries workspace
        = (log (start.lifetime workspace) workspace writes).rtake maxRecords.toNat) ∧
    store.entries workspace
      = cut (start.bound workspace) (log (start.lifetime workspace) workspace writes) ∧
    (∀ (w : Write) (named other : String), w.target = some named → other ≠ named →
      (w.apply store).entries other = store.entries other ∧
        (w.apply store).hasWorkspace other = store.hasWorkspace other) ∧
    (store.hasWorkspace workspace ↔ AddedSince (start.lifetime workspace) workspace writes) ∧
    (∀ now records replace,
      Fails (store.carryOut (store.addition now workspace records replace)).1 ↔
        records ≠ [] ∧ start.lifetime workspace = none) ∧
    (∀ now seconds, lookback.quantity "-" = .ok seconds →
      (∀ arrival raw, .record arrival raw ∈ store.entries workspace →
        ∃ trace, Report.trace raw = .ok trace) →
      store.fetchTraces workspace now
        = .ok ((store.entries workspace).filterMap (loadable? (now - seconds)))) ∧
    (∀ now, Fails (lookback.quantity "-") → Fails (store.fetchTraces workspace now)) ∧
    (∀ records earlier last,
      (store.after ((earlier ++ [last]).map fun now => .add now workspace records true)).entries
          workspace
        = if lapsed (start.lifetime workspace) 0 then []
          else cut (start.bound workspace) (arrived last records)) := by
  intro start store
  obtain ⟨hlookback, -, hsame⟩ := settings_after start writes
  have hdocumented : store.keeper.Documented := hsame ▸ hkeeper
  have hentries : store.entries workspace
      = cut (start.bound workspace) (log (start.lifetime workspace) workspace writes) :=
    (kept_after hkeeper h writes workspace).entries
  have hstart : start.keeper.Documented := hkeeper
  refine ⟨fun given => whole_of_lifetime hstart, fun hlimit => ?_, hentries, ?_,
    known_after hkeeper lookback maxRecords writes workspace, ?_, ?_, ?_, ?_⟩
  · rw [hentries, bound_of_fits hstart h hlimit]
    rfl
  · intro w named other htarget hne
    have hrest := Write.same_apply htarget hne store
    exact ⟨hrest.entries, hrest.known⟩
  · intro now records replace
    rw [fails_addition_iff hdocumented, lifetime_after]
  · intro now seconds hseconds hread
    rw [fetchTraces_eq hdocumented]
    refine loadTraces_of_readable (hlookback ▸ hseconds) (fun entry hmem => ?_) ?_
    · rw [hentries] at hmem
      exact record_of_mem_logBack (mem_of_mem_cut hmem)
    · exact fun arrival raw hmem => not_fails_iff.mpr (hread arrival raw hmem)
  · intro now hfails
    rw [fetchTraces_eq hdocumented, fails_loadTraces_iff, hlookback]
    exact .inl hfails
  · exact entries_after_polls hkeeper h writes workspace

/-! ## 8. A keeper that refuses what does not fit -/

/-- The milliseconds of a whole number of seconds that fits in 64 bits. -/
def fittingTerm : Figure Float → Option Int
  | .whole n => if -2 ^ 63 ≤ n ∧ n < 2 ^ 63 then some (1000 * n) else none
  | .decimal _ | .other _ => none

def fittingFate : Command → Fate
  | .trim _ limit =>
    if -2 ^ 63 < limit ∧ limit ≤ 2 ^ 63 then .done
    else .refused (.storeRefused "value is not an integer or out of range")
  | .expire _ seconds =>
    if (fittingTerm seconds).isSome then .done
    else .refused (.storeRefused "value is not an integer or out of range")
  | .delete _ | .push .. | .enlist _ | .strike _ | .range _ | .member _ => .done

/-- Refuses what does not fit, and nothing else. -/
def fitting : Keeper := { fate := fittingFate, term := fittingTerm }

/-- A keeper that refuses what does not fit does what is documented. -/
theorem documented_fitting : fitting.Documented where
  obeys c htrim hexpire := by
    cases c with
    | trim workspace limit => exact absurd rfl (htrim workspace limit)
    | expire workspace seconds => exact absurd rfl (hexpire workspace seconds)
    | _ => rfl
  trims workspace limit := by
    by_cases hfits : -2 ^ 63 < limit ∧ limit ≤ 2 ^ 63
    · exact .inl (if_pos hfits)
    · exact .inr ⟨hfits, _, if_neg hfits⟩
  expires workspace seconds := by
    have hfate : fitting.fate (.expire workspace seconds)
        = if (fittingTerm seconds).isSome then .done
          else .refused (.storeRefused "value is not an integer or out of range") := rfl
    cases seconds with
    | whole n =>
      by_cases hfits : -2 ^ 63 ≤ n ∧ n < 2 ^ 63
      · have hterm : fittingTerm (.whole n) = some (1000 * n) := if_pos hfits
        exact .inl ⟨n, rfl, hfits.1, hfits.2, by rw [hfate, hterm]; rfl, hterm⟩
      · have hterm : fittingTerm (.whole n) = none := if_neg hfits
        exact .inr ⟨_, by rw [hfate, hterm]; rfl⟩
    | decimal | other => exact .inr ⟨_, hfate⟩

theorem reads_countedHop : ∃ trace, Report.trace countedHop = .ok trace := ⟨_, rfl⟩

/-- Two workspaces, of which one is overfull and nothing new comes to the other one. -/
def crowded : List Write :=
  [.add 1 "a" [countedHop, spelledCount] false, .add 2 "b" [spelledCount] false,
   .elapse 3600000, .add 3 "a" [countedHop, countedHop] false, .elapse 1]

/-- Of the overfull workspace the newest two records are left, and they can be read; the other one
is known and empty. -/
theorem after_refines_log_crowded :
    let store := (opened (.whole 3600) 2 fitting).after crowded
    ((1 : Int) ≤ 2 ∧ fitting.Documented) ∧
    store.entries "a" = [.record 3 countedHop, .record 3 countedHop] ∧
    (∃ seconds, (Figure.whole 3600 : Figure Float).quantity "-" = .ok seconds ∧
      store.fetchTraces "a" 5
        = .ok ([.record 3 countedHop, .record 3 countedHop].filterMap
            (loadable? (5 - seconds)))) ∧
    store.entries "b" = [] ∧ store.hasWorkspace "b" := by
  obtain ⟨-, hentries, -, -, -, -, hload, -, -⟩ :=
    after_refines_log (.whole 3600) 2 (by decide) fitting documented_fitting crowded "a"
  obtain ⟨-, hentries', -, -, hknown, -⟩ :=
    after_refines_log (.whole 3600) 2 (by decide) fitting documented_fitting crowded "b"
  have hstored : ((opened (.whole 3600) 2 fitting).after crowded).entries "a"
      = [.record 3 countedHop, .record 3 countedHop] :=
    hentries (by decide)
  have hseconds : ¬ Fails ((Figure.whole 3600 : Figure Float).quantity "-") := by
    rw [fails_quantity_whole_iff]
    decide +kernel
  obtain ⟨seconds, hseconds⟩ := not_fails_iff.mp hseconds
  rw [hstored] at hload
  refine ⟨⟨by decide, documented_fitting⟩, hstored,
    ⟨seconds, hseconds, hload 5 seconds hseconds ?_⟩, hentries' (by decide), hknown.mpr ?_⟩
  · intro arrival raw hmem
    obtain ⟨-, rfl⟩ : arrival = 3 ∧ raw = countedHop := by simpa using hmem
    exact reads_countedHop
  · exact ⟨[.add 1 "a" [countedHop, spelledCount] false], 2, [spelledCount], false,
      [.elapse 3600000, .add 3 "a" [countedHop, countedHop] false, .elapse 1], rfl,
      .inr (by decide), by simp⟩

/-- Seconds that no time can be reckoned with. -/
def endless : Figure Float := .whole (10 ^ 400)

theorem fails_quantity_endless : Fails (endless.quantity "-") := by
  rw [endless, fails_quantity_whole_iff]
  decide +kernel

theorem eq_of_mem_sole {lookback : Figure Float} {entry : Entry}
    (h : entry ∈ ((opened lookback 5 fitting).after
      [.add 0 "ws" [countedHop] false]).entries "ws") : entry = .record 0 countedHop := by
  rw [(kept_after documented_fitting (by decide) _ "ws").entries] at h
  have hlogged := mem_of_mem_cut h
  rw [log, List.reverse_singleton, logBack] at hlogged
  split at hlogged
  · cases hlogged
  · exact List.mem_singleton.mp hlogged

/-- **A stored window is less than a log.**  What was added goes when nothing new has come for
longer than the seconds to look back; with seconds that are not whole the records are stored, but
the batch fails and their workspace is not known; and with seconds without end nothing is loaded,
though the one record that is stored can be read. -/
theorem window_forgets_refuses_fails :
    ((opened (.whole 3600) 5 fitting).after
        [.add 0 "ws" [countedHop] false, .elapse 3600001]).entries "ws" = [] ∧
    (let store := (opened (.decimal 3600) 5 fitting).after [.add 0 "ws" [countedHop] false]
     store.entries "ws" = [.record 0 countedHop] ∧ store.hasWorkspace "ws" = false) ∧
    (let store := (opened endless 5 fitting).after [.add 0 "ws" [countedHop] false]
     (∀ arrival raw, .record arrival raw ∈ store.entries "ws" →
        ∃ trace, Report.trace raw = .ok trace) ∧
      ∀ now, Fails (store.fetchTraces "ws" now)) := by
  refine ⟨rfl, ⟨rfl, rfl⟩, ?_, ?_⟩
  · intro arrival raw hmem
    obtain ⟨-, rfl⟩ := Entry.record.inj (eq_of_mem_sole hmem)
    exact reads_countedHop
  · intro now
    rw [fetchTraces, fails_bind, (settings_after _ _).1]
    exact .inl fails_quantity_endless

end Store

end PathAtlas.Service
