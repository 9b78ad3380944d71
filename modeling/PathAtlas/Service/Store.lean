/-
# The record store

Raw records by workspace, each with the time at which it came.  Only the newest are kept, and only
those of the last while are loaded.  A workspace is known from the first records that were added
to it until it is cleared.

The lists lie with a keeper, another program that is told by commands what to do (`Command`).  The
keeper carries a command out or refuses it, and it can do what it is told without its sender
hearing of it (`Fate`).  One call on the store is several commands, and the first one that does not
come back well ends the call: what was carried out before it STAYS (`carryOut`).

The keeper also lets lists go.  With every batch it is told after how many seconds the list of the
workspace is to be forgotten, and what it makes of that, be it that it forgets the list at once or
never, is up to it (`Keeper.term`).  What has to go by then goes as time passes (`pass`).  The names
of the workspaces stay.

A store with the keeper that is set when none is named has every command carried out and keeps
everything for good.
-/
import PathAtlas.Json.Parser
import PathAtlas.Order
import PathAtlas.Table
import PathAtlas.Trace.Report

namespace PathAtlas.Service

/-! ## 1. State -/

/-- What is stored: a record with its time of arrival, or a text that someone else put there. -/
inductive Entry where
  | record (receivedAt : Float) (raw : Json)
  | foreign (text : String)

/-- The record of an entry and its time of arrival; absent when the entry is none. -/
def Entry.parts? : Entry → Option (Json × Json)
  | .record receivedAt raw => some (raw, .decimal receivedAt)
  | .foreign s =>
    match Json.parse? s with
    | some (.mapping es) =>
      some ((Json.lookUp "record" es).getD .null, (Json.lookUp "received_at" es).getD (.whole 0))
    | _ => none

/-- What the keeper of a store is told. -/
inductive Command where
  /-- A list goes. -/
  | delete (workspace : String)
  /-- Entries come behind those of a list. -/
  | push (workspace : String) (entries : List Entry)
  /-- The newest entries of a list stay. -/
  | trim (workspace : String) (limit : Int)
  /-- A list goes after some seconds. -/
  | expire (workspace : String) (seconds : Figure Float)
  | enlist (workspace : String)
  | strike (workspace : String)
  /-- The entries of a list are asked for. -/
  | range (workspace : String)
  /-- It is asked whether a workspace is known. -/
  | member (workspace : String)

/-- What becomes of a command. -/
inductive Fate where
  | done
  | refused (fault : Fault)
  /-- The command is carried out, but the fault is all that its sender hears. -/
  | unheard (fault : Fault)

/-- Who keeps the lists. -/
structure Keeper where
  fate : Command → Fate := fun _ => .done
  /-- The milliseconds after which a list goes that is to go after some seconds; absent when it
  stays for good. -/
  term : Figure Float → Option Int := fun _ => none

/-- The store. -/
structure Store where
  /-- How far back records are loaded, in seconds. -/
  lookback : Figure Float
  /-- How many records are kept in a workspace. -/
  maxRecords : Int
  /-- The entries of each workspace that has a list, which is empty when all of it was too old to
  be kept. -/
  lists : Table (List Entry) := []
  /-- The seconds after which a workspace is to be forgotten, as last told. -/
  expiries : Table (Figure Float) := []
  /-- The milliseconds that are left to each list that is not kept for good. -/
  terms : Table Int := []
  /-- The known workspaces in order. -/
  workspaces : List String := []
  keeper : Keeper := {}

namespace Store

def entries (store : Store) (workspace : String) : List Entry :=
  (store.lists.find? workspace).getD []

def hasWorkspace (store : Store) (workspace : String) : Bool := store.workspaces.contains workspace

def withEntries (store : Store) (workspace : String) (entries : List Entry) : Store :=
  { store with lists := store.lists.set workspace entries }

def withoutEntries (store : Store) (workspace : String) : Store :=
  { store with lists := store.lists.erase workspace, terms := store.terms.erase workspace }

theorem entries_withEntries_self (store : Store) (workspace : String) (es : List Entry) :
    (store.withEntries workspace es).entries workspace = es := by
  simp [entries, withEntries, Table.find?_set_self]

theorem entries_withEntries_of_ne {workspace other : String} (h : other ≠ workspace)
    (store : Store) (es : List Entry) :
    (store.withEntries workspace es).entries other = store.entries other := by
  simp [entries, withEntries, Table.find?_set_of_ne h]

theorem entries_withoutEntries_self (store : Store) (workspace : String) :
    (store.withoutEntries workspace).entries workspace = [] := by
  simp [entries, withoutEntries, Table.find?_erase_self]

theorem entries_withoutEntries_of_ne {workspace other : String} (h : other ≠ workspace)
    (store : Store) : (store.withoutEntries workspace).entries other = store.entries other := by
  simp [entries, withoutEntries, Table.find?_erase_of_ne h]

/-! ## 2. Keys -/

/-- The key under which the records of a workspace lie. -/
def recordsKey (workspace : String) : String := "routemap:records:" ++ workspace

/-- The key under which the names of the workspaces lie. -/
def workspacesKey : String := "routemap:workspaces"

/-- The lists of all workspaces by their keys. -/
def keyed (store : Store) : Table (List Entry) :=
  store.lists.map fun (workspace, entries) => (recordsKey workspace, entries)

/-! ## 3. Commands -/

/-- The newest entries.  A limit of nought keeps all of them, and one below nought leaves out
so many of the oldest. -/
def newest (limit : Int) (entries : List Entry) : List Entry :=
  if 0 < limit then entries.drop (entries.length - limit.toNat) else entries.drop limit.natAbs

/-- Whether a list goes at once that is to go after some seconds. -/
def forgets (store : Store) (seconds : Figure Float) : Bool :=
  (store.keeper.term seconds).any (· ≤ 0)

/-- A list is to go after some seconds. -/
def letExpire (store : Store) (workspace : String) (seconds : Figure Float) : Store :=
  let expiries := store.expiries.set workspace seconds
  if store.forgets seconds then { store.withoutEntries workspace with expiries }
  else { store with expiries, terms := store.terms.put workspace (store.keeper.term seconds) }

/-- The store after a command was carried out. -/
def obey (store : Store) : Command → Store
  | .delete workspace => store.withoutEntries workspace
  | .push workspace entries => store.withEntries workspace (store.entries workspace ++ entries)
  | .trim workspace limit => store.withEntries workspace (newest limit (store.entries workspace))
  | .expire workspace seconds => store.letExpire workspace seconds
  | .enlist workspace =>
    { store with workspaces := Order.insertText workspace store.workspaces }
  | .strike workspace => { store with workspaces := store.workspaces.filter (· ≠ workspace) }
  | .range _ | .member _ => store

/-- Gives some commands, one after the other, up to the first one that does not come back well. -/
def carryOut (store : Store) : List Command → Except Fault Unit × Store
  | [] => (.ok (), store)
  | c :: rest =>
    match store.keeper.fate c with
    | .done => (store.obey c).carryOut rest
    | .refused fault => (.error fault, store)
    | .unheard fault => (.error fault, store.obey c)

/-- What the sender of a question hears first. -/
def heard (store : Store) (c : Command) : Except Fault Unit :=
  match store.keeper.fate c with
  | .done => .ok ()
  | .refused fault | .unheard fault => .error fault

/-- Whether more time is left to a list than passes, or it is kept for good. -/
def outlasts (store : Store) (time : Nat) (workspace : String) : Bool :=
  (store.terms.find? workspace).all ((time : Int) ≤ ·)

/-- The store when some time has passed, in milliseconds. -/
def pass (store : Store) (time : Nat) : Store :=
  { store with
    lists := store.lists.filter fun (workspace, _) => store.outlasts time workspace
    terms := (store.terms.filter fun (workspace, _) => store.outlasts time workspace).map
      fun (workspace, left) => (workspace, left - time) }

/-! ## 4. Adding and clearing -/

/-- A batch as it is stored. -/
def arrived (now : Float) (records : List Json) : List Entry := records.map (.record now)

/-- The commands by which records come behind the others of a workspace or in their place. -/
def bringing (now : Float) (workspace : String) (records : List Json) (replace : Bool) :
    List Command :=
  (if replace then [.delete workspace] else []) ++
    if records.isEmpty then [] else [.push workspace (arrived now records)]

/-- The commands by which records are stored.  An empty batch does not trim what is there. -/
def storing (store : Store) (now : Float) (workspace : String) (records : List Json)
    (replace : Bool) : List Command :=
  bringing now workspace records replace ++
    if records.isEmpty then [] else [.trim workspace store.maxRecords]

/-- The commands by which records are stored for a while.  An empty batch does not renew the
others. -/
def deposit (store : Store) (now : Float) (workspace : String) (records : List Json)
    (replace : Bool) : List Command :=
  store.storing now workspace records replace ++
    if records.isEmpty then [] else [.expire workspace store.lookback]

/-- The commands by which records that came now are added, which makes their workspace known. -/
def addition (store : Store) (now : Float) (workspace : String) (records : List Json)
    (replace : Bool) : List Command :=
  store.deposit now workspace records replace ++ [.enlist workspace]

/-- The commands by which a workspace is taken out. -/
def clearing (workspace : String) : List Command := [.delete workspace, .strike workspace]

/-- Adds records when nothing is refused. -/
def add (store : Store) (now : Float) (workspace : String) (records : List Json)
    (replace : Bool) : Store :=
  (store.addition now workspace records replace).foldl obey store

/-- Puts an entry behind the others of a workspace. -/
def push (store : Store) (workspace : String) (entry : Entry) : Store :=
  store.obey (.push workspace [entry])

/-- Takes a workspace out when nothing is refused; tells how many lists went with it. -/
def clear (store : Store) (workspace : String) : Nat × Store :=
  (if (store.lists.find? workspace).isSome then 1 else 0, (clearing workspace).foldl obey store)

/-! ## 5. Loading -/

/-- Whether a value is a number from a given one on; only numbers can be compared with it. -/
def isFrom (cutoff : Float) (value : Json) : Except Fault Bool :=
  if value.isNumber then
    .ok ((Json.decimal cutoff).numberBelow value || (Json.decimal cutoff).numberSame value)
  else .error (.noOrder ">=" value.kind (Json.decimal cutoff).kind)

/-- The trace of an entry when it lies within the window.  A trace without a time of its own
counts by its arrival. -/
def loadEntry (cutoff : Float) (entry : Entry) : Except Fault (Option (Trace Float)) :=
  match entry.parts? with
  | none => .ok none
  | some (raw, receivedAt) => do
    match ← Report.trace raw with
    | none => return none
    | some trace =>
      let seen : Json := if Scalar.isZero trace.time then receivedAt else .decimal trace.time
      return if ← isFrom cutoff seen then some trace else none

/-- The traces of a workspace from the last while before a time. -/
def loadTraces (store : Store) (workspace : String) (now : Float) :
    Except Fault (List (Trace Float)) := do
  let cutoff := now - (← store.lookback.quantity "-")
  let loaded ← (store.entries workspace).mapM (loadEntry cutoff)
  return loaded.filterMap id

/-- The traces of a workspace, once the keeper has given its entries. -/
def fetchTraces (store : Store) (workspace : String) (now : Float) :
    Except Fault (List (Trace Float)) := do
  let _ ← store.lookback.quantity "-"
  store.heard (.range workspace)
  store.loadTraces workspace now

/-- Whether a workspace is known, once the keeper has said so. -/
def knows (store : Store) (workspace : String) : Except Fault Bool := do
  store.heard (.member workspace)
  return store.hasWorkspace workspace

end Store

end PathAtlas.Service
