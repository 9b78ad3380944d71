/-
# Differences of routes

Two routes are compared step by step.  A step whose address the other route has nowhere was
removed or added; one that the other route has at another place counts as changed.

The comparison is by place and no alignment is looked for: a step that is put in shifts all that
follow, and each of those is changed or, where its address is new, added.  It is as long as the
longer route, and where the other one has ended that side is absent.  A wildcard is an address
like any other.
-/
import PathAtlas.Json.Value

namespace PathAtlas.Change

/-! ## 1. Marks -/

/-- What became of a step. -/
inductive Mark where
  | unchanged
  | added
  | removed
  | changed
  deriving Repr, DecidableEq

def Mark.name : Mark → String
  | unchanged => "unchanged"
  | added => "added"
  | removed => "removed"
  | changed => "changed"

/-! ## 2. Differences -/

/-- The comparison of one step.  A side is absent where that route has no such step. -/
structure StepDiff where
  index : Nat
  previous : Option String
  current : Option String
  previousMark : Option Mark
  currentMark : Option Mark
  deriving Repr, DecidableEq

/-- The mark of an address of the previous route that does not stand at its place any more. -/
def previousMark (current : List String) (p : String) : Mark :=
  if current.contains p then .changed else .removed

/-- The mark of an address of the current route that did not stand at its place before. -/
def currentMark (previous : List String) (c : String) : Mark :=
  if previous.contains c then .changed else .added

/-- The comparison of the steps at one place of two routes. -/
def diffAt (previous current : List String) (i : Nat) : StepDiff :=
  let p := previous[i]?
  let c := current[i]?
  if p.isSome && p == c then ⟨i, p, c, some .unchanged, some .unchanged⟩
  else ⟨i, p, c, p.map (previousMark current), c.map (currentMark previous)⟩

/-- The comparison of two routes, as long as the longer one. -/
def diff (previous current : List String) : List StepDiff :=
  (List.range (max previous.length current.length)).map (diffAt previous current)

/-- A comparison as a document; steps are counted from one. -/
def StepDiff.toJson (d : StepDiff) : Json :=
  let mark (m : Option Mark) : Json := .ofOption (fun m => .text m.name) m
  .mapping
    [("hop", .nat (d.index + 1)),
     ("previous", .ofOption .text d.previous),
     ("current", .ofOption .text d.current),
     ("previous_status", mark d.previousMark),
     ("current_status", mark d.currentMark)]

end PathAtlas.Change
