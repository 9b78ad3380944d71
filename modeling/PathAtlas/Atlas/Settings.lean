/-
# Settings of an atlas

The layout section of the settings gives a new atlas its mode, its gaps, whether endpoints are
held in place, and how many steps a force layout takes.  Each entry has a value of its own when it
is missing, and a section that counts as absent has none of them.

Entries are read in a fixed order and the first that is unfit ends the reading, so which fault a
section with two unfit entries gives is fixed too.  The gaps may be any number, negative ones
included, and so may the number of steps, of which those below nought mean none.
-/
import PathAtlas.Atlas.Basic

namespace PathAtlas.Atlas

open PathAtlas.Layout

/-- An empty atlas of a section of the settings.  A section that counts as absent has no
entries. -/
def ofSettings (doc : Json) (limits : Thresholds Float) : Except Fault (Atlas Float) := do
  let doc := if doc.isPresent then doc else .mapping []
  let mode ← doc.memberD "mode" (.text Mode.hierarchical.name)
  let layerGap ← (← doc.memberD "layer_gap" (.decimal standardLayerGap)).toDecimal
  let nodeGap ← (← doc.memberD "node_gap" (.decimal standardNodeGap)).toDecimal
  let pinEndpoints ← doc.memberD "pin_endpoints" (.bool true)
  let iterations ← (← doc.memberD "iterations" (.whole 300)).toWhole
  return { limits, mode := ← Mode.parse mode, layerGap, nodeGap
           pinEndpoints := pinEndpoints.isPresent, iterations }

end PathAtlas.Atlas
