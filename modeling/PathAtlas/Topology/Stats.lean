/-
# Statistics of a part of the network

Every pass of a trace through a node or an edge leaves a sample.  A tally keeps the means of
latency and loss and the greatest loss up to date while samples come in.

Either figure of a sample may be missing.  The latency has a count of its own and its mean is kept
by it (`Scalar.Running`); the mean of losses is kept by the count of all samples with any figure
(`addLoss`).  Where every sample has a loss the two counts are the same and both means are means.
Where some have none, the second is kept by a count that has gone on without it; what it is then
is worked out with the other results about tallies, beside the condition under which all is well.
-/
import PathAtlas.Json.Value
import PathAtlas.Scalar

namespace PathAtlas.Topology

/-! ## 1. Samples and statistics -/

/-- What one pass measured; either figure may be missing. -/
structure Sample (α : Type) where
  latency : Option α
  loss : Option α
  deriving BEq, DecidableEq

/-- What is known about a node or an edge. -/
structure Stats (α : Type) where
  latency : Option α := none
  loss : Option α := none
  maxLoss : Option α := none
  count : Nat := 0
  deriving BEq, DecidableEq

def Stats.hasData {α : Type} (stats : Stats α) : Bool := decide (0 < stats.count)

/-! ## 2. Tallies -/

/-- Statistics that are kept up to date. -/
structure Tally (α : Type) where
  /-- How many samples came with at least one figure. -/
  count : Nat := 0
  latency : Scalar.Running α := {}
  loss : Option α := none
  maxLoss : Option α := none

namespace Tally

variable {α : Type} [Scalar α]

/-- Takes in a loss.  Its mean is taken over all samples so far, this one included. -/
def addLoss (tally : Tally α) (x : α) : Tally α :=
  { tally with
    loss := some ((tally.loss.map fun old => Scalar.extendMean old tally.count x).getD x)
    maxLoss := some ((tally.maxLoss.map fun old => Scalar.larger old x).getD x) }

def addLatency (tally : Tally α) (x : α) : Tally α :=
  { tally with latency := tally.latency.add x }

/-- Takes in a sample; one without any figure leaves the tally as it is. -/
def add (tally : Tally α) (sample : Sample α) : Tally α :=
  if sample.latency.isNone && sample.loss.isNone then tally
  else
    let tally := { tally with count := tally.count + 1 }
    let tally := (sample.loss.map tally.addLoss).getD tally
    (sample.latency.map tally.addLatency).getD tally

def stats (tally : Tally α) : Stats α :=
  ⟨tally.latency.mean, tally.loss, tally.maxLoss, tally.count⟩

def ofSamples (samples : List (Sample α)) : Tally α := samples.foldl add {}

end Tally

def Stats.ofSamples {α : Type} [Scalar α] (samples : List (Sample α)) : Stats α :=
  (Tally.ofSamples samples).stats

/-! ## 3. Documents -/

def Stats.entries (stats : Stats Float) : List (String × Json) :=
  [("avg_latency", .ofOption .decimal stats.latency),
   ("packet_loss", .ofOption .decimal stats.loss),
   ("max_packet_loss", .ofOption .decimal stats.maxLoss),
   ("sample_count", .nat stats.count)]

end PathAtlas.Topology
