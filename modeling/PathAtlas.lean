import PathAtlas.Main
import PathAtlas.Topology.Outline
import PathAtlas.Trace.Listing
import PathAtlas.Proofs.Order.Grouping
import PathAtlas.Proofs.Outcome
import PathAtlas.Proofs.Topology.HostNames
import PathAtlas.Proofs.Topology.Stops
import PathAtlas.Proofs.Topology.Visits
import PathAtlas.Proofs.Means
import PathAtlas.Proofs.Topology.Assembly
import PathAtlas.Proofs.Topology.OrderIndependence
import PathAtlas.Proofs.Decimal.Bits
import PathAtlas.Proofs.Decimal.Range
import PathAtlas.Proofs.Service.Loading
import PathAtlas.Proofs.Layout.Layered
import PathAtlas.Proofs.Motion.Steps
import PathAtlas.Proofs.Motion.Loops
import PathAtlas.Proofs.Motion.Pins
import PathAtlas.Proofs.Service.Window
import PathAtlas.Proofs.Atlas.Lifecycle
import PathAtlas.Proofs.Atlas.FailedRefresh
import PathAtlas.Proofs.Atlas.DraggedNodes
import PathAtlas.Proofs.Atlas.DragRecord
import PathAtlas.Proofs.Service.Rebuild
import PathAtlas.Proofs.Service.FailedIngest
import PathAtlas.Proofs.Change.Streams
import PathAtlas.Proofs.Window.Departures
import PathAtlas.Proofs.Service.Workspaces
import PathAtlas.Proofs.Service.Polling
import PathAtlas.Proofs.Order.Agreement
import PathAtlas.Proofs.Route.Groups
import PathAtlas.Proofs.Atlas.Conservation
import PathAtlas.Proofs.Atlas.Dimming
import PathAtlas.Proofs.Decimal.Numbers
import PathAtlas.Proofs.Order.Descending
import PathAtlas.Proofs.Window.Filtering
import PathAtlas.Proofs.Atlas.Filtering
import PathAtlas.Proofs.Route.Signatures
import PathAtlas.Proofs.Topology.SilentHops
import PathAtlas.Proofs.Topology.PathEnds
import PathAtlas.Proofs.Topology.ReportedNames
import PathAtlas.Proofs.Layout.Geometry
import PathAtlas.Proofs.Motion.Cooling
import PathAtlas.Proofs.Topology.Highlights
import PathAtlas.Proofs.Change.Differences
import PathAtlas.Proofs.Analysis.Artifacts
import PathAtlas.Proofs.Motion.Background
import PathAtlas.Proofs.Analysis.Newest
import PathAtlas.Proofs.Topology.Tallies
import PathAtlas.Proofs.Window.Merging
import PathAtlas.Proofs.Window.Dominance
import PathAtlas.Proofs.Window.Cells
import PathAtlas.Proofs.Service.Defaults
import PathAtlas.Proofs.Atlas.PathStreams
import PathAtlas.Proofs.Atlas.Destinations
import PathAtlas.Proofs.Trace.Listings
import PathAtlas.Proofs.Trace.Views
import PathAtlas.Proofs.Decimal.Signs
import PathAtlas.Proofs.Drawing.Calls
import PathAtlas.Proofs.Drawing.Pictures
