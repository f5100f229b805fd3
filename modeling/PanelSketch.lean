import PanelSketch.Color
import PanelSketch.Diff.Drift
import PanelSketch.Editor.Basic
import PanelSketch.Main
import PanelSketch.Project.File
import PanelSketch.Text.NamePool
import PanelSketch.Text.Quoted
import PanelSketch.Proofs.Editor.Reload
import PanelSketch.Proofs.Sketch.Images
import PanelSketch.Proofs.Workspace.Agreement
import PanelSketch.Proofs.Sketch.Loaded
import PanelSketch.Proofs.Sketch.Layout
import PanelSketch.Proofs.Sketch.GlobalNames
import PanelSketch.Proofs.Workspace.Lifetime
import PanelSketch.Proofs.Project.Focus
import PanelSketch.Proofs.Project.References
import PanelSketch.Proofs.Sketch.Packing
import PanelSketch.Proofs.Editor.Refusal
import PanelSketch.Proofs.Project.RoundTrip
import PanelSketch.Proofs.Sketch.AssetNames
import PanelSketch.Proofs.Diff.Drift
import PanelSketch.Proofs.Editor.Assets
import PanelSketch.Proofs.Editor.Locality
import PanelSketch.Proofs.Editor.Compound
import PanelSketch.Proofs.Editor.Exchange
import PanelSketch.Proofs.Editor.Creation
import PanelSketch.Proofs.Sketch.Geometry
import PanelSketch.Proofs.Editor.Reordering
import PanelSketch.Proofs.Sketch.Naming
import PanelSketch.Proofs.Payload
import PanelSketch.Proofs.Text.Letters
import PanelSketch.Proofs.Text.Searching
import PanelSketch.Proofs.Color
import PanelSketch.Proofs.Workspace.Seeding
import PanelSketch.Proofs.Sketch.Labels
