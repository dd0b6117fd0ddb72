import SceneTree.Document.Record
import SceneTree.Evaluation.Session
import SceneTree.Main
import SceneTree.Reference.Registry
import SceneTree.Proofs.Attempt
import SceneTree.Proofs.Evaluation.Stages
import SceneTree.Proofs.Evaluation.Walk
import SceneTree.Proofs.Evaluation.Ownership
import SceneTree.Proofs.Evaluation.Runs
import SceneTree.Proofs.Evaluation.Collections
import SceneTree.Proofs.Translation.Effect
import SceneTree.Proofs.Translation.Growth
import SceneTree.Proofs.Translation.Fills
import SceneTree.Proofs.Translation.Naming
import SceneTree.Proofs.Translation.Successes
import SceneTree.Proofs.Translation.Channel
import SceneTree.Proofs.Translation.Contents
import SceneTree.Proofs.Sameness
import SceneTree.Proofs.Translation.Reading
import SceneTree.Proofs.Translation.Scripts
import SceneTree.Proofs.Translation.Listing
import SceneTree.Proofs.Translation.Head
import SceneTree.Proofs.Translation.Compiled
import SceneTree.Proofs.Containment.Rules
import SceneTree.Proofs.Containment.Surroundings
import SceneTree.Proofs.Containment.Data
import SceneTree.Proofs.Containment.Admission
import SceneTree.Proofs.Containment.Success
import SceneTree.Proofs.Containment.Scripts
import SceneTree.Proofs.Containment.Layouts
import SceneTree.Proofs.Containment.Acceptance
import SceneTree.Proofs.Identity.Taken
import SceneTree.Proofs.Identity.Items
import SceneTree.Proofs.Identity.Census
import SceneTree.Proofs.Identity.Distinct
import SceneTree.Proofs.Integrity.Sharing
import SceneTree.Proofs.Integrity.Steady
import SceneTree.Proofs.Integrity.Homes
import SceneTree.Proofs.Integrity.Links
import SceneTree.Proofs.Integrity.Projects
import SceneTree.Proofs.Integrity.Readings
import SceneTree.Proofs.Integrity.Intact
import SceneTree.Proofs.References.Following
import SceneTree.Proofs.References.Redraft
import SceneTree.Proofs.References.Resolution
import SceneTree.Proofs.References.Rules
import SceneTree.Proofs.Markup.Acceptance
import SceneTree.Proofs.Markup.RoundTrip
import SceneTree.Proofs.Repetition.Again
import SceneTree.Proofs.Opacity.Anonymous
import SceneTree.Proofs.Markup.Faults
import SceneTree.Proofs.Regularity.Trees
import SceneTree.Proofs.Regularity.Documents
import SceneTree.Proofs.Regularity.Layouts
import SceneTree.Proofs.Regularity.Refusals
import SceneTree.Proofs.CommandLine.Files
import SceneTree.Proofs.Decoding.Reader
import SceneTree.Proofs.Decoding.Numbers
import SceneTree.Proofs.Decoding.Shortest
import SceneTree.Proofs.Decoding.Values
import SceneTree.Proofs.Decoding.Documents
import SceneTree.Proofs.Value.Equivalence
import SceneTree.Proofs.Roster.Latest
import SceneTree.Proofs.Evaluation.Agenda
import SceneTree.Proofs.Refiling.Shelves
import SceneTree.Proofs.Refiling.Frames
import SceneTree.Proofs.Refiling.Again
import SceneTree.Proofs.Styling.Nodes
import SceneTree.Proofs.Styling.Objects
import SceneTree.Proofs.Reference.Settling
import SceneTree.Proofs.Identifier.Freshness
import SceneTree.Proofs.Markup.Covering
import SceneTree.Proofs.Markup.Rendering
import SceneTree.Proofs.Markup.CamelCase
import SceneTree.Proofs.Node.Extension
import SceneTree.Proofs.Encoding.NormalForm
import SceneTree.Proofs.Progress.Documents
