import ComponentDocs.Main
import ComponentDocs.Proofs.Shape.Basic
import ComponentDocs.Proofs.Shape.Reading
import ComponentDocs.Proofs.Shape.Conversion
import ComponentDocs.Proofs.Shape.Totality
import ComponentDocs.Proofs.Agreement
import ComponentDocs.Proofs.Comments.DocsView
import ComponentDocs.Proofs.Comments.Insertion
import ComponentDocs.Proofs.Comments.Conversion
import ComponentDocs.Proofs.Comments.Independence
import ComponentDocs.Proofs.Reordering.Lookups
import ComponentDocs.Proofs.Reordering.Components
import ComponentDocs.Proofs.Run.Enumeration
import ComponentDocs.Proofs.Run.WalkOrder
import ComponentDocs.Proofs.Run.ScannedPaths
import ComponentDocs.Proofs.Run.Reporting
import ComponentDocs.Proofs.Run.Origins
import ComponentDocs.Proofs.Run.ParsedFiles
import ComponentDocs.Proofs.Run.SumOfFiles
import ComponentDocs.Proofs.Members.Depth
import ComponentDocs.Proofs.Members.Inheritance
import ComponentDocs.Proofs.Types.Branches
import ComponentDocs.Proofs.Types.Flattening
import ComponentDocs.Proofs.Types.Schema
import ComponentDocs.Proofs.Types.Signatures
import ComponentDocs.Proofs.Renaming.Components
import ComponentDocs.Proofs.Unrelated
import ComponentDocs.Proofs.Json.Proper
import ComponentDocs.Proofs.Run.Outcome
import ComponentDocs.Proofs.Run.Saving
import ComponentDocs.Proofs.Run.Effects
import ComponentDocs.Proofs.Run.SpeltPaths
import ComponentDocs.Proofs.Run.Rereading
import ComponentDocs.Proofs.Run.Republication
import ComponentDocs.Proofs.Comments.Attachment
import ComponentDocs.Proofs.Comments.DocText
import ComponentDocs.Proofs.Parentheses
import ComponentDocs.Proofs.Props.Defaults
import ComponentDocs.Proofs.Props.Literals
import ComponentDocs.Proofs.Package.Shorthand
import ComponentDocs.Proofs.Package.Search
import ComponentDocs.Proofs.Run.SourcePaths
import ComponentDocs.Proofs.Run.Refusals
import ComponentDocs.Proofs.Props.ResolvedDefaults
import ComponentDocs.Proofs.Text.Slices
import ComponentDocs.Proofs.Props.Provenance
import ComponentDocs.Proofs.Props.Payload
import ComponentDocs.Proofs.Text.Raw
