import TypeBridge.Main
import TypeBridge.Proofs.Declaration.Merge
import TypeBridge.Proofs.Declaration.Placement
import TypeBridge.Proofs.Declaration.Registry
import TypeBridge.Proofs.Declaration.Encounter
import TypeBridge.Proofs.Translation.Meaning
import TypeBridge.Proofs.Translation.Agreement
import TypeBridge.Proofs.Translation.ArrayLayers
import TypeBridge.Proofs.TypeMap.Filling
import TypeBridge.Proofs.TypeMap.Format
import TypeBridge.Proofs.Documentation.Lines
import TypeBridge.Proofs.Documentation.CodeSample
import TypeBridge.Proofs.Documentation.Flattening
import TypeBridge.Proofs.Documentation.Edges
import TypeBridge.Proofs.Documentation.ReferenceName
import TypeBridge.Proofs.Documentation.SampleText
import TypeBridge.Proofs.Source.Reading
import TypeBridge.Proofs.Source.Layout
import TypeBridge.Proofs.Source.Site
import TypeBridge.Proofs.Source.Declared
import TypeBridge.Proofs.Source.Written
import TypeBridge.Proofs.Source.Piece
import TypeBridge.Proofs.Source.Ending
import TypeBridge.Proofs.Source.Length
import TypeBridge.Proofs.Source.Boundary
import TypeBridge.Proofs.Source.Depth
import TypeBridge.Proofs.Source.Structure
import TypeBridge.Proofs.Source.Lead
import TypeBridge.Proofs.Source.LeadingComment
import TypeBridge.Proofs.Source.AttributeArgument
import TypeBridge.Proofs.Output.Entry
import TypeBridge.Proofs.Output.Layout
import TypeBridge.Proofs.Output.CommentBlock
import TypeBridge.Proofs.Output.Name
import TypeBridge.Proofs.Output.PropertyName
import TypeBridge.Proofs.Output.DeclaredName
import TypeBridge.Proofs.Output.SourceOrder
import TypeBridge.Proofs.Output.NestedName
import TypeBridge.Proofs.Collection.Schedule
import TypeBridge.Proofs.Collection.Steps
import TypeBridge.Proofs.Collection.BadFile
import TypeBridge.Proofs.Collection.Listing
import TypeBridge.Proofs.Source.SpaceName
import TypeBridge.Proofs.Source.Spelling
import TypeBridge.Proofs.Files.Tree
import TypeBridge.Proofs.Files.Change
import TypeBridge.Proofs.CommandLine.ChangeFilter
import TypeBridge.Proofs.CommandLine.Generation
import TypeBridge.Proofs.CommandLine.OneShot
import TypeBridge.Proofs.CommandLine.Regeneration
import TypeBridge.Proofs.TypeExpr.Spelling
import TypeBridge.Proofs.Translation.OptionalLayer
import TypeBridge.Proofs.Translation.BaseQualifier
import TypeBridge.Proofs.Translation.NestedReference
import TypeBridge.Proofs.TypeExpr.EarliestFault
import TypeBridge.Proofs.TypeExpr.TokenLanguage
import TypeBridge.Proofs.Translation.Position
