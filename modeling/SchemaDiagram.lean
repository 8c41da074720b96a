import SchemaDiagram.Check.Brace
import SchemaDiagram.Check.Statement
import SchemaDiagram.Check.TableBody
import SchemaDiagram.Check.TableName
import SchemaDiagram.Check.Validation
import SchemaDiagram.Decimal.Binary64
import SchemaDiagram.Decimal.Shortest
import SchemaDiagram.Decimal.Written
import SchemaDiagram.Failure
import SchemaDiagram.Geometry.Shape
import SchemaDiagram.Layout.Arrange
import SchemaDiagram.Options.Basic
import SchemaDiagram.Picture.Drawing
import SchemaDiagram.Proofs.Check.Sequence
import SchemaDiagram.Proofs.Check.StrayBrace
import SchemaDiagram.Proofs.Layout.Packing
import SchemaDiagram.Proofs.Schema.Lossless
import SchemaDiagram.Proofs.Schema.MissingBrace
import SchemaDiagram.Proofs.Session.Coherence
import SchemaDiagram.Proofs.Session.Frame
import SchemaDiagram.Proofs.Source.Balance
import SchemaDiagram.Proofs.Source.Comment
import SchemaDiagram.Proofs.Source.Quoting
import SchemaDiagram.Proofs.Writing.RoundTrip
import SchemaDiagram.Schema.Alias
import SchemaDiagram.Schema.Extract
import SchemaDiagram.Session.Diagram
import SchemaDiagram.Session.Operation
import SchemaDiagram.Source.Outline
import SchemaDiagram.Text.CellWidth
import SchemaDiagram.Text.Emoji
import SchemaDiagram.Text.Ligature
import SchemaDiagram.Text.Mark
import SchemaDiagram.Proofs.Session.Overlap
import SchemaDiagram.Proofs.Geometry.Double
import SchemaDiagram.Proofs.Options.Number
import SchemaDiagram.Proofs.Routing.Edge
import SchemaDiagram.Proofs.Session.Completion
import SchemaDiagram.Proofs.Access.Basic
import SchemaDiagram.Proofs.Access.Line
import SchemaDiagram.Proofs.Access.Token
import SchemaDiagram.Proofs.Access.Setting
import SchemaDiagram.Proofs.Access.Grammar
import SchemaDiagram.Proofs.Access.Outline
import SchemaDiagram.Proofs.Access.Check
import SchemaDiagram.Proofs.Access.Extract
import SchemaDiagram.Proofs.Session.Derived
import SchemaDiagram.Proofs.Session.History
import SchemaDiagram.Proofs.Check.TableLine
import SchemaDiagram.Proofs.Source.Place
import SchemaDiagram.Proofs.Source.Continuation
import SchemaDiagram.Proofs.Source.Span
import SchemaDiagram.Proofs.Check.Place
import SchemaDiagram.Proofs.Geometry.Real
import SchemaDiagram.Proofs.Routing.Attachment
import SchemaDiagram.Proofs.Check.Finding
import SchemaDiagram.Proofs.Grammar.Shift
import SchemaDiagram.Proofs.Schema.Reference
import SchemaDiagram.Proofs.Schema.Spelling
import SchemaDiagram.Proofs.Grammar.Name
import SchemaDiagram.Proofs.Grammar.Reference
import SchemaDiagram.Proofs.Grammar.Field
import SchemaDiagram.Proofs.Source.Prefix
import SchemaDiagram.Proofs.Source.Order
import SchemaDiagram.Proofs.Check.Duplicate
import SchemaDiagram.Proofs.Schema.Note
import SchemaDiagram.Proofs.Layout.Symmetry
import SchemaDiagram.Proofs.Layout.Component
import SchemaDiagram.Proofs.Check.EnumType
import SchemaDiagram.Proofs.Check.Skeleton
import SchemaDiagram.Proofs.Schema.LineFeed
import SchemaDiagram.Proofs.Schema.Alias
import SchemaDiagram.Proofs.Routing.Piece
import SchemaDiagram.Proofs.Routing.Turn
import SchemaDiagram.Proofs.Routing.Leg
import SchemaDiagram.Proofs.Routing.Waypoint
import SchemaDiagram.Proofs.Routing.Rectilinear
import SchemaDiagram.Proofs.Routing.SelfReference
import SchemaDiagram.Proofs.Routing.Reversal
import SchemaDiagram.Proofs.Check.Order
import SchemaDiagram.Proofs.Source.Conservation
import SchemaDiagram.Proofs.Picture.Drawing
import SchemaDiagram.Proofs.Session.View
import SchemaDiagram.Proofs.Grammar.Item
import SchemaDiagram.Proofs.Source.Literal
import SchemaDiagram.Proofs.Source.Region
import SchemaDiagram.Proofs.Source.Spacing
import SchemaDiagram.Proofs.Routing.Rounding
