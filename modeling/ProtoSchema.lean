import ProtoSchema.Build.Column
import ProtoSchema.Build.Constraints
import ProtoSchema.Build.Schema
import ProtoSchema.Build.Walk
import ProtoSchema.CommandLine
import ProtoSchema.Error
import ProtoSchema.Generation.Response
import ProtoSchema.Generation.SchemaDocument
import ProtoSchema.Log
import ProtoSchema.Main
import ProtoSchema.Options
import ProtoSchema.Plugin.Codec
import ProtoSchema.Plugin.CustomOption
import ProtoSchema.Plugin.Numbered
import ProtoSchema.Plugin.Types
import ProtoSchema.Pool.Basic
import ProtoSchema.Pool.Node
import ProtoSchema.Pool.Tree
import ProtoSchema.Reader
import ProtoSchema.Relational.Definition
import ProtoSchema.Relational.Document
import ProtoSchema.Relational.Edit
import ProtoSchema.Relational.Query
import ProtoSchema.Relational.Schema
import ProtoSchema.Sql.Catalog
import ProtoSchema.Sql.Expression
import ProtoSchema.Sql.Literal
import ProtoSchema.Sql.Scan
import ProtoSchema.Sql.Statement
import ProtoSchema.Sql.Token
import ProtoSchema.Sql.TokenReader
import ProtoSchema.Text.Blank
import ProtoSchema.Text.Printable
import ProtoSchema.Text.Quoted
import ProtoSchema.Transport
import ProtoSchema.Verification
import ProtoSchema.Wire.DecodeError
import ProtoSchema.Wire.Field
import ProtoSchema.Wire.Key
import ProtoSchema.Wire.Message
import ProtoSchema.Wire.Record
import ProtoSchema.Wire.Varint
import ProtoSchema.Proofs.Build.Clean
import ProtoSchema.Proofs.Build.Composition
import ProtoSchema.Proofs.Build.ConstraintColumns
import ProtoSchema.Proofs.Build.ConstraintExtraction
import ProtoSchema.Proofs.Build.EnumColumns
import ProtoSchema.Proofs.Build.FieldColumns
import ProtoSchema.Proofs.Build.Sights
import ProtoSchema.Proofs.Build.WalkOrder
import ProtoSchema.Proofs.Counting
import ProtoSchema.Proofs.Generation.Failures
import ProtoSchema.Proofs.Generation.FileNames
import ProtoSchema.Proofs.Generation.OtherFiles
import ProtoSchema.Proofs.Generation.QueryDocuments
import ProtoSchema.Proofs.Generation.TableQueries
import ProtoSchema.Proofs.Generation.Undecodable
import ProtoSchema.Proofs.Plugin.RoundTrip
import ProtoSchema.Proofs.Plugin.SplitAnnotation
import ProtoSchema.Proofs.Plugin.UnknownFields
import ProtoSchema.Proofs.Pool.Forest
import ProtoSchema.Proofs.Pool.Resolution
import ProtoSchema.Proofs.Relational.Placeholders
import ProtoSchema.Proofs.SchemaScript
import ProtoSchema.Proofs.Settings
import ProtoSchema.Proofs.Sql.CatalogStatements
import ProtoSchema.Proofs.Sql.ClosedTexts
import ProtoSchema.Proofs.Sql.CreationNames
import ProtoSchema.Proofs.Sql.CreationReading
import ProtoSchema.Proofs.Sql.DefinitionReading
import ProtoSchema.Proofs.Sql.DefinitionTokens
import ProtoSchema.Proofs.Sql.DottedNames
import ProtoSchema.Proofs.Sql.QuotedTexts
import ProtoSchema.Proofs.Sql.ScriptSegments
import ProtoSchema.Proofs.Sql.SqlReader
import ProtoSchema.Proofs.Sql.StandardReader
import ProtoSchema.Proofs.Sql.StatementEnds
import ProtoSchema.Proofs.Sql.TokenTexts
import ProtoSchema.Proofs.TableEdits
import ProtoSchema.Proofs.Transport
import ProtoSchema.Proofs.Verification
import ProtoSchema.Proofs.VerifiedDocument
import ProtoSchema.Proofs.Wire.Consuming
import ProtoSchema.Proofs.Wire.UnknownFields
import ProtoSchema.Proofs.Wire.WellFormedFields
