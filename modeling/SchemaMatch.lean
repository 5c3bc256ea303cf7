import SchemaMatch.Main
import SchemaMatch.Provider.Target
import SchemaMatch.Proofs.Matcher.Policy
import SchemaMatch.Proofs.Matcher.Schema
import SchemaMatch.Proofs.Matcher.Catalog
import SchemaMatch.Proofs.Matcher.Scores
import SchemaMatch.Proofs.Payload
import SchemaMatch.Proofs.Provider.Exchange
import SchemaMatch.Proofs.Provider.Responses
import SchemaMatch.Proofs.Selection.Row
import SchemaMatch.Proofs.Settings
import SchemaMatch.Proofs.Settings.Overrides
import SchemaMatch.Proofs.Settings.Partial
import SchemaMatch.Proofs.CommandLine.Session
import SchemaMatch.Table.Indexed
import SchemaMatch.Proofs.Table.Indexed
import SchemaMatch.Proofs.Schema
import SchemaMatch.Proofs.Recommendations.Indexed
import SchemaMatch.Proofs.Recommendations.Groups
import SchemaMatch.Proofs.Recommendations.Repetition
import SchemaMatch.Proofs.Provider.Hashing
import SchemaMatch.Proofs.Provider.Acceptance
import SchemaMatch.ScoreMatrix.Packed
import SchemaMatch.Projection.Packed
import SchemaMatch.Proofs.RowMajor
import SchemaMatch.Proofs.Projection.Shape
import SchemaMatch.Proofs.Projection.Packed
import SchemaMatch.Proofs.Projection.Spread
import SchemaMatch.Proofs.ScoreMatrix.Packed
import SchemaMatch.Embedding.Paired
import SchemaMatch.Proofs.Embedding.Paired
