import SchemaPlan.Main
import SchemaPlan.Spanner.InMemory
import SchemaPlan.Proofs.Index
import SchemaPlan.Proofs.Validation
import SchemaPlan.Proofs.Layout
import SchemaPlan.Proofs.TableRun
import SchemaPlan.Proofs.Execution
import SchemaPlan.Proofs.CountingColumns
import SchemaPlan.Proofs.RemainingColumns
import SchemaPlan.Proofs.IndexNames
import SchemaPlan.Proofs.UpperCase
import SchemaPlan.Proofs.NormalForm
import SchemaPlan.Proofs.ColumnType
import SchemaPlan.Proofs.TypeResolution
import SchemaPlan.Proofs.Snapshot
import SchemaPlan.Proofs.Reconciliation
import SchemaPlan.Proofs.FieldType
import SchemaPlan.Proofs.UnchangedColumn
import SchemaPlan.Proofs.MySqlProtocol
import SchemaPlan.Proofs.PlanOrder
import SchemaPlan.Proofs.SpannerProtocol
import SchemaPlan.Proofs.MySqlRows
import SchemaPlan.Proofs.SpannerRows
import SchemaPlan.Proofs.SpannerCatalog
import SchemaPlan.Proofs.OrderIndependence
import SchemaPlan.Proofs.TableIndependence
import SchemaPlan.Proofs.PlanFailure
import SchemaPlan.Proofs.MySqlIndexes
import SchemaPlan.Proofs.Respelling
import SchemaPlan.Proofs.JsonGrammar
import SchemaPlan.Proofs.JsonReading
import SchemaPlan.Proofs.JsonRecord
import SchemaPlan.Proofs.JsonShape
import SchemaPlan.Proofs.DocumentRoundTrip
import SchemaPlan.Proofs.DocumentGrammar
import SchemaPlan.Proofs.UntouchedIndex
import SchemaPlan.Proofs.BaseType
import SchemaPlan.Proofs.RequestedSize
import SchemaPlan.Proofs.CatalogForm
import SchemaPlan.Proofs.AcceptedType
import SchemaPlan.Proofs.ReverseLookup
import SchemaPlan.Proofs.ColumnAlteration
import SchemaPlan.Proofs.QualifiedType
import SchemaPlan.Proofs.DecimalRounding
import SchemaPlan.Proofs.ReportedOptions
import SchemaPlan.Proofs.StoredDefault
import SchemaPlan.Proofs.ExponentRounding
import SchemaPlan.Proofs.DefaultOperand
import SchemaPlan.Proofs.SelfDelimiting
import SchemaPlan.Proofs.IndexChanges
import SchemaPlan.Proofs.DeclaredIndexes
import SchemaPlan.Proofs.ServerVersion
import SchemaPlan.Proofs.Restyling
import SchemaPlan.Proofs.ClauseForm
import SchemaPlan.Proofs.DisplayWidth
import SchemaPlan.Proofs.DigitCount
