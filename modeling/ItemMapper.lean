import ItemMapper.Base64
import ItemMapper.Batch.Cursor
import ItemMapper.Batch.Drain
import ItemMapper.Batch.Fetch
import ItemMapper.Batch.TableStore
import ItemMapper.Batch.Transport
import ItemMapper.Calendar.DateText
import ItemMapper.Calendar.Instant
import ItemMapper.Calendar.Rfc2822
import ItemMapper.Calendar.Rfc3339
import ItemMapper.Calendar.Scan
import ItemMapper.Calendar.Zoneless
import ItemMapper.Cipher.Gateway
import ItemMapper.Cipher.KeyService
import ItemMapper.Codec.Coercion
import ItemMapper.Codec.Expectation
import ItemMapper.Codec.Leaves
import ItemMapper.Codec.Natural
import ItemMapper.Codec.Read
import ItemMapper.Codec.Write
import ItemMapper.Error
import ItemMapper.Expression.Calls
import ItemMapper.Expression.ClauseBytes
import ItemMapper.Expression.ClauseText
import ItemMapper.Expression.Clauses
import ItemMapper.Expression.Filter
import ItemMapper.Expression.Operator
import ItemMapper.Expression.Scope
import ItemMapper.Expression.Update
import ItemMapper.Fields
import ItemMapper.Json.Basic
import ItemMapper.Json.Printer
import ItemMapper.Json.Reader
import ItemMapper.Json.Shape
import ItemMapper.Native.Value
import ItemMapper.Number.Basic
import ItemMapper.Number.Binary64
import ItemMapper.Number.Decimal
import ItemMapper.Number.Reader
import ItemMapper.Number.Shortest
import ItemMapper.Proofs.CivilDays
import ItemMapper.Proofs.DateText
import ItemMapper.Proofs.NumberText
import ItemMapper.Request.BatchGet
import ItemMapper.Request.Expected
import ItemMapper.Settings
import ItemMapper.Text.Blank
import ItemMapper.Text.Parts
import ItemMapper.Text.Printable
import ItemMapper.Text.Quoted
import ItemMapper.Wire.Datatypes
import ItemMapper.Wire.Value
import ItemMapper.Wire.WireType
import ItemMapper.Proofs.Base64Text
import ItemMapper.Proofs.CanonicalItem
import ItemMapper.Proofs.RoundTrip
import ItemMapper.Proofs.EncryptedFields
import ItemMapper.Proofs.RenderedClauses
import ItemMapper.Proofs.Scopes
import ItemMapper.Proofs.NamedFields
import ItemMapper.Proofs.PlacedChanges
import ItemMapper.Proofs.UpdateMeaning
import ItemMapper.Proofs.RequestRuns
import ItemMapper.Proofs.DrainedItems
import ItemMapper.Proofs.FetchedItems
import ItemMapper.Proofs.WrittenBack
import ItemMapper.Proofs.WireJson
import ItemMapper.Proofs.CipherEffect
import ItemMapper.Proofs.WellFormedClauses
import ItemMapper.Proofs.WrittenLeaf
import ItemMapper.Proofs.DatatypeJson
import ItemMapper.Proofs.DrainTrace
import ItemMapper.Proofs.UpdateForms
import ItemMapper.Proofs.StoredDates
import ItemMapper.Proofs.NumberGrammar
import ItemMapper.Proofs.NumberReach
import ItemMapper.Proofs.WrittenNumbers
import ItemMapper.Proofs.DrainBound
import ItemMapper.Proofs.FetchOutcome
import ItemMapper.Proofs.WrittenFields
import ItemMapper.Proofs.DoubleText
import ItemMapper.Proofs.EqualNumbers
import ItemMapper.Proofs.FirstFailure
import ItemMapper.Proofs.ReadOutcome
import ItemMapper.Proofs.ExplicitNulls
import ItemMapper.Proofs.NaturalItems
import ItemMapper.Proofs.ExpectedItems
import ItemMapper.Proofs.DateOrder
import ItemMapper.Proofs.SpelledDates
import ItemMapper.Proofs.ReadClauses
import ItemMapper.Proofs.BuiltConditions
import ItemMapper.Proofs.CombinedConditions
import ItemMapper.Proofs.ShapedTrees
import ItemMapper.Proofs.RequestJson
import ItemMapper.Proofs.ByteSegments
import ItemMapper.Proofs.EncodedText
import ItemMapper.Proofs.ByteClauses
import ItemMapper.Proofs.NumberedNames
