import TinyDb.TreeReopen
import TinyDb.TreeOrder
import TinyDb.LeafSpace
import TinyDb.TreePins
import TinyDb.PageStore
import TinyDb.PagerFailures
import TinyDb.Like
import TinyDb.Server
import TinyDb.WhereClause
import TinyDb.RoundTrip
import TinyDb.Operators
import TinyDb.CatalogEntries
import TinyDb.ForeignFiles
import TinyDb.Durability
import TinyDb.Rollback
import TinyDb.AppendOnly
import TinyDb.Recovery
import TinyDb.Framing
import TinyDb.Checksum
import TinyDb.TransactionIds
import TinyDb.Bookkeeping
import TinyDb.CatalogViews
import TinyDb.SchemaCodec
import TinyDb.ValueOrder
import TinyDb.TokenStream
import TinyDb.Literals
import TinyDb.KeywordChecks
import TinyDb.StatementText
import TinyDb.StatementRoundTrip
import TinyDb.TableRoundTrip
import TinyDb.Conditions
import TinyDb.Lib.FloatRounding
import TinyDb.IntegerOperators
import TinyDb.Coercions
import TinyDb.Lib.Distinct
import TinyDb.ResultSet
import TinyDb.ColumnReferences
import TinyDb.InsertRows
import TinyDb.Protocol
import TinyDb.Csv
import TinyDb.CommandLine
import TinyDb.RowBytes
import TinyDb.StoredTable
import TinyDb.ExistingTable
import TinyDb.Security
