import DbHandler.Foundation.Runs
import DbHandler.Foundation.Places
import DbHandler.Foundation.Faults
import DbHandler.Foundation.OrderedMap
import DbHandler.AlterTable.Contract
import DbHandler.AlterTable.KeyMap
import DbHandler.AlterTable.KeyRuns
import DbHandler.AlterTable.WellFormed
import DbHandler.AlterTable.Failures
import DbHandler.TableProperties.Agreement
import DbHandler.Sqlite.Polling
import DbHandler.Sqlite.PollingRuns
import DbHandler.Lifecycle.Safety
import DbHandler.QueryBuilder.Conservation
import DbHandler.QueryBuilder.ClauseRuns
import DbHandler.QueryBuilder.SelectListRuns
import DbHandler.Foundation.Journal
import DbHandler.Foundation.Encoding
import DbHandler.Sqlite.Indexes
import DbHandler.Sqlite.ForeignKeys
import DbHandler.Postgres.Indexes
import DbHandler.MySQL.Indexes
import DbHandler.Odbc.Indexes
import DbHandler.Indexes.CreateIfAbsent
import DbHandler.Sqlite.FieldProperties
import DbHandler.Postgres.FieldProperties
import DbHandler.MySQL.FieldProperties
import DbHandler.Odbc.FieldProperties
import DbHandler.Odbc.ForeignKeys
import DbHandler.Odbc.SystemObjects
import DbHandler.SystemObjects.OdbcConsistency
import DbHandler.SystemObjects.OdbcTruth
import DbHandler.FieldProperties.Upsert
import DbHandler.SystemObjects.Objects
import DbHandler.Postgres.SystemObjects
import DbHandler.MySQL.SystemObjects
import DbHandler.SystemObjects.PostgresTruth
import DbHandler.SystemObjects.MySQLTruth
import DbHandler.SystemObjects.Truth
import DbHandler.TableData.Retrieval
import DbHandler.Sqlite.TableData
import DbHandler.Odbc.TableData
import DbHandler.TableData.Fidelity
import DbHandler.Diagram.ForeignKeys
import DbHandler.ForeignKeys.OdbcLoading
import DbHandler.Sqlite.Tables
import DbHandler.ForeignKeys.SqliteLoading
import DbHandler.Postgres.Tables
import DbHandler.ForeignKeys.PostgresLoading
import DbHandler.Columns.PostgresLoading
import DbHandler.Sqlite.TableProperties
import DbHandler.LogOnly
import DbHandler.Postgres.TableProperties
import DbHandler.MySQL.TableProperties
import DbHandler.Odbc.TableProperties
import DbHandler.TableProperties.RoundTrip
import DbHandler.Catalog.Objects
import DbHandler.Catalog.Removal
import DbHandler.Catalog.OdbcPolling
import DbHandler.Catalog.SqlServerEvents
import DbHandler.PropertyLiterals
import DbHandler.Foundation.Comparison
import DbHandler.ServerVersion
import DbHandler.Foundation.Separators
import DbHandler.Foundation.Decimal
import DbHandler.Connections.Wizard
import DbHandler.Connections.MySQL
import DbHandler.Connections.MySQLRoundTrip
import DbHandler.Connections.Postgres
import DbHandler.Foundation.Attributes
import DbHandler.Connections.PostgresRoundTrip
import DbHandler.Connections.Odbc
import DbHandler.Connections.OdbcRoundTrip
import DbHandler.QueryBuilder.Rendering
import DbHandler.QueryBuilder.Directions
import DbHandler.QueryBuilder.Closing
import DbHandler.Odbc.TableList
import DbHandler.Catalog.MySQLLoading
import DbHandler.Sqlite.Transactions
import DbHandler.Transactions
import DbHandler.Columns.SqliteLoading
import DbHandler.Diagram.TableGrid
import DbHandler.Diagram.TableParts
import DbHandler.PropertyPages
import DbHandler.Sqlite.NullSafety
import DbHandler.Foundation.Sql.Parentheses
import DbHandler.Sqlite.SchemaText
import DbHandler.Sqlite.LoggedSchema
import DbHandler.Diagram.DisplayedTables
import DbHandler.TableData.EditView
import DbHandler.TableData.RowDelivery
import DbHandler.Sqlite.ForeignKeyText
import DbHandler.Foundation.Resources
import DbHandler.Sqlite.Statements
import DbHandler.Sqlite.StatementOperations
import DbHandler.Sqlite.StatementRuns
import DbHandler.Sqlite.ForeignKeyClauses
import DbHandler.Sqlite.PreparedLengths
import DbHandler.Sqlite.SchemaKeys
import DbHandler.Sqlite.WrittenKeys
import DbHandler.Sqlite.KeyRuns
import DbHandler.FieldProperties.Lookup
import DbHandler.Connections.MySQLTokens
import DbHandler.Sqlite.CreationSyntax
import DbHandler.Foundation.Fetching
import DbHandler.Catalog.FetchLoops
import DbHandler.Odbc.DataSources
import DbHandler.Odbc.DriverLookup
import DbHandler.Odbc.DriverList
import DbHandler.Catalog.SqlServerParsing
import DbHandler.Columns.OdbcLoading
import DbHandler.Odbc.NameBuffers
import DbHandler.Dialogs.RetrievalArguments
import DbHandler.QueryBuilder.SortableFields
import DbHandler.QueryBuilder.OriginalPlaces
import DbHandler.Diagram.DropTable
import DbHandler.Foundation.Replacement
import DbHandler.QueryBuilder.FieldShuffle
import DbHandler.QueryBuilder.FromList
import DbHandler.QueryBuilder.SortRemoval
import DbHandler.QueryBuilder.JoinSigns
import DbHandler.QueryBuilder.OuterJoins
import DbHandler.QueryBuilder.WhereConditions
import DbHandler.QueryBuilder.WhereLines
import DbHandler.TableData.DataEditField
import DbHandler.TableData.DisplayedCells
import DbHandler.Foundation.Rectangles
import DbHandler.Foundation.Cursors
import DbHandler.Foundation.Marks
import DbHandler.Foundation.Neighbours
import DbHandler.FieldsWindow.Dragging
import DbHandler.Dialogs.CreateIndex
import DbHandler.Dialogs.QuickSelectSorting
import DbHandler.Foundation.RowMajor
import DbHandler.Diagram.CellLayout
import DbHandler.Odbc.StringHelpers
import DbHandler.Diagram.DesignLayout
import DbHandler.Shapes.Positions
import DbHandler.Shapes.Loading
import DbHandler.Shapes.Reloading
import DbHandler.Shapes.Canvas
import DbHandler.Threads.Interleavings
