import GoogleCalendar.Library.SortedEntries
import GoogleCalendar.Library.FoldedEntries
import GoogleCalendar.Library.CivilTime
import GoogleCalendar.Library.Rfc3339
import GoogleCalendar.Library.Radix64
import GoogleCalendar.Library.PercentText
import GoogleCalendar.Library.Utf8
import GoogleCalendar.Library.BoundedRetry
import GoogleCalendar.Library.Pieces
import GoogleCalendar.Library.CellEdits
import GoogleCalendar.Library.ReadModifyWrite
import GoogleCalendar.Library.Traces
import GoogleCalendar.Library.CursorScan
import GoogleCalendar.Library.KeyedTable
import GoogleCalendar.Library.CursorChanges
import GoogleCalendar.Library.Processes
import GoogleCalendar.Library.Costs
import GoogleCalendar.Library.CriticalSections
import GoogleCalendar.Library.SharedScan
import GoogleCalendar.Library.Reruns
import GoogleCalendar.Json
import GoogleCalendar.Engine
import GoogleCalendar.EventMapping
import GoogleCalendar.EventSchema
import GoogleCalendar.Transport
import GoogleCalendar.Client
import GoogleCalendar.Exchanges
import GoogleCalendar.CalendarScan
import GoogleCalendar.ScanPages
import GoogleCalendar.ScanPushdown
import GoogleCalendar.CalendarUpdate
import GoogleCalendar.ColumnCells
import GoogleCalendar.CalendarInsert
import GoogleCalendar.RowBody
import GoogleCalendar.InsertRetries
import GoogleCalendar.CalendarDelete
import GoogleCalendar.Sessions
import GoogleCalendar.LostUpdates
import GoogleCalendar.DisjointStatements
import GoogleCalendar.ConcurrentInserts
import GoogleCalendar.CalendarCatalog
import GoogleCalendar.DeleteRetries
import GoogleCalendar.CatalogRuns
import GoogleCalendar.DropSafety
import GoogleCalendar.MountedTables
import GoogleCalendar.CalendarAttach
import GoogleCalendar.AttachedNames
import GoogleCalendar.EventListing
import GoogleCalendar.UpdateStatement
import GoogleCalendar.TimeNodes
import GoogleCalendar.EventTimes
import GoogleCalendar.WrittenTimes
import GoogleCalendar.AttachWindow
import GoogleCalendar.WindowHints
import GoogleCalendar.AllDayFlips
import GoogleCalendar.ColumnReads
import GoogleCalendar.WriteBack
import GoogleCalendar.RowRoundTrip
import GoogleCalendar.UpdateFrame
import GoogleCalendar.SentBodies
import GoogleCalendar.UpdateReturning
import GoogleCalendar.PlainUpdate
import GoogleCalendar.UpdateOnce
import GoogleCalendar.SharedListing
import GoogleCalendar.DeleteStatement
import GoogleCalendar.CalendarTable
import GoogleCalendar.StatementFrames
import GoogleCalendar.Library.NamedTables
import GoogleCalendar.CopiedCalendar
import GoogleCalendar.AttachedDatabase
import GoogleCalendar.StatementEnds
import GoogleCalendar.UpdateReruns
import GoogleCalendar.ShownRows
import GoogleCalendar.OAuthFlow
import GoogleCalendar.OAuthCapture
import GoogleCalendar.StatementCosts
import GoogleCalendar.OAuthProvider
import GoogleCalendar.Library.Histories
import GoogleCalendar.OAuthRuns
import GoogleCalendar.ConsentPage
import GoogleCalendar.Encoding
import GoogleCalendar.ServiceAccountAuth
import GoogleCalendar.CalendarTransaction
import GoogleCalendar.ClientConstruction
import GoogleCalendar.BakedToken
import GoogleCalendar.TokenEncoding
import GoogleCalendar.RetryStops
import GoogleCalendar.ReturnedRows
import GoogleCalendar.ProxyConfig
import GoogleCalendar.ProxyGrammar
import GoogleCalendar.HttpLibClient
import GoogleCalendar.RequestTargets
