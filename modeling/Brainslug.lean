import Brainslug.OfferStore
import Brainslug.AssocUpdate
import Brainslug.StepTrace
import Brainslug.SqlText
import Brainslug.SqlTables
import Brainslug.Elements
import Brainslug.DB
import Brainslug.SQLiteDB
import Brainslug.SQLiteDelivery
import Brainslug.SQLiteOutcome
import Brainslug.Http
import Brainslug.ResourceHandler
import Brainslug.Resources
import Brainslug.ListedDocument
import Brainslug.FrontendServer
import Brainslug.Dispatch
import Brainslug.Answering
import Brainslug.Sanitizer
import Brainslug.ViewFilter
import Brainslug.StatementText
import Brainslug.Library
import Brainslug.SqlEngine
import Brainslug.StartUp
import Brainslug.Integrity
import Brainslug.Navigation
import Brainslug.AbortingFilter
import Brainslug.TestDB
import Brainslug.StoredDocument
import Brainslug.MainPane
import Brainslug.Screen
import Brainslug.OrderWalk
import Brainslug.MenuButton
import Brainslug.Cursor
import Brainslug.JsonText
import Brainslug.JsonScan
import Brainslug.JsonReader
import Brainslug.JsonGrammar
import Brainslug.JsonFailure
import Brainslug.JsonRoundTrip
import Brainslug.SavedDocument
import Brainslug.ViewStatement
import Brainslug.Serving
import Brainslug.ServerRun
import Brainslug.ResponseText
import Brainslug.QueryString
import Brainslug.ReadMachine
import Brainslug.Multimap
import Brainslug.HttpParser
import Brainslug.HttpHeads
import Brainslug.HttpSending
import Brainslug.HttpContent
import Brainslug.HttpMessages
import Brainslug.HttpExchange
