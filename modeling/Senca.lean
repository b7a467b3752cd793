import Senca.ArxivRequests
import Senca.BrowserRuntime
import Senca.CalendarText
import Senca.CardDates
import Senca.CardKeys
import Senca.CarriedValues
import Senca.CollectorFaults
import Senca.CollectorRanking
import Senca.ConsistentSort
import Senca.DateOrder
import Senca.Deployment
import Senca.DerivedView
import Senca.FaultLoops
import Senca.FirstOccurrences
import Senca.FormEncoding
import Senca.GrowingLogs
import Senca.HubCollectors
import Senca.InterleavedClients
import Senca.ItemReadings
import Senca.JsonText
import Senca.JsonValue
import Senca.KeywordFiles
import Senca.KeywordHarvest
import Senca.KeywordSources
import Senca.MatchScanning
import Senca.MongooseStore
import Senca.PageLoading
import Senca.PageSearch
import Senca.PodcastRanking
import Senca.PythonCase
import Senca.PythonOrder
import Senca.PythonRuntime
import Senca.PythonText
import Senca.RecencyWindow
import Senca.ResourceCards
import Senca.RetryAccounting
import Senca.RetryNetwork
import Senca.RetryProtocol
import Senca.ScrapedScreens
import Senca.ScraperClients
import Senca.ScraperCollectors
import Senca.ScraperRounds
import Senca.ScraperRuns
import Senca.ScreenOrder
import Senca.ServerRoutes
import Senca.StableRanking
import Senca.StoreDelivery
import Senca.StoreFunctions
import Senca.StoredSearch
import Senca.SummaryTags
import Senca.TextClients
import Senca.TextScanning
import Senca.ToolHarvest
import Senca.ToolSections
import Senca.TracedCalls
import Senca.TweetQueries
import Senca.VideoRanking
import Senca.WireFormat
import Senca.WordCounts
import Senca.YoutubeFilters
import Senca.YoutubeSelection
import Senca.YoutubeVideos
