import NewsDay.Models.Transfer
import NewsDay.Network.AsyncRequestContract
import NewsDay.Network.NewsApiCache
import NewsDay.Network.NewsApiDownloads
import NewsDay.Network.WatchClient
import NewsDay.Network.WatchProtocol
import NewsDay.Network.AsyncRequestFields
import NewsDay.Network.MainQueueCalls
import NewsDay.Process.Phone
import NewsDay.Models.Restoring
import NewsDay.Network.WatchReplies
import NewsDay.Process.PhoneSteps
import NewsDay.Process.PhoneNews
import NewsDay.Process.PhoneMessages
import NewsDay.Process.PhoneReplies
import NewsDay.Process.Watch
import NewsDay.Process.WatchMessages
import NewsDay.Network.WatchExchange
import NewsDay.Process.Agreement
import NewsDay.Library.Grouping
import NewsDay.Models.Categories
import NewsDay.Library.QueryString
import NewsDay.Network.ImageSize
import NewsDay.Network.NewsApiQueries
import NewsDay.Library.FirstFault
import NewsDay.Models.Faults
import NewsDay.Models.Unarchiving
import NewsDay.Process.WatchSending
import NewsDay.Network.WatchAnswers
import NewsDay.Process.WatchSettling
import NewsDay.Process.SingleFlight
import NewsDay.Library.Regex
import NewsDay.Library.TextUnits
import NewsDay.Utilities.AuthUtils
import NewsDay.Utilities.EmailAddresses
import NewsDay.Network.NewsApiResponses
import NewsDay.Network.Delivery
import NewsDay.Controllers.ArticleViewBase
import NewsDay.Network.ImageFromPhone
import NewsDay.WatchKit.HeadlinePages
import NewsDay.Cells.ArticleTableViewCell
import NewsDay.Controllers.Navigation
import NewsDay.Process.PhoneDownloads
import NewsDay.Process.Provenance
import NewsDay.Network.MainQueueRest
import NewsDay.Process.Stopping
import NewsDay.Process.Rest
import NewsDay.Process.Telling
import NewsDay.Network.AsyncRequestLater
import NewsDay.Process.Holding
import NewsDay.WatchKit.Shown
import NewsDay.WatchKit.CarouselShown
import NewsDay.Process.Refinement
import NewsDay.Controllers.Authentication
import NewsDay.Controllers.SourcesTables
import NewsDay.WatchKit.CarouselPictures
import NewsDay.WatchKit.PicturesShown
