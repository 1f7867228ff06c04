import BookShelf.Library.Machine
import BookShelf.Library.Presentation
import BookShelf.Library.Requests
import BookShelf.Library.Overwrite
import BookShelf.Library.InBand
import BookShelf.Library.LogReader
import BookShelf.Library.RowSource
import BookShelf.Library.URL
import BookShelf.Library.FormQuery
import BookShelf.Library.Keyed
import BookShelf.Library.Limit
import BookShelf.Library.DependentMap
import BookShelf.Firestore.Document
import BookShelf.Listeners.Posts
import BookShelf.Listeners.Users
import BookShelf.Listeners.Mirror
import BookShelf.Feed.Table
import BookShelf.Feed.Attribution
import BookShelf.Feed.Captures
import BookShelf.Listeners.Rows
import BookShelf.Browser.Page
import BookShelf.Browser.Search
import BookShelf.Browser.AddressBar
import BookShelf.App.Screens
import BookShelf.App.Requests
import BookShelf.App.State
import BookShelf.App.Session
import BookShelf.App.Publishing
import BookShelf.App.Machine
import BookShelf.App.Lifecycle
import BookShelf.App.Effects
import BookShelf.App.Firebase
import BookShelf.Session.Chain
import BookShelf.Session.Placed
import BookShelf.Session.Gate
import BookShelf.Session.Profile
import BookShelf.Session.Segues
import BookShelf.Session.PileUp
import BookShelf.Session.Controls
import BookShelf.Session.Taps
import BookShelf.Session.Records
import BookShelf.Session.SignUp
import BookShelf.Publish.Steps
import BookShelf.Publish.Objects
import BookShelf.Publish.Images
import BookShelf.Publish.Orphans
import BookShelf.Publish.Snapshot
import BookShelf.Publish.SessionLoss
import BookShelf.Publish.OneProfile
import BookShelf.Publish.ReadYourWrites
import BookShelf.Publish.Identity
import BookShelf.Publish.FailedShare
import BookShelf.Publish.Caption
import BookShelf.Publish.Compose
import BookShelf.Session.FirstProfile
import BookShelf.Feed.Agreement
import BookShelf.Firestore.Value
import BookShelf.Firestore.Query
import BookShelf.Firestore.DocumentSet
import BookShelf.Firestore.ChangeSet
import BookShelf.Firestore.View
import BookShelf.Firestore.Pass
import BookShelf.Firestore.Emit
import BookShelf.Firestore.Tracks
import BookShelf.Firestore.Apply
import BookShelf.Firestore.Results
import BookShelf.Firestore.Snapshots
import BookShelf.Firestore.QueryListener
import BookShelf.Firestore.Target
import BookShelf.Firestore.Limbo
import BookShelf.Firestore.Client
import BookShelf.Firestore.Resolutions
import BookShelf.Firestore.Serving
import BookShelf.Firestore.AppQueries
import BookShelf.Feed.Synced
import BookShelf.Library.Potential
import BookShelf.SDWebImage.Loading
import BookShelf.SDWebImage.Control
import BookShelf.SDWebImage.Cancelling
import BookShelf.SDWebImage.Steps
import BookShelf.SDWebImage.Shown
import BookShelf.SDWebImage.Quiet
import BookShelf.SDWebImage.Progress
import BookShelf.Feed.Pictures
