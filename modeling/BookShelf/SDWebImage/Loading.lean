import BookShelf.Library.Machine
import Mathlib.Data.Finset.Basic
import Mathlib.Logic.Function.Basic

/-!
# Loading images into views

`sd_setImage(with:)` with no placeholder, no options and no context, on the shared manager as the
app leaves it: no transformer, key filter, delegate, request modifier or decryptor. The main
thread, the cache's serial queue, the session's delegate queue and the coder queue interleave at
the points where one hands over to another; what a thread does in between is one step. Objects are
known by number. A view, its operation and the download it waits for hold each other by number.
-/

namespace BookShelf.SDWebImage

/-- A URL is known by its `absoluteString`, which is also its cache key. -/
abbrev URL := String

/-- The codes of `SDWebImageErrorDomain` that a load can end with. -/
inductive SDWebImageError
  | invalidURL
  | badImageData
  | cacheNotModified
  | blackListed
  | invalidDownloadOperation
  | invalidDownloadStatusCode
  | cancelled
  | invalidDownloadResponse
deriving DecidableEq, Repr

/-- The codes of `NSURLErrorDomain` that the downloader tells apart. -/
inductive NSURLError
  | notConnectedToInternet
  | cancelled
  | timedOut
  | internationalRoamingOff
  | dataNotAllowed
  | cannotFindHost
  | cannotConnectToHost
  | networkConnectionLost
  | other
deriving DecidableEq, Repr

inductive LoadError
  | sdWebImage (code : SDWebImageError)
  | nsURL (code : NSURLError)
  | otherDomain
deriving DecidableEq, Repr

/-- `shouldBlockFailedURLWithURL:error:options:context:` of the downloader. -/
def LoadError.shouldBlockFailedURL : LoadError → Bool
  | .sdWebImage code => decide (code = .invalidURL ∨ code = .badImageData)
  | .nsURL code => decide (code = .other)
  | .otherDomain => false

/-- How image data is decoded, by the cache and by the downloader alike; the downloader also
refuses an image with no pixels. -/
structure Coders (Data Image : Type) where
  decode : URL → Data → Option Image
  isEmpty : Image → Bool

/-- `UIImageView` with what `UIView+WebCache` keeps for it under its one operation key. The
operation is held weakly. -/
structure ImageView (Image : Type) where
  image : Option Image
  imageURL : Option URL
  loadOperation : Option Nat
deriving DecidableEq, Repr

/-- `SDWebImageCombinedOperation`, with the view and the URL that its completion block has
captured. Its cache operation is cancelled with it, so that one flag does for both. -/
structure CombinedOperation where
  view : Nat
  url : URL
  isCancelled : Bool
  loaderOperation : Option Nat
deriving DecidableEq, Repr

/-- How far the threads have come with a download. `reporting` is the time between
`callCompletionBlocksWith…` and `done`. -/
inductive Stage (Data : Type)
  | queued
  | loading
  | decoding (data : Data)
  | reporting
  | ended
deriving DecidableEq, Repr

/-- A download that has not finished `isExecuting` once its stage is past the queue. -/
def Stage.isStarted {Data : Type} : Stage Data → Bool
  | .queued => false
  | .loading | .decoding _ | .reporting | .ended => true

/-- `SDWebImageDownloaderOperation`. A handler is known by the operation that it belongs to, the
response by its status code. -/
structure Download (Data : Type) where
  url : URL
  callbacks : List Nat
  isCancelled : Bool
  isFinished : Bool
  stage : Stage Data
  response : Option Nat
  responseError : Option SDWebImageError
  imageData : Option Data
  completionBlock : Bool
deriving DecidableEq, Repr

/-- What waits in the cache's `ioQueue`. -/
inductive IOTask (Data : Type)
  | query (operation : Nat)
  | store (url : URL) (data : Data)
deriving DecidableEq, Repr

/-- What is dispatched to the main queue. `notification` posts that a download has started, has its
response, has stopped or has finished: only download tokens observe it, to note the response and
the metrics. `stored` is the completion block of `storeImage:`, with nothing to complete. -/
inductive MainTask (Data Image : Type)
  | completion (operation : Nat) (result : Except LoadError Image)
  | queried (operation : Nat) (image : Option Image)
  | downloaded (callbacks : List Nat) (result : Except LoadError (Image × Data))
  | notification
  | stored

/-- `querying` is the query that has passed its check and is reading the disk. `served` and
`failed` are history variables: the data that downloads have brought for a URL, and the URLs for
which an operation that had not been cancelled was told of an error. -/
structure Loading (Data Image : Type) where
  views : Nat → ImageView Image
  operations : Nat → CombinedOperation
  operationCount : Nat
  runningOperations : Finset Nat
  failedURLs : Finset URL
  memoryCache : URL → Option Image
  diskCache : URL → Option Data
  ioQueue : List (IOTask Data)
  querying : Option Nat
  mainQueue : List (MainTask Data Image)
  downloads : Nat → Download Data
  downloadCount : Nat
  urlOperations : URL → Option Nat
  served : List (URL × Data)
  failed : Finset URL

/-- A launch: the disk cache is what earlier launches have left. -/
def Loading.initial (Data Image : Type) (diskCache : URL → Option Data) : Loading Data Image where
  views := fun _ => ⟨none, none, none⟩
  operations := fun _ => ⟨0, "", false, none⟩
  operationCount := 0
  runningOperations := ∅
  failedURLs := ∅
  memoryCache := fun _ => none
  diskCache := diskCache
  ioQueue := []
  querying := none
  mainQueue := []
  downloads := fun _ => ⟨"", [], false, true, .ended, none, none, none, false⟩
  downloadCount := 0
  urlOperations := fun _ => none
  served := []
  failed := ∅

namespace Loading

variable {Data Image : Type}

def updateView (s : Loading Data Image) (v : Nat) (view : ImageView Image) : Loading Data Image :=
  { s with views := Function.update s.views v view }

def updateOperation (s : Loading Data Image) (o : Nat) (operation : CombinedOperation) :
    Loading Data Image :=
  { s with operations := Function.update s.operations o operation }

def updateDownload (s : Loading Data Image) (d : Nat) (download : Download Data) :
    Loading Data Image :=
  { s with downloads := Function.update s.downloads d download }

/-- `dispatch_async` to `ioQueue`. -/
def dispatchIOQueue (s : Loading Data Image) (task : IOTask Data) : Loading Data Image :=
  { s with ioQueue := s.ioQueue ++ [task] }

/-- `dispatch_async` to the main queue. -/
def dispatchMain (s : Loading Data Image) (task : MainTask Data Image) : Loading Data Image :=
  { s with mainQueue := s.mainQueue ++ [task] }

/-! ## The completion blocks -/

/-- The completion block of `sd_internalSetImageWithURL:`, called on the main thread. Without an
image it leaves the view alone. -/
def callCompletionBlock (s : Loading Data Image) (operation : Nat)
    (result : Except LoadError Image) : Loading Data Image :=
  match result with
  | .ok image =>
      let view := (s.operations operation).view
      s.updateView view { s.views view with image := some image }
  | .error _ =>
      if (s.operations operation).isCancelled then s
      else { s with failed := insert (s.operations operation).url s.failed }

def safelyRemoveOperationFromRunning (s : Loading Data Image) (operation : Nat) :
    Loading Data Image :=
  { s with runningOperations := s.runningOperations.erase operation }

/-- `callStoreCacheProcessForOperation:`, and `callTransformProcessForOperation:` without a
transformer. -/
def callStoreCacheProcess (s : Loading Data Image) (operation : Nat) (image : Image)
    (data : Data) : Loading Data Image :=
  let url := (s.operations operation).url
  let s := { s with memoryCache := Function.update s.memoryCache url (some image) }
  (s.dispatchIOQueue (.store url data)).callCompletionBlock operation (.ok image)

/-- The block that `callDownloadProcessForOperation:` gives to the loader. -/
def loaderCompleted (result : Except LoadError (Image × Data)) (s : Loading Data Image)
    (operation : Nat) : Loading Data Image :=
  let s :=
    if (s.operations operation).isCancelled then
      s.callCompletionBlock operation (.error (.sdWebImage .cancelled))
    else
      match result with
      | .error error =>
          let s := s.callCompletionBlock operation (.error error)
          if error ≠ .sdWebImage .cancelled ∧ error.shouldBlockFailedURL = true then
            { s with failedURLs := insert (s.operations operation).url s.failedURLs }
          else s
      | .ok (image, data) => s.callStoreCacheProcess operation image data
  s.safelyRemoveOperationFromRunning operation

/-! ## The downloader -/

/-- `downloadImageWithURL:`: a download of the same URL that still runs gets one more handler. -/
def downloadImage (s : Loading Data Image) (url : URL) (operation : Nat) :
    Loading Data Image × Nat :=
  let fresh : Loading Data Image × Nat :=
    ({ s with
        downloads := Function.update s.downloads s.downloadCount
          ⟨url, [operation], false, false, .queued, none, none, none, true⟩
        downloadCount := s.downloadCount + 1
        urlOperations := Function.update s.urlOperations url (some s.downloadCount) },
      s.downloadCount)
  match s.urlOperations url with
  | none => fresh
  | some d =>
      let download := s.downloads d
      if download.isFinished || download.isCancelled then fresh
      else
        (s.updateDownload d { download with callbacks := download.callbacks ++ [operation] }, d)

/-- `callDownloadProcessForOperation:` -/
def callDownloadProcess (s : Loading Data Image) (operation : Nat) (cachedImage : Option Image) :
    Loading Data Image :=
  match cachedImage with
  | some image =>
      (s.callCompletionBlock operation (.ok image)).safelyRemoveOperationFromRunning operation
  | none =>
      let (s, d) := s.downloadImage (s.operations operation).url operation
      s.updateOperation operation { s.operations operation with loaderOperation := some d }

/-- `cancel` of a download, on the main thread; nothing is left of one that has not been started
until the queue starts it. -/
def cancelDownload (s : Loading Data Image) (d : Nat) : Loading Data Image :=
  let download := s.downloads d
  if download.isFinished then s
  else
    let s := (s.updateDownload d
      { download with isCancelled := true, isFinished := download.stage.isStarted }).dispatchMain
        .notification
    let s := download.callbacks.foldl (loaderCompleted (.error (.sdWebImage .cancelled))) s
    s.updateDownload d { s.downloads d with callbacks := [] }

/-- `cancel:` of a download with the token of one handler. -/
def cancelToken (s : Loading Data Image) (d operation : Nat) : Loading Data Image :=
  let callbacks := (s.downloads d).callbacks.filter (· ≠ operation)
  if callbacks = [] then s.cancelDownload d
  else
    (s.updateDownload d { s.downloads d with callbacks := callbacks }).loaderCompleted
      (.error (.sdWebImage .cancelled)) operation

/-! ## The manager and the view -/

/-- `cancel` of a combined operation. -/
def cancel (s : Loading Data Image) (operation : Nat) : Loading Data Image :=
  if (s.operations operation).isCancelled then s
  else
    let loader := (s.operations operation).loaderOperation
    let s := s.updateOperation operation
      { s.operations operation with isCancelled := true, loaderOperation := none }
    let s := match loader with
      | none => s
      | some d => s.cancelToken d operation
    s.safelyRemoveOperationFromRunning operation

/-- `queryCacheOperationForKey:`: the memory answers at once, the disk in its queue. -/
def queryImage (s : Loading Data Image) (operation : Nat) : Loading Data Image :=
  match s.memoryCache (s.operations operation).url with
  | some image => s.callDownloadProcess operation (some image)
  | none => s.dispatchIOQueue (.query operation)

/-- `loadImageWithURL:`, whose operation gets the next number. -/
def loadImage (s : Loading Data Image) (view : Nat) (url : URL) : Loading Data Image :=
  let operation := s.operationCount
  let s := { s with
    operations := Function.update s.operations operation ⟨view, url, false, none⟩
    operationCount := operation + 1 }
  if url = "" ∨ url ∈ s.failedURLs then
    s.callCompletionBlock operation
      (.error (.sdWebImage (if url ∈ s.failedURLs then .blackListed else .invalidURL)))
  else
    { s with runningOperations := insert operation s.runningOperations }.queryImage operation

/-- `sd_cancelImageLoadOperationWithKey:` -/
def cancelImageLoadOperation (s : Loading Data Image) (view : Nat) : Loading Data Image :=
  match (s.views view).loadOperation with
  | none => s
  | some operation =>
      let s := s.cancel operation
      s.updateView view { s.views view with loadOperation := none }

/-- `sd_setImageLoadOperation:forKey:` -/
def setImageLoadOperation (s : Loading Data Image) (view operation : Nat) :
    Loading Data Image :=
  let s := s.cancelImageLoadOperation view
  s.updateView view { s.views view with loadOperation := some operation }

/-- `sd_setImage(with:)` -/
def setImage (s : Loading Data Image) (view : Nat) (url : Option URL) : Loading Data Image :=
  let s := s.cancelImageLoadOperation view
  let s := s.updateView view { s.views view with imageURL := url, image := none }
  match url with
  | none => s
  | some url => (s.loadImage view url).setImageLoadOperation view s.operationCount

/-! ## What the threads do -/

/-- The completion block of a disk query, on the main thread. -/
def cacheCompleted (s : Loading Data Image) (operation : Nat) (image : Option Image) :
    Loading Data Image :=
  if (s.operations operation).isCancelled then
    (s.callCompletionBlock operation
      (.error (.sdWebImage .cancelled))).safelyRemoveOperationFromRunning operation
  else s.callDownloadProcess operation image

def perform (s : Loading Data Image) : MainTask Data Image → Loading Data Image
  | .completion operation result => s.callCompletionBlock operation result
  | .queried operation image => s.cacheCompleted operation image
  | .downloaded callbacks result => callbacks.foldl (loaderCompleted result) s
  | .notification | .stored => s

/-- The main thread takes up what was dispatched to it first. -/
def runMain (s : Loading Data Image) : Loading Data Image :=
  match s.mainQueue with
  | [] => s
  | task :: rest => { s with mainQueue := rest }.perform task

/-- The next block of `ioQueue` starts; only a query that goes on to the disk is not over at
once. -/
def beginIOTask (s : Loading Data Image) : Loading Data Image :=
  match s.querying, s.ioQueue with
  | none, .store url data :: rest =>
      { s with
        ioQueue := rest
        diskCache := Function.update s.diskCache url (some data) }.dispatchMain .stored
  | none, .query operation :: rest =>
      let s := { s with ioQueue := rest }
      if (s.operations operation).isCancelled then
        (s.dispatchMain (.completion operation
          (.error (.sdWebImage .cancelled)))).safelyRemoveOperationFromRunning operation
      else { s with querying := some operation }
  | _, _ => s

/-- A query reads the disk, keeps the image in memory and answers on the main queue. -/
def endIOTask (coders : Coders Data Image) (s : Loading Data Image) : Loading Data Image :=
  match s.querying with
  | none => s
  | some operation =>
      let url := (s.operations operation).url
      let image := (s.diskCache url).bind (coders.decode url)
      let s := { s with
        querying := none
        memoryCache := image.elim s.memoryCache fun image =>
          Function.update s.memoryCache url (some image) }
      s.dispatchMain (.queried operation image)

/-- `callCompletionBlocksWithImage:imageData:error:finished:` off the main thread. -/
def callCompletionBlocks (s : Loading Data Image) (d : Nat)
    (result : Except LoadError (Image × Data)) : Loading Data Image :=
  s.dispatchMain (.downloaded (s.downloads d).callbacks result)

/-- `start`: one that was cancelled before only finishes. -/
def start (s : Loading Data Image) (d : Nat) : Loading Data Image :=
  let download := s.downloads d
  match download.stage with
  | .queued =>
      if download.isCancelled then
        (s.callCompletionBlocks d (.error (.sdWebImage .cancelled))).updateDownload d
          { download with isFinished := true, callbacks := [], stage := .ended }
      else
        (s.updateDownload d { download with stage := .loading }).dispatchMain .notification
  | _ => s

/-- The session's delegate finds the operation of a task as long as it has not been cancelled. -/
def isReceiving (s : Loading Data Image) (d : Nat) : Bool :=
  match (s.downloads d).stage with
  | .loading => !(s.downloads d).isFinished
  | _ => false

/-- `URLSession:dataTask:didReceiveResponse:completionHandler:`, with no modifier and no cached
data to compare with. -/
def didReceiveResponse (s : Loading Data Image) (d : Nat) (statusCode : Nat) :
    Loading Data Image :=
  if s.isReceiving d then
    let download := s.downloads d
    let responseError :=
      if statusCode = 304 then some .cacheNotModified
      else if 200 ≤ statusCode ∧ statusCode < 400 then download.responseError
      else some .invalidDownloadStatusCode
    (s.updateDownload d { download with response := some statusCode, responseError }).dispatchMain
      .notification
  else s

/-- `URLSession:dataTask:didReceiveData:`, with no progress to tell. -/
def didReceiveData [Append Data] (s : Loading Data Image) (d : Nat) (data : Data) :
    Loading Data Image :=
  if s.isReceiving d then
    let download := s.downloads d
    let imageData := match download.imageData with
      | none => data
      | some received => received ++ data
    s.updateDownload d { download with imageData := some imageData }
  else s

/-- `URLSession:task:didCompleteWithError:` -/
def didComplete (s : Loading Data Image) (d : Nat) (error : Option LoadError) :
    Loading Data Image :=
  let download := s.downloads d
  match download.stage with
  | .loading =>
      if download.isFinished then s.updateDownload d { download with stage := .ended }
      else
        let s := s.dispatchMain .notification
        let reporting := { download with stage := .reporting }
        match error with
        | some error =>
            let error := (download.responseError.map .sdWebImage).getD error
            (s.callCompletionBlocks d (.error error)).updateDownload d reporting
        | none =>
            if download.callbacks = [] then s.updateDownload d reporting
            else
              match download.imageData with
              | none => (s.callCompletionBlocks d
                  (.error (.sdWebImage .badImageData))).updateDownload d reporting
              | some data =>
                  let s := { s with served := s.served ++ [(download.url, data)] }
                  s.updateDownload d { download with stage := .decoding data, imageData := none }
  | _ => s

/-- The block of the coder queue. -/
def didDecode (coders : Coders Data Image) (s : Loading Data Image) (d : Nat) :
    Loading Data Image :=
  let download := s.downloads d
  match download.stage with
  | .decoding data =>
      let result := match coders.decode download.url data with
        | none => .error (.sdWebImage .badImageData)
        | some image =>
            if coders.isEmpty image then .error (.sdWebImage .badImageData)
            else .ok (image, data)
      (s.callCompletionBlocks d result).updateDownload d { download with stage := .reporting }
  | _ => s

/-- `done` -/
def done (s : Loading Data Image) (d : Nat) : Loading Data Image :=
  let download := s.downloads d
  match download.stage with
  | .reporting =>
      s.updateDownload d { download with isFinished := true, callbacks := [], stage := .ended }
  | _ => s

/-- The `completionBlock` of a finished download, called once. It forgets whatever download of
the URL is known by then. -/
def completionBlock (s : Loading Data Image) (d : Nat) : Loading Data Image :=
  let download := s.downloads d
  if download.isFinished && download.completionBlock then
    let s := { s with urlOperations := Function.update s.urlOperations download.url none }
    s.updateDownload d { download with completionBlock := false }
  else s

/-- The view's weak reference is cleared; while the operation runs, the manager holds it. -/
def release (s : Loading Data Image) (view : Nat) : Loading Data Image :=
  match (s.views view).loadOperation with
  | none => s
  | some operation =>
      if operation ∈ s.runningOperations then s
      else s.updateView view { s.views view with loadOperation := none }

end Loading

/-- Apart from `setImage`, which the app calls, each event is a thread that goes on, or a cache
that drops what it holds. -/
inductive LoadEvent (Data : Type)
  | setImage (view : Nat) (url : Option URL)
  | main
  | beginIOTask
  | endIOTask
  | start (download : Nat)
  | didReceiveResponse (download : Nat) (statusCode : Nat)
  | didReceiveData (download : Nat) (data : Data)
  | didComplete (download : Nat) (error : Option LoadError)
  | didDecode (download : Nat)
  | done (download : Nat)
  | completionBlock (download : Nat)
  | release (view : Nat)
  | removeFromMemory (url : URL)
  | removeFromDisk (url : URL)

def LoadEvent.isSetImage {Data : Type} : LoadEvent Data → Bool
  | .setImage _ _ => true
  | _ => false

/-- An event that finds nothing to do changes nothing. -/
def loadingMachine {Data Image : Type} [Append Data] (coders : Coders Data Image) :
    Machine (Loading Data Image) (LoadEvent Data) Empty where
  step s
    | .setImage view url => .ok (s.setImage view url)
    | .main => .ok s.runMain
    | .beginIOTask => .ok s.beginIOTask
    | .endIOTask => .ok (s.endIOTask coders)
    | .start d => .ok (s.start d)
    | .didReceiveResponse d statusCode => .ok (s.didReceiveResponse d statusCode)
    | .didReceiveData d data => .ok (s.didReceiveData d data)
    | .didComplete d error => .ok (s.didComplete d error)
    | .didDecode d => .ok (s.didDecode coders d)
    | .done d => .ok (s.done d)
    | .completionBlock d => .ok (s.completionBlock d)
    | .release view => .ok (s.release view)
    | .removeFromMemory url =>
        .ok { s with memoryCache := Function.update s.memoryCache url none }
    | .removeFromDisk url =>
        .ok { s with diskCache := Function.update s.diskCache url none }

end BookShelf.SDWebImage
