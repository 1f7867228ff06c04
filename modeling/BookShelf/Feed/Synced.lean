import BookShelf.Firestore.AppQueries
import BookShelf.Firestore.Serving
import BookShelf.Listeners.Posts

/-!
# The post lists over the client

The listeners of the feed and of the profile are called with the events of the Firestore client.
Once they have been called with all of them, the lists show the matches of the local store as they
are now, in order.
-/

namespace BookShelf

/-- What a controller reads. A pending time reads like null, which the controllers cannot tell
from a missing field. -/
def readValue : Firestore.FieldValue → Option FieldValue
  | .null => none
  | .boolean b => some (.number b.toNat)
  | .integer n => some (.number n)
  | .timestamp t => some (.timestamp t)
  | .serverTimestamp _ => none
  | .string s => some (.string s)

/-- The document of a snapshot as a controller reads it. -/
def readDocument (content : Firestore.DocumentKey × Firestore.ObjectValue) : Document where
  documentID := content.1.getLast?.getD ""
  data := content.2.filterMap fun (field, value) => (readValue value).map fun v => (field, v)

/-- The event of the client, as it reaches a listener of a controller. -/
def snapshotEvent {q : Firestore.Query} (snapshot : Firestore.ViewSnapshot q) :
    SnapshotEvent :=
  .snapshot (snapshot.documents.contents.map readDocument)

/-- `FeedVC.getDatas` listens to the posts, newest first. -/
def FeedVC.postsQuery : Firestore.Query :=
  orderByDescendingQuery "Post" "date"

/-- `ProfileVC.getDatas` listens to the posts of one account. -/
def ProfileVC.postsQuery (email : String) : Firestore.Query :=
  whereFieldQuery "Post" "email" email

/-- The list of the feed after all the events of its listener. -/
def FeedVC.shownBy {q : Firestore.Query} (l : Firestore.QueryListener q) : FeedVC.PostList :=
  (l.delivered.map snapshotEvent).foldl FeedVC.getDatas .initial

def ProfileVC.shownBy {q : Firestore.Query} (l : Firestore.QueryListener q) :
    ProfileVC.PostGrid :=
  (l.delivered.map snapshotEvent).foldl ProfileVC.getDatas .initial

namespace Firestore

variable {q : Query}

theorem contents_eq_of_known {set set' : DocumentSet q} (h : set.known = set'.known) :
    set.contents = set'.contents := by
  have hperm : set.contents.Perm set'.contents := by
    refine Keyed.perm_of_lookup set.distinct_contents set'.distinct_contents ?_
    intro k
    rw [DocumentSet.lookup_contents, DocumentSet.lookup_contents]
    exact congrFun h k
  have hbefore (set : DocumentSet q) : set.contents.Pairwise (CountsBefore q .first) := by
    rw [DocumentSet.contents, List.pairwise_map]
    refine set.sorted.imp ?_
    intro a b hab
    exact (compare_bare q a b).trans hab
  refine hperm.eq_of_pairwise ?_ (hbefore set) (hbefore set')
  intro a b _ _ hab hba
  exact absurd hba hab.asymm

/-- A view without a limit that follows a store with nothing left for Watch to send shows the
results of its query. -/
theorem Tracks.contents_eq_results {store : LocalDocuments} {view : View q}
    (h : Tracks store view) (hlimit : q.limit = none)
    (hsettled : ∀ n ∈ store.docs, n.hasCommittedMutations = false) :
    view.documentSet.contents = (q.results store.docs).map Document.content := by
  apply Firestore.contents_eq_results
  unfold Answers
  rw [hlimit]
  refine Keyed.perm_of_lookup view.documentSet.distinct_contents store.distinct_contents ?_
  intro k
  rw [DocumentSet.lookup_contents, LocalDocuments.lookup_contents]
  cases ho : view.documentSet.getDocument k with
  | none =>
      cases hn : (store.get k).filter q.matchesDocument with
      | none => rfl
      | some n =>
          obtain ⟨hget, hmatch⟩ := Option.filter_eq_some_iff.mp hn
          exact absurd ho (h.covers hlimit k n hget hmatch)
  | some o =>
      obtain ⟨-, n, hn, hmatch, hkeeps⟩ := h.backs k o ho
      have hdata : o.data = n.data := by
        rcases hkeeps with hdata | hwait
        · exact hdata
        · rw [shouldWaitForSyncedDocument, hsettled n (Keyed.mem_of_lookup hn)] at hwait
          simp at hwait
      have hkey : o.key = n.key :=
        (DocumentSet.key_of_getDocument ho).trans (Keyed.key_of_lookup hn).symm
      rw [hn, Option.filter_some_pos hmatch, Option.map_some, Option.map_some, Document.content,
        Document.content, hkey, hdata]

/-- The last event of a listener that asks for no delay has the results of its query, when there
are any. -/
theorem last_event_of_run {store : LocalDocuments} {es : List ClientEvent} {c : Client}
    {key : Query} {info : QueryListenersInfo key} {l : QueryListener key}
    (hrun : clientMachine.run (.initial store) es = .ok c)
    (hfind : q.findIn c.queries = some key) (hinfo : c.queries.lookup key = some info)
    (hl : l ∈ info.listeners) (hlimit : q.limit = none)
    (hoptions : l.options.waitForSyncWhenOnline = false)
    (hsettled : ∀ n ∈ c.store.docs, n.hasCommittedMutations = false)
    (hsome : q.results c.store.docs ≠ []) :
    ∃ earlier event, l.delivered = earlier ++ [event] ∧
      event.documents.contents = (q.results c.store.docs).map Document.content := by
  have hinv := inv_of_run hrun
  obtain ⟨hkey, hequals⟩ := findIn_eq_some hfind
  rw [Query.limit_of_equals hequals] at hlimit
  rw [Query.results_of_equals hequals] at hsome ⊢
  obtain ⟨view, hview⟩ := Option.isSome_iff_exists.mp
    (AList.lookup_isSome.mpr ((hinv.same key).mpr hkey))
  obtain ⟨htracks, snapshot, hheard⟩ := hinv.served key view info hview hinfo
  obtain ⟨-, hlistener⟩ := hheard.heard l hl
  have hresults := htracks.contents_eq_results hlimit hsettled
  have hshows := contents_eq_of_known hheard.shows
  cases hraised : l.raisedInitialEvent with
  | true =>
      obtain ⟨-, event, hlast, hknown⟩ := hlistener.told hraised
      obtain ⟨earlier, hdelivered⟩ := List.getLast?_eq_some_iff.mp hlast
      exact ⟨earlier, event, hdelivered,
        (contents_eq_of_known hknown).trans (hshows.trans hresults)⟩
  | false =>
      obtain ⟨-, -, -, hnothing⟩ := hlistener.waits hraised
      rcases hnothing with hwait | hempty
      · rw [hoptions] at hwait
        cases hwait
      · refine absurd ?_ hsome
        rw [DocumentSet.contents, hempty, hresults, List.map_nil] at hshows
        exact List.map_eq_nil_iff.mp hshows.symm

end Firestore

open Firestore in
/-- In every run of the client, when nothing acknowledged is missing and there are posts, the feed
and the profile show all of them, in the order of their queries. -/
theorem post_lists_show_local_store {store : LocalDocuments} {es : List ClientEvent} {c : Client}
    {email : String} {feedKey profileKey : Query} {feedInfo : QueryListenersInfo feedKey}
    {profileInfo : QueryListenersInfo profileKey} {feed : QueryListener feedKey}
    {profile : QueryListener profileKey}
    (hrun : clientMachine.run (.initial store) es = .ok c)
    (hsettled : ∀ n ∈ c.store.docs, n.hasCommittedMutations = false)
    (hfeedKey : FeedVC.postsQuery.findIn c.queries = some feedKey)
    (hfeedInfo : c.queries.lookup feedKey = some feedInfo)
    (hfeed : feed ∈ feedInfo.listeners ∧ feed.options = .defaultOptions)
    (hprofileKey : (ProfileVC.postsQuery email).findIn c.queries = some profileKey)
    (hprofileInfo : c.queries.lookup profileKey = some profileInfo)
    (hprofile : profile ∈ profileInfo.listeners ∧ profile.options = .defaultOptions) :
    (FeedVC.postsQuery.results c.store.docs ≠ [] →
      (FeedVC.shownBy feed).postArray =
        ((FeedVC.postsQuery.results c.store.docs).map fun d => readDocument d.content).filterMap
          FeedVC.decodePost) ∧
    ((ProfileVC.postsQuery email).results c.store.docs ≠ [] →
      (ProfileVC.shownBy profile).userPosts =
        (((ProfileVC.postsQuery email).results c.store.docs).map fun d =>
          readDocument d.content).filterMap ProfileVC.decodePost) := by
  constructor
  · intro hsome
    obtain ⟨earlier, event, hdelivered, hcontents⟩ := last_event_of_run hrun hfeedKey hfeedInfo
      hfeed.1 rfl (by rw [hfeed.2]; rfl) hsettled hsome
    rw [FeedVC.shownBy, hdelivered, List.map_append, List.foldl_append, List.map_singleton,
      List.foldl_cons, List.foldl_nil, snapshotEvent, FeedVC.getDatas_snapshot, hcontents,
      LogReader.read, if_neg (by simpa using hsome), List.map_map]
    rfl
  · intro hsome
    obtain ⟨earlier, event, hdelivered, hcontents⟩ := last_event_of_run hrun hprofileKey
      hprofileInfo hprofile.1 rfl (by rw [hprofile.2]; rfl) hsettled hsome
    rw [ProfileVC.shownBy, hdelivered, List.map_append, List.foldl_append, List.map_singleton,
      List.foldl_cons, List.foldl_nil, snapshotEvent, ProfileVC.getDatas_snapshot, hcontents,
      LogReader.read, if_neg (by simpa using hsome), List.map_map]
    rfl

/-- Two stored posts. -/
def storedPosts : Firestore.LocalDocuments where
  docs :=
    [⟨["Post", "a"], [("caption", .string "A"), ("date", .timestamp 1), ("email", .string "e"),
        ("imageUrl", .string "u")], 1, .synced⟩,
      ⟨["Post", "b"], [("caption", .string "B"), ("date", .timestamp 2), ("email", .string "f"),
        ("imageUrl", .string "v")], 2, .synced⟩]
  distinct := by decide

/-- Both lists are opened, and the older post is deleted and written again. -/
def listsOpened : List Firestore.ClientEvent :=
  [.addListener FeedVC.postsQuery .defaultOptions ∅,
    .addListener (ProfileVC.postsQuery "f") .defaultOptions ∅,
    .changes ⟨[.noDocument ["Post", "a"] 3 false], by decide⟩ (fun _ => none) (fun _ => none)
      (fun _ => 0),
    .changes ⟨[.document ⟨["Post", "a"], [("caption", .string "C"), ("date", .serverTimestamp 4),
      ("email", .string "e"), ("imageUrl", .string "u")], 3, .localMutations⟩], by decide⟩
      (fun _ => none) (fun _ => none) (fun _ => 0)]

open Firestore in
theorem post_lists_show_local_store_opened :
    ∃ c feedInfo feed, clientMachine.run (.initial storedPosts) listsOpened = .ok c ∧
      c.queries.lookup FeedVC.postsQuery = some feedInfo ∧ feed ∈ feedInfo.listeners ∧
      (FeedVC.shownBy feed).postArray =
        ((FeedVC.postsQuery.results c.store.docs).map fun d => readDocument d.content).filterMap
          FeedVC.decodePost := by
  have hruns : (clientMachine.run (.initial storedPosts) listsOpened).toOption.any (fun c =>
      decide (FeedVC.postsQuery.findIn c.queries = some FeedVC.postsQuery) &&
      decide ((ProfileVC.postsQuery "f").findIn c.queries = some (ProfileVC.postsQuery "f")) &&
      (c.queries.lookup FeedVC.postsQuery).any fun feedInfo =>
        (c.queries.lookup (ProfileVC.postsQuery "f")).any fun profileInfo =>
          feedInfo.listeners.any (fun l => decide (l.options = .defaultOptions)) &&
            profileInfo.listeners.any (fun l => decide (l.options = .defaultOptions)) &&
            decide (∀ n ∈ c.store.docs, n.hasCommittedMutations = false) &&
            decide (FeedVC.postsQuery.results c.store.docs ≠ [])) = true := by
    decide
  simp only [Option.any_eq_true, Bool.and_eq_true, List.any_eq_true, decide_eq_true_eq] at hruns
  obtain ⟨c, hc, ⟨hfeedKey, hprofileKey⟩, feedInfo, hfeedInfo, profileInfo, hprofileInfo,
    ⟨⟨⟨feed, hfeed⟩, ⟨profile, hprofile⟩⟩, hsettled⟩, hsome⟩ := hruns
  have hrun : clientMachine.run (.initial storedPosts) listsOpened = .ok c := by
    cases hends : clientMachine.run (.initial storedPosts) listsOpened with
    | error fail => simp [hends, Except.toOption] at hc
    | ok c' => simpa [hends, Except.toOption] using hc
  exact ⟨c, feedInfo, feed, hrun, hfeedInfo, hfeed.1, (post_lists_show_local_store hrun
    hsettled hfeedKey hfeedInfo hfeed hprofileKey hprofileInfo hprofile).1 hsome⟩

end BookShelf
