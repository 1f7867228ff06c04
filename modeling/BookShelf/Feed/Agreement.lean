import BookShelf.Listeners.Posts
import BookShelf.Publish.Objects
import Mathlib.Data.Multiset.Filter

/-!
# Feed and profile on the same posts

The `Post` collection as a log of shares, with the two listeners that read it: the feed takes
every post, newest first, and the profile takes those of one account, by id.
-/

namespace BookShelf

/-- One document that `CreateVC.shareBtnPressed` added. -/
structure Share where
  imageURL : String
  caption : String
  email : String
  stamp : Stamp
deriving DecidableEq, Repr

def Share.document (share : Share) : Document :=
  .accepted (firestorePost share.imageURL share.caption share.email) share.stamp

/-- `feedSeen` and `profileSeen` are history variables: how many posts there were at the last
successful snapshot of the listener, if any. -/
structure PostReaders where
  shares : List Share
  feed : FeedVC.PostList
  profile : ProfileVC.PostGrid
  feedSeen : Option Nat
  profileSeen : Option Nat

def PostReaders.initial : PostReaders where
  shares := []
  feed := .initial
  profile := .initial
  feedSeen := none
  profileSeen := none

/-- A call of a listener; a snapshot comprises the first `count` posts. -/
inductive PostCall
  | error
  | nilSnapshot
  | snapshot (count : Nat)
deriving DecidableEq, Repr

inductive PostEvent
  | share (share : Share)
  | feed (call : PostCall)
  | profile (call : PostCall)
deriving DecidableEq, Repr

/-- What `FeedVC.getDatas` asks for. -/
def feedQuery (shares : List Share) : List Document :=
  orderByDescending "date" (shares.map Share.document)

/-- What `ProfileVC.getDatas` asks for. -/
def profileQuery (account : String) (shares : List Share) : List Document :=
  whereField "email" account (shares.map Share.document)

namespace PostReaders

/-- The id of a new document is new. -/
def share (s : PostReaders) (new : Share) : PostReaders :=
  if ∃ old ∈ s.shares, old.stamp.documentID = new.stamp.documentID then s
  else { s with shares := s.shares ++ [new] }

/-- A listener gets snapshots of what there is, and never goes back to an earlier one. -/
def Offers (s : PostReaders) (seen : Option Nat) (count : Nat) : Prop :=
  count ≤ s.shares.length ∧ ∀ earlier ∈ seen, earlier ≤ count

instance (s : PostReaders) (seen : Option Nat) (count : Nat) : Decidable (s.Offers seen count) :=
  inferInstanceAs (Decidable (_ ∧ _))

def callFeed (s : PostReaders) : PostCall → PostReaders
  | .error => { s with feed := FeedVC.getDatas s.feed .error }
  | .nilSnapshot => { s with feed := FeedVC.getDatas s.feed .nilSnapshot }
  | .snapshot count =>
      if s.Offers s.feedSeen count then
        { s with
          feed := FeedVC.getDatas s.feed (.snapshot (feedQuery (s.shares.take count)))
          feedSeen := some count }
      else s

def callProfile (account : String) (s : PostReaders) : PostCall → PostReaders
  | .error => { s with profile := ProfileVC.getDatas s.profile .error }
  | .nilSnapshot => { s with profile := ProfileVC.getDatas s.profile .nilSnapshot }
  | .snapshot count =>
      if s.Offers s.profileSeen count then
        { s with
          profile := ProfileVC.getDatas s.profile
            (.snapshot (profileQuery account (s.shares.take count)))
          profileSeen := some count }
      else s

end PostReaders

/-- The collection and its two readers, for one account. Nothing traps. -/
def postMachine (account : String) : Machine PostReaders PostEvent Empty where
  step s
    | .share new => .ok (s.share new)
    | .feed call => .ok (s.callFeed call)
    | .profile call => .ok (s.callProfile account call)

namespace Share

theorem decode_feed (share : Share) :
    FeedVC.decodePost share.document = some ⟨share.email, share.caption, share.imageURL⟩ :=
  rfl

theorem decode_profile (share : Share) :
    ProfileVC.decodePost share.document = some ⟨share.caption, share.imageURL⟩ :=
  rfl

theorem get_email (share : Share) :
    share.document.get "email" = some (.string share.email) :=
  rfl

theorem get_date (share : Share) :
    share.document.get "date" = some (.timestamp share.stamp.date) :=
  rfl

/-- The pair that both readers keep of a post. -/
def content (share : Share) : String × String :=
  (share.caption, share.imageURL)

end Share

theorem feedQuery_perm (shares : List Share) :
    ((feedQuery shares).filterMap FeedVC.decodePost).Perm
      (shares.map fun share => ⟨share.email, share.caption, share.imageURL⟩) := by
  have hperm := (orderByDescending_perm "date" (shares.map Share.document)).filterMap
    FeedVC.decodePost
  rw [List.filter_eq_self.mpr] at hperm
  · rw [List.filterMap_map] at hperm
    simpa [feedQuery, Function.comp_def, Share.decode_feed] using hperm
  · intro document hdocument
    obtain ⟨share, -, rfl⟩ := List.mem_map.mp hdocument
    rw [share.get_date]
    rfl

theorem profileQuery_perm (account : String) (shares : List Share) :
    ((profileQuery account shares).filterMap ProfileVC.decodePost).Perm
      ((shares.filter fun share => share.email = account).map
        fun share => ⟨share.caption, share.imageURL⟩) := by
  have hperm := (whereField_perm "email" account (shares.map Share.document)).filterMap
    ProfileVC.decodePost
  rw [List.filter_map, List.filterMap_map] at hperm
  simpa [profileQuery, Function.comp_def, Share.get_email, Share.decode_profile] using hperm

private theorem feedQuery_nil {shares : List Share} {m n : Nat} (hmn : m ≤ n)
    (h : feedQuery (shares.take n) = []) : feedQuery (shares.take m) = [] := by
  have hnil {shares : List Share} : feedQuery shares = [] ↔ shares = [] := by
    have hlength := (feedQuery_perm shares).length_eq
    constructor
    · intro h
      rw [h] at hlength
      exact List.eq_nil_of_length_eq_zero (by simpa using hlength.symm)
    · rintro rfl
      rfl
  rw [hnil] at h ⊢
  have hsublist := List.take_sublist_take_left (l := shares) hmn
  rw [h] at hsublist
  exact List.sublist_nil.mp hsublist

private theorem profileQuery_nil {account : String} {shares : List Share} {m n : Nat}
    (hmn : m ≤ n) (h : profileQuery account (shares.take n) = []) :
    profileQuery account (shares.take m) = [] := by
  rw [List.eq_nil_iff_forall_not_mem] at h ⊢
  intro document hdocument
  apply h document
  unfold profileQuery at hdocument ⊢
  rw [mem_whereField] at hdocument ⊢
  obtain ⟨hmem, hemail⟩ := hdocument
  obtain ⟨share, hshare, rfl⟩ := List.mem_map.mp hmem
  exact ⟨List.mem_map_of_mem ((List.take_sublist_take_left hmn).subset hshare), hemail⟩

/-- Ids are distinct, and each listener holds the decoding of its last snapshot. -/
structure ReadersCurrent (account : String) (s : PostReaders) : Prop where
  ids : (s.shares.map fun share => share.stamp.documentID).Nodup
  feed : LogReader.Current feedQuery (List.filterMap FeedVC.decodePost) s.shares s.feedSeen
    s.feed.postArray
  profile : LogReader.Current (profileQuery account) (List.filterMap ProfileVC.decodePost)
    s.shares s.profileSeen s.profile.userPosts

private theorem ReadersCurrent.share {account : String} {s : PostReaders}
    (h : ReadersCurrent account s) (new : Share) : ReadersCurrent account (s.share new) := by
  unfold PostReaders.share
  split
  · exact h
  · next hfresh =>
    refine ⟨?_, h.feed.append new, h.profile.append new⟩
    rw [List.map_append, List.map_singleton, ← List.concat_eq_append]
    refine List.Nodup.concat ?_ h.ids
    intro hmem
    obtain ⟨old, hold, heq⟩ := List.mem_map.mp hmem
    exact hfresh ⟨old, hold, heq⟩

private theorem ReadersCurrent.callFeed {account : String} {s : PostReaders}
    (h : ReadersCurrent account s) (call : PostCall) :
    ReadersCurrent account (s.callFeed call) := by
  cases call with
  | error => exact ⟨h.ids, h.feed, h.profile⟩
  | nilSnapshot => exact ⟨h.ids, h.feed, h.profile⟩
  | snapshot count =>
      unfold PostReaders.callFeed
      dsimp only
      split
      · next hoffers =>
        refine ⟨h.ids, ?_, h.profile⟩
        simp only [FeedVC.getDatas_snapshot]
        exact h.feed.read rfl (fun m n hmn => feedQuery_nil hmn) hoffers.2 hoffers.1
      · exact h

private theorem ReadersCurrent.callProfile {account : String} {s : PostReaders}
    (h : ReadersCurrent account s) (call : PostCall) :
    ReadersCurrent account (s.callProfile account call) := by
  cases call with
  | error => exact ⟨h.ids, h.feed, h.profile⟩
  | nilSnapshot => exact ⟨h.ids, h.feed, h.profile⟩
  | snapshot count =>
      unfold PostReaders.callProfile
      dsimp only
      split
      · next hoffers =>
        refine ⟨h.ids, h.feed, ?_⟩
        simp only [ProfileVC.getDatas_snapshot]
        exact h.profile.read rfl (fun m n hmn => profileQuery_nil hmn) hoffers.2 hoffers.1
      · exact h

theorem readersCurrent_step {account : String} {s s' : PostReaders} {e : PostEvent}
    (h : ReadersCurrent account s) (hstep : (postMachine account).step s e = .ok s') :
    ReadersCurrent account s' := by
  cases e with
  | share new =>
      cases hstep
      exact h.share new
  | feed call =>
      cases hstep
      exact h.callFeed call
  | profile call =>
      cases hstep
      exact h.callProfile call

theorem readersCurrent_initial (account : String) : ReadersCurrent account .initial :=
  ⟨List.nodup_nil, rfl, rfl⟩

/-- Whenever the last snapshots of feed and profile comprise the same posts, both hold exactly
the posts of the account among them, each once and as `CreateVC` wrote it. -/
theorem feed_and_profile_agree (account : String) (events : List PostEvent) (s : PostReaders)
    (hrun : (postMachine account).run .initial events = .ok s) (count : Nat)
    (hfeed : s.feedSeen = some count) (hprofile : s.profileSeen = some count) :
    (s.shares.map fun share => share.stamp.documentID).Nodup ∧
    (↑(s.profile.userPosts.map fun post => (post.caption, post.imageUrl)) :
        Multiset (String × String)) =
      ↑((s.feed.postArray.filter fun post => post.email = account).map
        fun post => (post.caption, post.imageUrl)) ∧
    (↑(s.profile.userPosts.map fun post => (post.caption, post.imageUrl)) :
        Multiset (String × String)) =
      ↑(((s.shares.take count).filter fun share => share.email = account).map Share.content) := by
  have hcurrent := Machine.run_induction (fun _ _ _ h hstep => readersCurrent_step h hstep)
    (readersCurrent_initial account) hrun
  obtain ⟨-, hpostArray⟩ := hfeed ▸ hcurrent.feed
  obtain ⟨-, huserPosts⟩ := hprofile ▸ hcurrent.profile
  have hown : (s.profile.userPosts.map fun post => (post.caption, post.imageUrl)).Perm
      (((s.shares.take count).filter fun share => share.email = account).map Share.content) := by
    have hperm := (profileQuery_perm account (s.shares.take count)).map
      fun post => (post.caption, post.imageUrl)
    rw [List.map_map, ← huserPosts] at hperm
    exact hperm
  have hfed : ((s.feed.postArray.filter fun post => post.email = account).map
      fun post => (post.caption, post.imageUrl)).Perm
      (((s.shares.take count).filter fun share => share.email = account).map Share.content) := by
    have hperm := ((feedQuery_perm (s.shares.take count)).filter
      fun post => post.email = account).map fun post => (post.caption, post.imageUrl)
    rw [List.filter_map, List.map_map, ← hpostArray] at hperm
    exact hperm
  exact ⟨hcurrent.ids, Multiset.coe_eq_coe.mpr (hown.trans hfed.symm),
    Multiset.coe_eq_coe.mpr hown⟩

/-- Both listeners start with an empty snapshot; the feed then falls behind and catches up. -/
private def catchingUp : List PostEvent :=
  [.feed (.snapshot 0), .profile (.snapshot 0), .share ⟨"u1", "one", "a@x", ⟨"p2", 1⟩⟩,
    .feed (.snapshot 1), .share ⟨"u2", "two", "b@x", ⟨"p3", 2⟩⟩,
    .share ⟨"u3", "three", "a@x", ⟨"p1", 3⟩⟩, .feed .error, .profile (.snapshot 3),
    .feed (.snapshot 3)]

theorem feed_and_profile_agree_catching_up :
    ∃ s, (postMachine "a@x").run .initial catchingUp = .ok s ∧
      s.profile.userPosts = [⟨"three", "u3"⟩, ⟨"one", "u1"⟩] ∧
      (↑(s.profile.userPosts.map fun post => (post.caption, post.imageUrl)) :
          Multiset (String × String)) =
        ↑((s.feed.postArray.filter fun post => post.email = "a@x").map
          fun post => (post.caption, post.imageUrl)) :=
  ⟨_, rfl, by decide, (feed_and_profile_agree "a@x" catchingUp _ rfl 3 rfl rfl).2.1⟩

private theorem run_shares {account : String} (before rest : List Share)
    (hids : ((before ++ rest).map fun share => share.stamp.documentID).Nodup) :
    (postMachine account).run { PostReaders.initial with shares := before }
        (rest.map PostEvent.share) =
      .ok { PostReaders.initial with shares := before ++ rest } := by
  induction rest generalizing before with
  | nil => rw [List.append_nil, List.map_nil, Machine.run_nil]
  | cons new rest ih =>
      have hfresh : ¬ ∃ old ∈ before, old.stamp.documentID = new.stamp.documentID := by
        rintro ⟨old, hold, heq⟩
        rw [List.map_append, List.nodup_append] at hids
        exact hids.2.2 _ (List.mem_map_of_mem hold) _ (by simp) heq
      have hstep : (postMachine account).step { PostReaders.initial with shares := before }
          (.share new) = .ok { PostReaders.initial with shares := before ++ [new] } := by
        simp only [postMachine, PostReaders.share, if_neg hfresh]
      rw [List.append_cons] at hids
      rw [List.map_cons, Machine.run_cons_of_step hstep, ih _ hids, ← List.append_cons]

/-- Every run of the app leaves in `Post` what some run of shares leaves there. -/
theorem posts_are_shares {P : Platform} {persisted : Option String} {events : List Event} {s : App}
    (hrun : (appMachine P).run (.launch persisted) events = .ok s) (account : String) :
    ∃ (shares : List Share) (readers : PostReaders),
      (postMachine account).run .initial (shares.map PostEvent.share) = .ok readers ∧
        readers.shares.map Share.document = s.posts := by
  have hshare : ∀ document ∈ s.posts, document ∈ Set.range Share.document := by
    intro document hdocument
    obtain ⟨added, hadded, rfl⟩ := List.mem_map.mp hdocument
    obtain ⟨hmem, hpost⟩ := List.mem_filter.mp hadded
    obtain ⟨hcollection, ui, email, stamp, hwritten⟩ :=
      (objects_of_run hrun).2.written added hmem
    rw [decide_eq_true_eq] at hpost
    unfold Attempt.fields at hwritten
    cases hform : added.attempt.form with
    | create form =>
        simp only [hform] at hwritten
        exact ⟨⟨_, _, email, stamp⟩, hwritten.symm⟩
    | update form => simp [hpost, hform, Form.collection] at hcollection
  have hrange : s.posts ∈ Set.range (List.map Share.document) := by
    rw [Set.range_list_map]
    exact hshare
  obtain ⟨shares, hshares⟩ := hrange
  have hids := idsDistinct_of_run hrun "Post"
  have hposts : (shares.map fun share => share.stamp.documentID).Nodup := by
    have heq := congrArg (List.map Document.documentID) hshares
    rw [List.map_map] at heq
    change shares.map (fun share => share.stamp.documentID) = _ at heq
    rw [heq, App.posts, List.map_map]
    exact hids
  exact ⟨shares, _, run_shares [] shares hposts, hshares⟩

end BookShelf
