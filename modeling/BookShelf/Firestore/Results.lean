import BookShelf.Firestore.Apply
import BookShelf.Library.Limit

/-!
# A view shows the results of its query

The client updates a view from batches of changes and rarely looks at the whole local store. The
view still shows what running the query from scratch would give: every match where there is no
limit, and with a limit exactly the first or last matches, as long as no document waits for Watch
after its write has been acknowledged.
-/

namespace BookShelf.Firestore

variable {q : Query}

/-- A document with the content. -/
def bare (content : DocumentKey × ObjectValue) : Document :=
  ⟨content.1, content.2, 0, .synced⟩

theorem compare_bare (q : Query) (a b : Document) :
    q.compare (bare a.content) (bare b.content) = q.compare a b :=
  Query.compare_congr rfl rfl

def DocumentSet.contents (set : DocumentSet q) : List (DocumentKey × ObjectValue) :=
  set.docs.map Document.content

def LocalDocuments.contents (store : LocalDocuments) (q : Query) :
    List (DocumentKey × ObjectValue) :=
  (store.docs.filter q.matchesDocument).map Document.content

/-- The order in which a limit counts. -/
def CountsBefore (q : Query) (type : LimitType) (a b : DocumentKey × ObjectValue) : Prop :=
  match type with
  | .first => q.Before (bare a) (bare b)
  | .last => q.Before (bare b) (bare a)

instance (q : Query) (type : LimitType) : DecidableRel (CountsBefore q type) := fun a b =>
  match type with
  | .first => inferInstanceAs (Decidable (q.Before (bare a) (bare b)))
  | .last => inferInstanceAs (Decidable (q.Before (bare b) (bare a)))

theorem CountsBefore.asymm {type : LimitType} {a b : DocumentKey × ObjectValue}
    (h : CountsBefore q type a b) : ¬ CountsBefore q type b a := by
  cases type with
  | first => exact fun hba => Query.Before.not_notAfter h hba.notAfter
  | last => exact fun hba => Query.Before.not_notAfter h hba.notAfter

theorem CountsBefore.trans {type : LimitType} {a b c : DocumentKey × ObjectValue}
    (hab : CountsBefore q type a b) (hbc : CountsBefore q type b c) : CountsBefore q type a c := by
  cases type with
  | first => exact Query.Before.trans hab hbc
  | last => exact Query.Before.trans hbc hab

theorem CountsBefore.of_not {type : LimitType} {a edge b : DocumentKey × ObjectValue}
    (hinside : ¬ CountsBefore q type edge a) (hb : CountsBefore q type edge b) :
    CountsBefore q type a b := by
  cases type with
  | first => exact (Query.notAfter_of_not_before hinside).trans_before hb
  | last => exact Query.Before.trans_notAfter hb (Query.notAfter_of_not_before hinside)

/-- `kept` is the part of all the matches that the query asks for, in any order. -/
def Answers (q : Query) (kept all : List (DocumentKey × ObjectValue)) : Prop :=
  match q.limit with
  | none => kept.Perm all
  | some ⟨type, count⟩ => Limit.Keeps (CountsBefore q type) count kept all

theorem answers_limited {docs : List Document} (h : docs.Pairwise q.Before) :
    Answers q ((q.limited docs).map Document.content) (docs.map Document.content) := by
  unfold Answers Query.limited
  cases q.limit with
  | none => exact List.Perm.refl _
  | some limit =>
      obtain ⟨type, count⟩ := limit
      have hcontents : (docs.map Document.content).Pairwise (CountsBefore q .first) := by
        rw [List.pairwise_map]
        refine h.imp ?_
        intro a b hab
        exact (compare_bare q a b).trans hab
      cases type with
      | first =>
          simp only [List.map_take]
          exact Limit.keeps_take hcontents
      | last =>
          have hlength : docs.length = (docs.map Document.content).length := by simp
          simp only [List.map_drop]
          rw [hlength]
          exact Limit.keeps_drop hcontents

theorem Answers.of_perm {kept all all' : List (DocumentKey × ObjectValue)}
    (h : Answers q kept all) (hperm : all.Perm all') : Answers q kept all' := by
  unfold Answers at h ⊢
  cases hlimit : q.limit with
  | none =>
      rw [hlimit] at h
      exact h.trans hperm
  | some limit =>
      rw [hlimit] at h
      exact Limit.Keeps.of_perm h hperm

theorem Answers.perm {kept kept' all : List (DocumentKey × ObjectValue)} (hnodup : all.Nodup)
    (h : Answers q kept all) (h' : Answers q kept' all) : kept.Perm kept' := by
  unfold Answers at h h'
  cases hlimit : q.limit with
  | none =>
      rw [hlimit] at h h'
      exact List.Perm.trans h h'.symm
  | some limit =>
      rw [hlimit] at h h'
      exact Limit.Keeps.perm hnodup (fun _ _ hab => hab.asymm) h h'

theorem Answers.exists_rest {kept all : List (DocumentKey × ObjectValue)}
    (h : Answers q kept all) : ∃ rest, (kept ++ rest).Perm all := by
  unfold Answers at h
  cases hlimit : q.limit with
  | none =>
      rw [hlimit] at h
      exact ⟨[], by rwa [List.append_nil]⟩
  | some limit =>
      rw [hlimit] at h
      obtain ⟨-, rest, hperm, -⟩ := h
      exact ⟨rest, hperm⟩

section

variable (store : LocalDocuments)

theorem DocumentSet.lookup_contents (set : DocumentSet q) (k : DocumentKey) :
    Keyed.lookup Prod.fst set.contents k = (set.getDocument k).map Document.content :=
  Keyed.lookup_map _ (fun _ => rfl) _ _

theorem DocumentSet.distinct_contents (set : DocumentSet q) :
    Keyed.Distinct Prod.fst set.contents := by
  rw [Keyed.Distinct, contents, List.map_map]
  exact set.distinct

theorem LocalDocuments.lookup_contents (k : DocumentKey) :
    Keyed.lookup Prod.fst (store.contents q) k =
      ((store.get k).filter q.matchesDocument).map Document.content := by
  have hmatches : Keyed.lookup Document.key (store.docs.filter q.matchesDocument) k =
      (store.get k).filter q.matchesDocument := Keyed.lookup_filter store.distinct _ k
  rw [← hmatches]
  exact Keyed.lookup_map _ (fun _ => rfl) _ _

theorem LocalDocuments.distinct_contents : Keyed.Distinct Prod.fst (store.contents q) := by
  rw [Keyed.Distinct, contents, List.map_map]
  exact store.distinct.sublist List.filter_sublist

/-- A set of documents that answers the query is its result. -/
theorem contents_eq_results {set : DocumentSet q}
    (h : Answers q set.contents (store.contents q)) :
    set.contents = (q.results store.docs).map Document.content := by
  have hsort := List.perm_insertionSort q.NotAfter (store.docs.filter q.matchesDocument)
  have hdistinct : Keyed.Distinct Document.key
      ((store.docs.filter q.matchesDocument).insertionSort q.NotAfter) :=
    Keyed.Distinct.perm (store.distinct.sublist List.filter_sublist) hsort.symm
  have hsorted := DocumentSet.sorted_of_notAfter
    (List.pairwise_insertionSort q.NotAfter _) hdistinct
  have hresults : Answers q ((q.results store.docs).map Document.content) (store.contents q) :=
    (answers_limited hsorted).of_perm (hsort.map _)
  have hperm := h.perm store.distinct_contents.nodup hresults
  have hbefore {docs : List Document} (hdocs : docs.Pairwise q.Before) :
      (docs.map Document.content).Pairwise (CountsBefore q .first) := by
    rw [List.pairwise_map]
    refine hdocs.imp ?_
    intro a b hab
    exact (compare_bare q a b).trans hab
  refine hperm.eq_of_pairwise ?_ (hbefore set.sorted)
    (hbefore (hsorted.sublist (q.limited_sublist _)))
  intro a b _ _ hab hba
  exact absurd hba hab.asymm

end

/-- Is this a document of the view whose new version waits for Watch? -/
def View.waits (view : View q) (entry : MaybeDocument) : Bool :=
  match view.documentSet.getDocument entry.key, entry.matching q with
  | some oldDoc, some newDoc =>
      decide (oldDoc.data ≠ newDoc.data) && shouldWaitForSyncedDocument newDoc oldDoc
  | _, _ => false

def NothingWaits (s : ViewState q) : ViewEvent → Prop
  | .changes changes _ => ∀ entry ∈ changes.entries, s.view.waits entry = false
  | .onlineState _ => True

instance (s : ViewState q) (e : ViewEvent) : Decidable (NothingWaits s e) :=
  match e with
  | .changes changes _ => inferInstanceAs
      (Decidable (∀ entry ∈ changes.entries, s.view.waits entry = false))
  | .onlineState _ => inferInstanceAs (Decidable True)

section

variable {store : LocalDocuments} {view : View q} {changes : MaybeDocumentMap}
  {old : DocumentSet q} {entries : List MaybeDocument} {base : DocumentKey → Option Document}
  {start mid first second r : ViewDocumentChanges q}

theorem Visited.content {old new shown : Option Document} (h : Visited old new shown)
    (hcalm : ∀ o n, old = some o → new = some n →
      o.content = n.content ∨ shouldWaitForSyncedDocument n o = false)
    (hkey : ∀ o n, old = some o → new = some n → o.key = n.key) :
    shown.map Document.content = new.map Document.content := by
  rcases h with rfl | ⟨o, n, rfl, rfl, rfl, hkeeps⟩
  · rfl
  · have hcontent : o.content = n.content := by
      rcases hcalm o n rfl rfl with hcontent | hnot
      · exact hcontent
      · rcases hkeeps with hdata | hwait
        · rw [Document.content, Document.content, hkey o n rfl rfl, hdata]
        · rw [hnot] at hwait
          cases hwait
    rw [Option.map_some, Option.map_some, hcontent]

/-- After a visit of all the matches, when the old documents were among them, the set has exactly
these. -/
theorem Sweep.perm_executeQuery
    (h : Sweep start.documentSet (store.executeQuery q).entries start mid)
    (hstart : ∀ o ∈ start.documentSet.docs, o.content ∈ store.contents q) :
    mid.documentSet.contents.Perm (store.contents q) := by
  have hold {k : DocumentKey} {o : Document} (ho : start.documentSet.getDocument k = some o) :
      ((store.get k).filter q.matchesDocument).map Document.content = some o.content := by
    obtain ⟨hmem, hkey⟩ := DocumentSet.getDocument_eq_some.mp ho
    rw [← LocalDocuments.lookup_contents, ← hkey]
    exact Keyed.lookup_of_mem store.distinct_contents (hstart o hmem)
  apply Keyed.perm_of_lookup mid.documentSet.distinct_contents store.distinct_contents
  intro k
  rw [DocumentSet.lookup_contents, LocalDocuments.lookup_contents]
  by_cases hk : k ∈ (store.executeQuery q).entries.map MaybeDocument.key
  · obtain ⟨entry, hentry, rfl⟩ := List.mem_map.mp hk
    have hmatching : entry.matching q = (store.get entry.key).filter q.matchesDocument := by
      rw [LocalDocuments.get_executeQuery hentry]
      rfl
    rw [← hmatching]
    have hcontent (o n : Document) (ho : start.documentSet.getDocument entry.key = some o)
        (hn : entry.matching q = some n) : o.content = n.content := by
      have hsame := hold ho
      rw [← hmatching, hn] at hsame
      exact (Option.some.inj hsame).symm
    refine (h.here entry hentry).content (fun o n ho hn => .inl (hcontent o n ho hn)) ?_
    intro o n ho hn
    exact congrArg Prod.fst (hcontent o n ho hn)
  · rw [h.other k hk]
    cases ho : start.documentSet.getDocument k with
    | some o => exact (hold ho).symm
    | none =>
        cases hn : (store.get k).filter q.matchesDocument with
        | none => rfl
        | some n =>
            obtain ⟨hget, hmatch⟩ := Option.filter_eq_some_iff.mp hn
            exact absurd (LocalDocuments.mem_executeQuery hget hmatch) hk

/-- The first pass over a batch knows the matches that it has not seen: those that the view left
out before and that are not in the batch. -/
theorem Computed.perm_append
    (h : Computed q ⟨view.documentSet, .empty, view.mutatedKeys, false⟩ changes.entries base mid r)
    (hcalm : ∀ entry ∈ changes.entries, view.waits entry = false)
    {rest : List (DocumentKey × ObjectValue)}
    (hrest : (view.documentSet.contents ++ rest).Perm (store.contents q)) :
    (mid.documentSet.contents ++
      rest.filter fun c => decide (c.1 ∉ changes.entries.map MaybeDocument.key)).Perm
        ((store.update changes).contents q) := by
  have hdistinct : Keyed.Distinct Prod.fst (view.documentSet.contents ++ rest) :=
    store.distinct_contents.perm hrest.symm
  have hdistinctRest : Keyed.Distinct Prod.fst rest :=
    hdistinct.sublist (List.sublist_append_right _ _)
  have hhere (entry : MaybeDocument) (hentry : entry ∈ changes.entries) :
      (mid.documentSet.getDocument entry.key).map Document.content =
        (((store.update changes).get entry.key).filter q.matchesDocument).map
          Document.content := by
    rw [store.get_update_of_mem changes hentry]
    refine (h.sweep.here entry hentry).content ?_ ?_
    · intro o n ho hn
      have hwaits := hcalm entry hentry
      unfold View.waits at hwaits
      change view.documentSet.getDocument entry.key = some o at ho
      simp only [ho, hn, Bool.and_eq_false_iff, decide_eq_false_iff_not, not_not] at hwaits
      rcases hwaits with hdata | hnot
      · have hkey := (DocumentSet.key_of_getDocument ho).trans
          (MaybeDocument.key_of_matching hn).1.symm
        exact .inl (by rw [Document.content, Document.content, hkey, hdata])
      · exact .inr hnot
    · intro o n ho hn
      exact (DocumentSet.key_of_getDocument ho).trans (MaybeDocument.key_of_matching hn).1.symm
  refine Keyed.perm_of_lookup (?_ : Keyed.Distinct Prod.fst _)
    (store.update changes).distinct_contents ?_
  · rw [Keyed.Distinct, List.map_append, List.nodup_append]
    refine ⟨mid.documentSet.distinct_contents, hdistinctRest.sublist List.filter_sublist, ?_⟩
    rintro k hmid k' hkrest rfl
    obtain ⟨c, hc, rfl⟩ := List.mem_map.mp hmid
    obtain ⟨d, hd, rfl⟩ := List.mem_map.mp hc
    obtain ⟨c', hc', hkey⟩ := List.mem_map.mp hkrest
    obtain ⟨hmem, hunseen⟩ := List.mem_filter.mp hc'
    rw [hkey, decide_eq_true_eq] at hunseen
    have hview : view.documentSet.getDocument d.key = some d := by
      have hother := h.sweep.other d.key hunseen
      rw [DocumentSet.getDocument_of_mem hd] at hother
      exact hother.symm
    obtain ⟨hdocs, -⟩ := DocumentSet.getDocument_eq_some.mp hview
    rw [Keyed.Distinct, List.map_append, List.nodup_append] at hdistinct
    refine hdistinct.2.2 d.key ?_ c'.1 (List.mem_map_of_mem hmem) hkey.symm
    exact List.mem_map.mpr ⟨d.content, List.mem_map_of_mem hdocs, rfl⟩
  · intro k
    rw [Keyed.lookup_append, DocumentSet.lookup_contents, LocalDocuments.lookup_contents,
      Keyed.lookup_filter hdistinctRest]
    by_cases hk : k ∈ changes.entries.map MaybeDocument.key
    · have hnone : (Keyed.lookup Prod.fst rest k).filter
          (fun c => decide (c.1 ∉ changes.entries.map MaybeDocument.key)) = none := by
        rw [Option.filter_eq_none_iff]
        intro c hc
        rw [Keyed.key_of_lookup hc]
        simpa using hk
      obtain ⟨entry, hentry, rfl⟩ := List.mem_map.mp hk
      rw [hnone, Option.or_none]
      exact hhere entry hentry
    · have hsome : (Keyed.lookup Prod.fst rest k).filter
          (fun c => decide (c.1 ∉ changes.entries.map MaybeDocument.key)) =
            Keyed.lookup Prod.fst rest k := by
        cases hlookup : Keyed.lookup Prod.fst rest k with
        | none => rfl
        | some c =>
            apply Option.filter_some_pos
            rw [Keyed.key_of_lookup hlookup]
            simpa using hk
      have hother : mid.documentSet.getDocument k = view.documentSet.getDocument k :=
        h.sweep.other k hk
      rw [hsome, hother, store.get_update_of_notMem changes hk, ← LocalDocuments.lookup_contents,
        Keyed.lookup_perm hdistinct hrest, Keyed.lookup_append, DocumentSet.lookup_contents]

theorem edgeOfLimit_full {set : DocumentSet q} {type : LimitType} {count : Nat}
    (hlimit : q.limit = some ⟨type, count⟩) (hfull : set.size = count) (hne : set.docs ≠ []) :
    ∃ edge ∈ set.docs, View.edgeOfLimit set = some edge ∧
      ∀ o ∈ set.docs, ¬ CountsBefore q type edge.content o.content := by
  have hbefore {a b : Document} (hab : q.Before a b) :
      CountsBefore q .first a.content b.content := (compare_bare q a b).trans hab
  have hirrefl (type : LimitType) (d : Document) : ¬ CountsBefore q type d.content d.content :=
    fun h => h.asymm h
  have hsorted := set.sorted
  unfold View.edgeOfLimit
  simp only [hlimit, hfull, if_true]
  cases type with
  | first =>
      rcases List.eq_nil_or_concat set.docs with hnil | ⟨init, edge, hconcat⟩
      · exact absurd hnil hne
      · rw [List.concat_eq_append] at hconcat
        rw [hconcat] at hsorted
        refine ⟨edge, by simp [hconcat], ?_, ?_⟩
        · simp only [DocumentSet.getLastDocument, hconcat, List.getLast?_concat]
        · intro o ho
          rw [hconcat] at ho
          rcases List.mem_append.mp ho with ho | ho
          · have hedge := (List.pairwise_append.mp hsorted).2.2 o ho edge (by simp)
            exact (hbefore hedge).asymm
          · rw [List.mem_singleton.mp ho]
            exact hirrefl _ _
  | last =>
      cases hdocs : set.docs with
      | nil => exact absurd hdocs hne
      | cons edge docs =>
          rw [hdocs] at hsorted
          refine ⟨edge, by simp, ?_, ?_⟩
          · simp only [DocumentSet.getFirstDocument, hdocs, List.head?_cons]
          · intro o ho
            rcases List.mem_cons.mp ho with rfl | ho
            · exact hirrefl _ _
            · intro hoe
              exact (hbefore ((List.pairwise_cons.mp hsorted).1 o ho)).asymm hoe

theorem not_countsBefore_of_inside {type : LimitType} {count : Nat} {edge v : Document}
    (hlimit : q.limit = some ⟨type, count⟩) (h : View.outsideLimit q (some edge) v = false) :
    ¬ CountsBefore q type edge.content v.content := by
  unfold View.outsideLimit at h
  cases type with
  | first =>
      simp only [hlimit, decide_eq_false_iff_not] at h
      intro hbefore
      exact h (Std.OrientedCmp.gt_of_lt ((compare_bare q edge v).symm.trans hbefore))
  | last =>
      simp only [hlimit, decide_eq_false_iff_not] at h
      intro hbefore
      exact h ((compare_bare q v edge).symm.trans hbefore)

theorem size_le_countP {set set' : DocumentSet q} (p : DocumentKey × ObjectValue → Bool)
    (h : ∀ o ∈ set.docs, ∃ v, set'.getDocument o.key = some v ∧ p v.content = true) :
    set.size ≤ set'.contents.countP p := by
  have hsub : set.docs.map Document.key ⊆ (set'.contents.filter p).map Prod.fst := by
    intro k hk
    obtain ⟨o, ho, rfl⟩ := List.mem_map.mp hk
    obtain ⟨v, hv, hpv⟩ := h o ho
    obtain ⟨hmem, hkey⟩ := DocumentSet.getDocument_eq_some.mp hv
    refine List.mem_map.mpr ⟨v.content, List.mem_filter.mpr ⟨List.mem_map_of_mem hmem, hpv⟩, ?_⟩
    exact hkey
  have hlength := (List.Nodup.subperm set.distinct hsub).length_le
  rw [List.length_map, List.length_map] at hlength
  rw [List.countP_eq_length_filter]
  exact hlength

/-- One pass without a refill. Either the view had room and knew all the matches, or no document
has left the full limit, so that it still holds the best of what the view has not seen. -/
theorem Computed.answers
    (h : Computed q ⟨view.documentSet, .empty, view.mutatedKeys, false⟩ changes.entries base mid r)
    (hneeds : r.needsRefill = false)
    (hcalm : ∀ entry ∈ changes.entries, view.waits entry = false)
    (hanswers : Answers q view.documentSet.contents (store.contents q)) :
    Answers q r.documentSet.contents ((store.update changes).contents q) := by
  have hlimited : Answers q r.documentSet.contents mid.documentSet.contents := by
    rw [DocumentSet.contents, h.limited]
    exact answers_limited mid.documentSet.sorted
  cases hlimit : q.limit with
  | none =>
      unfold Answers at hanswers hlimited ⊢
      rw [hlimit] at hanswers hlimited ⊢
      rw [← List.append_nil view.documentSet.contents] at hanswers
      have hperm := h.perm_append hcalm hanswers
      rw [List.filter_nil, List.append_nil] at hperm
      exact hlimited.trans hperm
  | some limit =>
      obtain ⟨type, count⟩ := limit
      unfold Answers at hanswers hlimited ⊢
      rw [hlimit] at hanswers hlimited ⊢
      obtain ⟨hlength, rest, hrest, hbefore⟩ := hanswers
      have hperm := h.perm_append hcalm hrest
      by_cases hmore :
          rest.filter (fun c => decide (c.1 ∉ changes.entries.map MaybeDocument.key)) = []
      · rw [hmore, List.append_nil] at hperm
        exact Limit.Keeps.of_perm hlimited hperm
      · have hfull : view.documentSet.size = count := by
          have hsize : view.documentSet.contents.length = view.documentSet.size :=
            List.length_map _
          have hpos : 0 < rest.length := by
            refine List.length_pos_iff.mpr ?_
            intro hnil
            rw [hnil, List.filter_nil] at hmore
            exact hmore rfl
          have htotal := hrest.length_eq
          rw [List.length_append] at htotal
          omega
        by_cases hempty : view.documentSet.docs = []
        · have hzero : count = 0 := by rw [← hfull, DocumentSet.size, hempty, List.length_nil]
          refine Limit.Keeps.append hlimited hperm ?_ (fun _ => by omega)
          intro a ha
          have hnil : r.documentSet.contents = [] := by
            rw [← List.length_eq_zero_iff, hlimited.1, hzero, Nat.zero_min]
          rw [hnil] at ha
          cases ha
        · obtain ⟨edge, hedge, hedgeEq, hlast⟩ := edgeOfLimit_full hlimit hfull hempty
          obtain ⟨-, hstays⟩ := h.sweep.stays (h.needsRefill.symm.trans hneeds)
          have hinside : ∀ o ∈ view.documentSet.docs, ∃ v,
              mid.documentSet.getDocument o.key = some v ∧
                decide (¬ CountsBefore q type edge.content v.content) = true := by
            intro o ho
            have hget := DocumentSet.getDocument_of_mem ho
            by_cases hk : o.key ∈ changes.entries.map MaybeDocument.key
            · obtain ⟨entry, hentry, hkey⟩ := List.mem_map.mp hk
              rw [← hkey] at hget ⊢
              obtain ⟨v, hv, hcases⟩ := hstays edge hedgeEq entry hentry o hget
              refine ⟨v, hv, decide_eq_true ?_⟩
              rcases hcases with hcontent | hnot
              · rw [hcontent]
                exact hlast o ho
              · exact not_countsBefore_of_inside hlimit hnot
            · exact ⟨o, (h.sweep.other o.key hk).trans hget, decide_eq_true (hlast o ho)⟩
          have hcount := size_le_countP
            (fun c => decide (¬ CountsBefore q type edge.content c)) hinside
          rw [hfull] at hcount
          refine Limit.Keeps.append hlimited hperm ?_ fun _ => hcount.trans List.countP_le_length
          intro a ha b hb
          have ha' := Limit.Keeps.forall_of_countP hlimited ?_ hcount ha
          · refine CountsBefore.of_not (of_decide_eq_true ha') ?_
            exact hbefore _ (List.mem_map_of_mem hedge) b (List.mem_of_mem_filter hb)
          · intro a b hab hb
            rw [decide_eq_true_eq] at hb ⊢
            exact fun ha => hb (ha.trans hab)

/-- The second pass starts from documents of the store, and sees all the matches. -/
theorem Computed.answers_refill
    (h : Computed q { first with needsRefill := false } (store.executeQuery q).entries base
      second r)
    (hfirst : ∀ o ∈ first.documentSet.docs, o.content ∈ store.contents q) :
    Answers q r.documentSet.contents (store.contents q) := by
  rw [DocumentSet.contents, h.limited]
  exact (answers_limited second.documentSet.sorted).of_perm (h.sweep.perm_executeQuery hfirst)

theorem PassOrRefill.answers (h : PassOrRefill view (store.update changes) changes r)
    (hcalm : ∀ entry ∈ changes.entries, view.waits entry = false)
    (hanswers : Answers q view.documentSet.contents (store.contents q)) :
    Answers q r.documentSet.contents ((store.update changes).contents q) := by
  cases h with
  | pass mid hneeds hcomputed => exact hcomputed.answers hneeds hcalm hanswers
  | refill mid first second hfirst hcomputed =>
      apply hcomputed.answers_refill
      intro o ho
      obtain ⟨rest, hrest⟩ := hanswers.exists_rest
      have hperm := hfirst.perm_append hcalm hrest
      rw [hfirst.limited] at ho
      refine hperm.mem_iff.mp (List.mem_append_left _ (List.mem_map_of_mem ?_))
      exact (q.limited_sublist _).subset ho

end

theorem Listened.answers {store : LocalDocuments} {s : ViewState q} (h : Listened q store s) :
    Answers q s.view.documentSet.contents (s.store.contents q) := by
  obtain ⟨snapshot, ⟨first, mid, r, change, hcomputed, -, happlied, -⟩, hstore, -⟩ := h
  rw [happlied.documentSet, hstore, DocumentSet.contents, hcomputed.limited]
  refine (answers_limited mid.documentSet.sorted).of_perm
    (hcomputed.sweep.perm_executeQuery ?_)
  intro o ho
  cases ho

theorem Stepped.answers {s s' : ViewState q} {e : ViewEvent} (h : Stepped s e s')
    (hcalm : NothingWaits s e)
    (hanswers : Answers q s.view.documentSet.contents (s.store.contents q)) :
    Answers q s'.view.documentSet.contents (s'.store.contents q) := by
  cases h with
  | idle onlineState => exact hanswers
  | changes changes targetChange r view' change hr happlied =>
      change Answers q view'.documentSet.contents _
      rw [happlied.documentSet]
      exact hr.answers hcalm hanswers
  | offline view' change happlied =>
      change Answers q view'.documentSet.contents _
      rw [happlied.documentSet]
      exact hanswers

/-- In every run in which no document waits for Watch, the view shows the results of the query over
the local store, in order, whether or not the query has a limit. -/
theorem view_shows_results {store : LocalDocuments} {remoteKeys : Finset DocumentKey}
    {mirrored : Option SyncState} {s s' : ViewState q} {es : List ViewEvent}
    (hlisten : ViewState.listen q store remoteKeys mirrored = .ok s)
    (hcalm : (viewMachine q).Meets NothingWaits s es)
    (hrun : (viewMachine q).run s es = .ok s') :
    s'.view.documentSet.docs.map Document.content =
      (q.results s'.store.docs).map Document.content := by
  have hlistened := listened_of_listen hlisten
  have hends : Tracks s'.store s'.view ∧
      Answers q s'.view.documentSet.contents (s'.store.contents q) := by
    refine Machine.run_induction_of_meets
      (P := fun s => Tracks s.store s.view ∧
        Answers q s.view.documentSet.contents (s.store.contents q))
      ?_ ⟨hlistened.tracks, hlistened.answers⟩ hcalm hrun
    intro s e s' ⟨htracks, hanswers⟩ hcalm hstep
    have hstepped := stepped_of_step htracks hstep
    exact ⟨hstepped.tracks htracks, hstepped.answers hcalm hanswers⟩
  exact contents_eq_results s'.store hends.2

def newestTwo : Query :=
  { newestPosts with limit := some ⟨.first, 2⟩ }

/-- The newest post is deleted, which asks for a refill, and then the oldest is written to. -/
def deletedThenWritten : List ViewEvent :=
  [.changes ⟨[.noDocument ["Posts", "c"] 4 false], by decide⟩ none,
    .changes ⟨[.document ⟨["Posts", "a"], [("date", .serverTimestamp 5)], 1, .localMutations⟩],
      by decide⟩ none]

theorem view_shows_results_refilled :
    ∃ s s', ViewState.listen newestTwo threePosts ∅ none = .ok s ∧
      (viewMachine newestTwo).run s deletedThenWritten = .ok s' ∧
      s'.view.documentSet.docs.map Document.content =
        (newestTwo.results s'.store.docs).map Document.content := by
  have hruns : (match ViewState.listen newestTwo threePosts ∅ none with
      | .ok s => decide ((viewMachine newestTwo).Meets NothingWaits s deletedThenWritten ∧
          (viewMachine newestTwo).Meets KnowsModified s deletedThenWritten)
      | .error _ => false) = true := by decide
  obtain ⟨s, hlisten, hlistened⟩ := listen_ok newestTwo threePosts ∅ none
  rw [hlisten] at hruns
  obtain ⟨hcalm, hknows⟩ := of_decide_eq_true hruns
  obtain ⟨s', hrun⟩ := (run_ok_iff hlistened.tracks _).mpr hknows
  exact ⟨s, s', hlisten, hrun, view_shows_results hlisten hcalm hrun⟩

end BookShelf.Firestore
