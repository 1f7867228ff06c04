import BookShelf.Firestore.View

/-!
# One pass over the changed documents

What `computeDocumentChanges` does to the document of each key, and that its change set describes
the way from the documents of the view to the new ones.
-/

namespace BookShelf.Firestore

variable {q : Query}

/-- The change set describes the way from `base`, and the mutated keys are those of the documents
with local mutations. -/
structure Consistent (base : DocumentKey → Option Document) (r : ViewDocumentChanges q) : Prop where
  describes : r.changeSet.DescribesFrom base r.documentSet.getDocument
  mutated : ∀ k, k ∈ r.mutatedKeys ↔
    ∃ d, r.documentSet.getDocument k = some d ∧ d.hasLocalMutations = true

/-- The view keeps `old` although the local store has `new`. -/
def KeepsOld (old new : Document) : Prop :=
  old.data = new.data ∨ shouldWaitForSyncedDocument new old = true

/-- What a pass makes of a document: the one of the local store, or the old one. -/
def Visited (old new shown : Option Document) : Prop :=
  shown = new ∨ ∃ o n, old = some o ∧ new = some n ∧ shown = some o ∧ KeepsOld o n

/-- The document of the batch, if the query matches it. -/
def MaybeDocument.matching (q : Query) (entry : MaybeDocument) : Option Document :=
  entry.document?.filter q.matchesDocument

theorem MaybeDocument.key_of_matching {entry : MaybeDocument} {d : Document}
    (h : entry.matching q = some d) : d.key = entry.key ∧ q.matchesDocument d = true := by
  obtain ⟨hdocument, hmatch⟩ := Option.filter_eq_some_iff.mp h
  exact ⟨key_of_document? hdocument, hmatch⟩

section

variable {base : DocumentKey → Option Document} {r : ViewDocumentChanges q}

theorem Consistent.put (h : Consistent base r) {d : Document} {type : ChangeType}
    (hchange : Describes (r.documentSet.getDocument d.key) (some d) (some ⟨d, type⟩)) :
    ∃ r', (r.put d).addChange ⟨d, type⟩ = .ok r' ∧ Consistent base r' ∧
      r'.documentSet = r.documentSet.insert d ∧ r'.needsRefill = r.needsRefill := by
  have hget (k : DocumentKey) : (r.put d).documentSet.getDocument k =
      if k = d.key then some d else r.documentSet.getDocument k :=
    r.documentSet.getDocument_insert d k
  obtain ⟨changeSet, hadd, hdescribes⟩ := h.describes.addChange ⟨d, type⟩
    (r.put d).documentSet.getDocument
    (((hget d.key).trans (if_pos rfl)).symm ▸ hchange) (fun k hk => (hget k).trans (if_neg hk))
  have hset : (r.put d).changeSet = r.changeSet := rfl
  refine ⟨{ r.put d with changeSet }, ?_, ⟨hdescribes, fun k => ?_⟩, rfl, rfl⟩
  · rw [ViewDocumentChanges.addChange, hset, hadd]
  · change k ∈ (r.put d).mutatedKeys ↔ _
    change _ ↔ ∃ d', (r.put d).documentSet.getDocument k = some d' ∧ _
    rw [hget]
    unfold ViewDocumentChanges.put
    by_cases hk : k = d.key
    · subst hk
      cases hlocal : d.hasLocalMutations <;> simp [hlocal]
    · rw [if_neg hk, ← h.mutated]
      cases hlocal : d.hasLocalMutations <;> simp [hk]

theorem Consistent.drop (h : Consistent base r) {d : Document}
    (hget : r.documentSet.getDocument d.key ≠ none) :
    ∃ r', (r.drop d.key).addChange ⟨d, .removed⟩ = .ok r' ∧ Consistent base r' ∧
      r'.documentSet = r.documentSet.erase d.key ∧ r'.needsRefill = r.needsRefill := by
  have hdrop (k : DocumentKey) : (r.drop d.key).documentSet.getDocument k =
      if k = d.key then none else r.documentSet.getDocument k :=
    r.documentSet.getDocument_erase d.key k
  obtain ⟨changeSet, hadd, hdescribes⟩ := h.describes.addChange ⟨d, .removed⟩
    (r.drop d.key).documentSet.getDocument
    (.removed d hget ((hdrop d.key).trans (if_pos rfl))) (fun k hk => (hdrop k).trans (if_neg hk))
  have hset : (r.drop d.key).changeSet = r.changeSet := rfl
  refine ⟨{ r.drop d.key with changeSet }, ?_, ⟨hdescribes, fun k => ?_⟩, rfl, rfl⟩
  · rw [ViewDocumentChanges.addChange, hset, hadd]
  · change k ∈ r.mutatedKeys.erase d.key ↔
      ∃ d', (r.drop d.key).documentSet.getDocument k = some d' ∧ _
    rw [hdrop]
    by_cases hk : k = d.key
    · simp [hk]
    · rw [if_neg hk, ← h.mutated, Finset.mem_erase]
      exact ⟨fun hmem => hmem.2, fun hmem => ⟨hk, hmem⟩⟩

end

/-- What a turn of the loop does, seen from the document of its key. `stays` is about full limits:
without a refill, the documents inside the limit have stayed inside. -/
structure Turn (old : DocumentSet q) (entry : MaybeDocument) (r r' : ViewDocumentChanges q) :
    Prop where
  other : ∀ k, k ≠ entry.key → r'.documentSet.getDocument k = r.documentSet.getDocument k
  here : Visited (old.getDocument entry.key) (entry.matching q)
    (r'.documentSet.getDocument entry.key)
  stays : r'.needsRefill = false → r.needsRefill = false ∧
    ∀ edge, View.edgeOfLimit old = some edge → ∀ o, old.getDocument entry.key = some o →
      ∃ v, r'.documentSet.getDocument entry.key = some v ∧
        (v.content = o.content ∨ View.outsideLimit q (some edge) v = false)
  calm : (∀ o, old.getDocument entry.key = some o →
      ∃ n, entry.matching q = some n ∧ KeepsOld o n) → r'.needsRefill = r.needsRefill

section

variable {base : DocumentKey → Option Document} {view : View q} {old : DocumentSet q}
  {entry : MaybeDocument} {r : ViewDocumentChanges q}

private theorem turn_idle
    (hkey : r.documentSet.getDocument entry.key = old.getDocument entry.key)
    (hhere : Visited (old.getDocument entry.key) (entry.matching q)
      (old.getDocument entry.key)) : Turn old entry r r where
  other _ _ := rfl
  here := hkey ▸ hhere
  stays hneeds := ⟨hneeds, fun _ _ o ho => ⟨o, hkey.trans ho, .inl rfl⟩⟩
  calm _ := rfl

private theorem visit_both (h : Consistent base r)
    (hkey : r.documentSet.getDocument entry.key = old.getDocument entry.key) {o n : Document}
    (ho : old.getDocument entry.key = some o) (hn : entry.matching q = some n) :
    ∃ r', view.visit old entry r = .ok r' ∧ Consistent base r' ∧ Turn old entry r r' := by
  have hnkey : n.key = entry.key := (MaybeDocument.key_of_matching hn).1
  have hokey : o.key = entry.key := DocumentSet.key_of_getDocument ho
  have hget : r.documentSet.getDocument n.key = some o := by rw [hnkey, hkey, ho]
  have hn' : entry.document?.filter q.matchesDocument = some n := hn
  unfold View.visit
  simp only [ho, hn']
  by_cases hdata : o.data = n.data
  · have hcontent : o.content = n.content := by
      rw [Document.content, Document.content, hokey, hnkey, hdata]
    rw [if_neg (not_not.mpr hdata)]
    split
    · obtain ⟨r', hadd, hconsistent, hset, hneeds⟩ :=
        h.put (d := n) (.metadata n o hget rfl hcontent)
      have hshown : r'.documentSet.getDocument entry.key = some n := by
        rw [hset, DocumentSet.getDocument_insert, if_pos hnkey.symm]
      refine ⟨r', hadd, hconsistent, ?_, .inl (hshown.trans hn.symm), ?_, ?_⟩
      · intro k hk
        rw [hset, DocumentSet.getDocument_insert, if_neg (hnkey ▸ hk)]
      · intro hfalse
        refine ⟨hneeds.symm.trans hfalse, fun _ _ o' ho' => ⟨n, hshown, .inl ?_⟩⟩
        obtain rfl : o = o' := Option.some.inj (ho.symm.trans ho')
        exact hcontent.symm
      · exact fun _ => hneeds
    · exact ⟨r, rfl, h, turn_idle hkey (.inr ⟨o, n, ho, hn, ho, .inl hdata⟩)⟩
  · rw [if_pos hdata]
    split
    · next hwait =>
      exact ⟨r, rfl, h, turn_idle hkey (.inr ⟨o, n, ho, hn, ho, .inr hwait⟩)⟩
    · next hwait =>
      obtain ⟨r', hadd, hconsistent, hset, hneeds⟩ :=
        h.put (d := n) (.modified n (by simp [hget]) rfl)
      rw [hadd]
      have hshown : r'.documentSet.getDocument entry.key = some n := by
        rw [hset, DocumentSet.getDocument_insert, if_pos hnkey.symm]
      refine ⟨_, rfl, ⟨hconsistent.describes, hconsistent.mutated⟩, ?_,
        .inl (hshown.trans hn.symm), ?_, ?_⟩
      · intro k hk
        change r'.documentSet.getDocument k = _
        rw [hset, DocumentSet.getDocument_insert, if_neg (hnkey ▸ hk)]
      · intro hfalse
        obtain ⟨hfalse, hinside⟩ := Bool.or_eq_false_iff.mp hfalse
        refine ⟨hneeds.symm.trans hfalse, fun edge hedge _ _ => ⟨n, hshown, .inr ?_⟩⟩
        rw [← hedge]
        exact hinside
      · intro hcalm
        obtain ⟨n', hn', hkeeps⟩ := hcalm o ho
        obtain rfl : n = n' := Option.some.inj (hn.symm.trans hn')
        exact (hkeeps.elim hdata hwait).elim

private theorem visit_added (h : Consistent base r)
    (hkey : r.documentSet.getDocument entry.key = old.getDocument entry.key) {n : Document}
    (ho : old.getDocument entry.key = none) (hn : entry.matching q = some n) :
    ∃ r', view.visit old entry r = .ok r' ∧ Consistent base r' ∧ Turn old entry r r' := by
  have hnkey : n.key = entry.key := (MaybeDocument.key_of_matching hn).1
  obtain ⟨r', hadd, hconsistent, hset, hneeds⟩ :=
    h.put (d := n) (.added n (by rw [hnkey, hkey, ho]) rfl)
  have hshown : r'.documentSet.getDocument entry.key = some n := by
    rw [hset, DocumentSet.getDocument_insert, if_pos hnkey.symm]
  refine ⟨r', ?_, hconsistent, ?_, .inl (hshown.trans hn.symm), ?_, ?_⟩
  · rw [MaybeDocument.matching] at hn
    unfold View.visit
    simp only [ho, hn]
    exact hadd
  · intro k hk
    rw [hset, DocumentSet.getDocument_insert, if_neg (hnkey ▸ hk)]
  · intro hfalse
    refine ⟨hneeds.symm.trans hfalse, fun _ _ o ho' => ?_⟩
    cases ho.symm.trans ho'
  · exact fun _ => hneeds

private theorem visit_removed (h : Consistent base r)
    (hkey : r.documentSet.getDocument entry.key = old.getDocument entry.key) {o : Document}
    (ho : old.getDocument entry.key = some o) (hn : entry.matching q = none) :
    ∃ r', view.visit old entry r = .ok r' ∧ Consistent base r' ∧ Turn old entry r r' := by
  have hokey : o.key = entry.key := DocumentSet.key_of_getDocument ho
  obtain ⟨r', hadd, hconsistent, hset, hneeds⟩ := h.drop (d := o) (by simp [hokey, hkey, ho])
  have hshown : r'.documentSet.getDocument entry.key = none := by
    rw [hset, DocumentSet.getDocument_erase, if_pos hokey.symm]
  refine ⟨{ r' with needsRefill := r'.needsRefill || (View.edgeOfLimit old).isSome }, ?_,
    ⟨hconsistent.describes, hconsistent.mutated⟩, ?_, .inl (hshown.trans hn.symm), ?_, ?_⟩
  · rw [MaybeDocument.matching] at hn
    rw [hokey] at hadd
    unfold View.visit
    simp only [ho, hn, hadd]
    rfl
  · intro k hk
    change r'.documentSet.getDocument k = _
    rw [hset, DocumentSet.getDocument_erase, if_neg (hokey ▸ hk)]
  · intro hfalse
    obtain ⟨hfalse, hnone⟩ := Bool.or_eq_false_iff.mp hfalse
    refine ⟨hneeds.symm.trans hfalse, fun edge hedge _ _ => ?_⟩
    simp [hedge] at hnone
  · intro hcalm
    obtain ⟨n, hn', -⟩ := hcalm o ho
    cases hn.symm.trans hn'

/-- A turn never fails. -/
theorem visit_turn (view : View q) (h : Consistent base r)
    (hkey : r.documentSet.getDocument entry.key = old.getDocument entry.key) :
    ∃ r', view.visit old entry r = .ok r' ∧ Consistent base r' ∧ Turn old entry r r' := by
  cases ho : old.getDocument entry.key with
  | none =>
      cases hn : entry.matching q with
      | none =>
          refine ⟨r, ?_, h, turn_idle hkey (.inl (ho.trans hn.symm))⟩
          rw [MaybeDocument.matching] at hn
          unfold View.visit
          simp only [ho, hn]
      | some n => exact visit_added h hkey ho hn
  | some o =>
      cases hn : entry.matching q with
      | none => exact visit_removed h hkey ho hn
      | some n => exact visit_both h hkey ho hn

end

/-- What the loop over all entries does. -/
structure Sweep (old : DocumentSet q) (entries : List MaybeDocument)
    (r r' : ViewDocumentChanges q) : Prop where
  other : ∀ k, k ∉ entries.map MaybeDocument.key →
    r'.documentSet.getDocument k = r.documentSet.getDocument k
  here : ∀ entry ∈ entries, Visited (old.getDocument entry.key) (entry.matching q)
    (r'.documentSet.getDocument entry.key)
  stays : r'.needsRefill = false → r.needsRefill = false ∧
    ∀ edge, View.edgeOfLimit old = some edge → ∀ entry ∈ entries, ∀ o,
      old.getDocument entry.key = some o → ∃ v, r'.documentSet.getDocument entry.key = some v ∧
        (v.content = o.content ∨ View.outsideLimit q (some edge) v = false)
  calm : (∀ entry ∈ entries, ∀ o, old.getDocument entry.key = some o →
      ∃ n, entry.matching q = some n ∧ KeepsOld o n) → r'.needsRefill = r.needsRefill

section

variable {base : DocumentKey → Option Document} {view : View q} {old : DocumentSet q}

private theorem Turn.sweep {entry : MaybeDocument} {entries : List MaybeDocument}
    {r mid r' : ViewDocumentChanges q} (hturn : Turn old entry r mid)
    (hsweep : Sweep old entries mid r') (hfresh : entry.key ∉ entries.map MaybeDocument.key) :
    Sweep old (entry :: entries) r r' := by
  have hkept := hsweep.other entry.key hfresh
  constructor
  · intro k hk
    obtain ⟨hentry, hentries⟩ := not_or.mp (mt List.mem_cons.mpr hk)
    rw [hsweep.other k hentries, hturn.other k hentry]
  · intro other hother
    rcases List.mem_cons.mp hother with rfl | hother
    · rw [hkept]
      exact hturn.here
    · exact hsweep.here other hother
  · intro hneeds
    obtain ⟨hmid, hinside⟩ := hsweep.stays hneeds
    obtain ⟨hr, hentry⟩ := hturn.stays hmid
    refine ⟨hr, fun edge hedge other hother o ho => ?_⟩
    rcases List.mem_cons.mp hother with rfl | hother
    · rw [hkept]
      exact hentry edge hedge o ho
    · exact hinside edge hedge other hother o ho
  · intro hcalm
    rw [hsweep.calm fun other hother => hcalm other (List.mem_cons_of_mem _ hother)]
    exact hturn.calm (hcalm entry List.mem_cons_self)

theorem visitAll_sweep (view : View q) (old : DocumentSet q) {entries : List MaybeDocument}
    {r : ViewDocumentChanges q} (hdistinct : Keyed.Distinct MaybeDocument.key entries)
    (h : Consistent base r)
    (hkeys : ∀ entry ∈ entries,
      r.documentSet.getDocument entry.key = old.getDocument entry.key) :
    ∃ r', view.visitAll old entries r = .ok r' ∧ Consistent base r' ∧ Sweep old entries r r' := by
  induction entries generalizing r with
  | nil =>
      refine ⟨r, rfl, h, fun _ _ => rfl, ?_, fun hneeds => ⟨hneeds, ?_⟩, fun _ => rfl⟩
      · intro entry hentry
        cases hentry
      · intro _ _ entry hentry
        cases hentry
  | cons entry entries ih =>
      obtain ⟨hfresh, hentries⟩ := List.nodup_cons.mp hdistinct
      obtain ⟨mid, hvisit, hmid, hturn⟩ := visit_turn view h (hkeys entry List.mem_cons_self)
      have hothers : ∀ other ∈ entries,
          mid.documentSet.getDocument other.key = old.getDocument other.key := by
        intro other hother
        rw [hturn.other, hkeys other (List.mem_cons_of_mem _ hother)]
        intro heq
        exact hfresh (heq ▸ List.mem_map_of_mem hother)
      obtain ⟨r', hall, hconsistent, hsweep⟩ := ih hentries hmid hothers
      refine ⟨r', ?_, hconsistent, hturn.sweep hsweep hfresh⟩
      rw [View.visitAll, hvisit]
      exact hall

/-- The documents that are left when `n` have been dropped at the end that the limit cuts. -/
private def leftAfter (type : LimitType) (n : Nat) (docs : List Document) : List Document :=
  match type with
  | .first => docs.take (docs.length - n)
  | .last => docs.drop n

private theorem dropExcess_left (type : LimitType) (n : Nat) {r : ViewDocumentChanges q}
    (h : Consistent base r) :
    ∃ r', r.dropExcess type n = .ok r' ∧ Consistent base r' ∧ r'.needsRefill = r.needsRefill ∧
      r'.documentSet.docs = leftAfter type n r.documentSet.docs := by
  induction n generalizing r with
  | zero => exact ⟨r, rfl, h, rfl, by cases type <;> simp [leftAfter]⟩
  | succ n ih =>
      have hdropped {d : Document} (hd : d ∈ r.documentSet.docs) (docs : List Document)
          (hdocs : (r.documentSet.erase d.key).docs = docs)
          (hleft : leftAfter type n docs = leftAfter type (n + 1) r.documentSet.docs) :
          ∃ r', ((r.drop d.key).addChange ⟨d, .removed⟩ >>= fun mid => mid.dropExcess type n) =
              .ok r' ∧ Consistent base r' ∧ r'.needsRefill = r.needsRefill ∧
            r'.documentSet.docs = leftAfter type (n + 1) r.documentSet.docs := by
        obtain ⟨mid, hadd, hmid, hset, hneeds⟩ :=
          h.drop (d := d) (by rw [DocumentSet.getDocument_of_mem hd]; simp)
        obtain ⟨r', hrest, hconsistent, hneeds', hdocs'⟩ := ih hmid
        refine ⟨r', ?_, hconsistent, hneeds'.trans hneeds, ?_⟩
        · rw [hadd]
          exact hrest
        · rw [hdocs', hset, hdocs, hleft]
      have hdistinct := r.documentSet.distinct
      cases type with
      | first =>
          rcases List.eq_nil_or_concat r.documentSet.docs with hnil | ⟨init, d, hconcat⟩
          · refine ⟨r, ?_, h, rfl, by simp [hnil, leftAfter]⟩
            simp [ViewDocumentChanges.dropExcess, DocumentSet.getLastDocument, hnil]
          · rw [List.concat_eq_append] at hconcat
            have hlast : r.documentSet.getLastDocument = some d := by
              rw [DocumentSet.getLastDocument, hconcat, List.getLast?_concat]
            rw [ViewDocumentChanges.dropExcess]
            simp only [hlast]
            refine hdropped (by simp [hconcat]) init ?_ ?_
            · rw [hconcat] at hdistinct
              change Keyed.erase Document.key r.documentSet.docs d.key = init
              rw [hconcat]
              exact Keyed.erase_concat hdistinct
            · rw [hconcat, leftAfter, leftAfter, List.length_append, List.length_singleton,
                Nat.add_sub_add_right, List.take_append_of_le_length (by omega)]
      | last =>
          cases hdocs : r.documentSet.docs with
          | nil =>
              refine ⟨r, ?_, h, rfl, by simp [hdocs, leftAfter]⟩
              simp [ViewDocumentChanges.dropExcess, DocumentSet.getFirstDocument, hdocs]
          | cons d docs =>
              have hfirst : r.documentSet.getFirstDocument = some d := by
                rw [DocumentSet.getFirstDocument, hdocs, List.head?_cons]
              rw [ViewDocumentChanges.dropExcess]
              simp only [hfirst]
              rw [← hdocs]
              refine hdropped (by simp [hdocs]) docs ?_ ?_
              · rw [hdocs] at hdistinct
                change Keyed.erase Document.key r.documentSet.docs d.key = docs
                rw [hdocs]
                exact Keyed.erase_cons hdistinct
              · rw [hdocs]
                rfl

private theorem limited_eq (q : Query) (docs : List Document) :
    q.limited docs =
      match q.limit with
      | none => docs
      | some ⟨type, count⟩ => leftAfter type (docs.length - count) docs := by
  unfold Query.limited
  cases q.limit with
  | none => rfl
  | some limit =>
      obtain ⟨type, count⟩ := limit
      cases type with
      | last => rfl
      | first =>
          simp only [leftAfter]
          by_cases hcount : count ≤ docs.length
          · rw [Nat.sub_sub_self hcount]
          · rw [List.take_of_length_le (by omega), List.take_of_length_le (by omega)]

/-- The outcome of a pass: the loop, then the limit. -/
structure Computed (q : Query) (start : ViewDocumentChanges q) (entries : List MaybeDocument)
    (base : DocumentKey → Option Document) (mid r : ViewDocumentChanges q) : Prop where
  consistent : Consistent base r
  sweep : Sweep start.documentSet entries start mid
  limited : r.documentSet.docs = q.limited mid.documentSet.docs
  needsRefill : r.needsRefill = mid.needsRefill

private theorem limit_computed (start : ViewDocumentChanges q) {mid : ViewDocumentChanges q}
    {entries : List MaybeDocument}
    (h : Consistent base mid) (hsweep : Sweep start.documentSet entries start mid) :
    ∃ r, mid.applyLimit = .ok r ∧ Computed q start entries base mid r := by
  have hlimited := limited_eq q mid.documentSet.docs
  unfold ViewDocumentChanges.applyLimit
  cases hlimit : q.limit with
  | none =>
      rw [hlimit] at hlimited
      exact ⟨mid, rfl, h, hsweep, hlimited.symm, rfl⟩
  | some limit =>
      obtain ⟨type, count⟩ := limit
      rw [hlimit] at hlimited
      obtain ⟨r, hdrop, hconsistent, hneeds, hdocs⟩ :=
        dropExcess_left type (mid.documentSet.size - count) h
      exact ⟨r, hdrop, hconsistent, hsweep, hdocs.trans hlimited.symm, hneeds⟩

theorem compute_batch (view : View q) (docChanges : MaybeDocumentMap)
    (hmutated : ∀ k, k ∈ view.mutatedKeys ↔
      ∃ d, view.documentSet.getDocument k = some d ∧ d.hasLocalMutations = true) :
    ∃ mid r, view.computeDocumentChanges docChanges none = .ok r ∧
      Computed q ⟨view.documentSet, .empty, view.mutatedKeys, false⟩ docChanges.entries
        view.documentSet.getDocument mid r := by
  have hstart : Consistent view.documentSet.getDocument
      (⟨view.documentSet, .empty, view.mutatedKeys, false⟩ : ViewDocumentChanges q) :=
    ⟨describesFrom_empty _, hmutated⟩
  obtain ⟨mid, hall, hmid, hsweep⟩ :=
    visitAll_sweep view view.documentSet docChanges.distinct hstart fun _ _ => rfl
  obtain ⟨r, hlimit, hcomputed⟩ := limit_computed
    ⟨view.documentSet, .empty, view.mutatedKeys, false⟩ hmid hsweep
  refine ⟨mid, r, ?_, hcomputed⟩
  simp [View.computeDocumentChanges, hall, hlimit, bind, Except.bind]

/-- The second pass, over all the matches of the local store, never fails when it brings nothing
but additions. -/
theorem compute_refill (view : View q) (docChanges : MaybeDocumentMap)
    {previous : ViewDocumentChanges q} (h : Consistent base previous)
    (hcalm : ∀ entry ∈ docChanges.entries, ∀ o,
      previous.documentSet.getDocument entry.key = some o →
        ∃ n, entry.matching q = some n ∧ KeepsOld o n) :
    ∃ mid r, view.computeDocumentChanges docChanges (some previous) = .ok r ∧
      Computed q { previous with needsRefill := false } docChanges.entries base mid r ∧
      r.needsRefill = false := by
  have hstart : Consistent base { previous with needsRefill := false } :=
    ⟨h.describes, h.mutated⟩
  obtain ⟨mid, hall, hmid, hsweep⟩ :=
    visitAll_sweep view previous.documentSet docChanges.distinct hstart fun _ _ => rfl
  obtain ⟨r, hlimit, hcomputed⟩ := limit_computed
    { previous with needsRefill := false } hmid hsweep
  have hneeds : r.needsRefill = false := hcomputed.needsRefill.trans (hsweep.calm hcalm)
  refine ⟨mid, r, ?_, hcomputed, hneeds⟩
  simp [View.computeDocumentChanges, hall, hlimit, hneeds, bind, Except.bind]

end

end BookShelf.Firestore
