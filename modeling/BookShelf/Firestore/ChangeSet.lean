import BookShelf.Firestore.DocumentSet

/-!
# Change sets

The changes of a view since its last snapshot, one for each key. A second change of a document
merges with the first; some pairs make no sense, and the client stops there.
-/

namespace BookShelf.Firestore

/-- `DocumentViewChange::Type`. -/
inductive ChangeType
  | removed
  | added
  | modified
  | metadata
deriving DecidableEq, Repr

/-- Changes of metadata become modifications for the user, and are sorted like them. -/
def ChangeType.position : ChangeType → Nat
  | .removed => 0
  | .added => 1
  | .modified => 2
  | .metadata => 2

structure DocumentViewChange where
  document : Document
  type : ChangeType
deriving DecidableEq, Repr

def DocumentViewChange.key (change : DocumentViewChange) : DocumentKey :=
  change.document.key

/-- The assertions of the client that end the process, and a null pointer (`mirrorNotFound`). -/
inductive HardFail
  | unsupportedCombination (new old : ChangeType)
  | refilledNeedsRefill
  | needsRefill
  | modifiedNotFound
  | noInitialSnapshot
  | onlineStateChangesLimbo
  | snapshotWithoutChanges
  | initialEventRaised
  | waitingNotFromCache
  | brandNewListenerRaised
  | alreadyListening
  | notListening
  | mirrorNotFound
  | firstOrderByMismatch
  | limboMultipleChanges
  | limboModifiedWithoutAdd
  | limboRemovedWithoutAdd
deriving DecidableEq, Repr

/-- The map from keys to changes. The order in which it keeps them is not observed: `applyChanges`
sorts them. -/
structure DocumentViewChangeSet where
  changes : List DocumentViewChange
  distinct : Keyed.Distinct DocumentViewChange.key changes

namespace DocumentViewChangeSet

def empty : DocumentViewChangeSet :=
  ⟨[], List.nodup_nil⟩

def find (set : DocumentViewChangeSet) (key : DocumentKey) : Option DocumentViewChange :=
  Keyed.lookup DocumentViewChange.key set.changes key

def erase (set : DocumentViewChangeSet) (key : DocumentKey) : DocumentViewChangeSet where
  changes := Keyed.erase DocumentViewChange.key set.changes key
  distinct := set.distinct.sublist (Keyed.erase_sublist _ _)

def insert (set : DocumentViewChangeSet) (change : DocumentViewChange) :
    DocumentViewChangeSet where
  changes := change :: Keyed.erase DocumentViewChange.key set.changes change.key
  distinct := Keyed.distinct_insert set.distinct (List.Perm.refl _)

def addChange (set : DocumentViewChangeSet) (change : DocumentViewChange) :
    Except HardFail DocumentViewChangeSet :=
  match set.find change.key with
  | none => .ok (set.insert change)
  | some old =>
      if change.type ≠ .added ∧ old.type = .metadata then .ok (set.insert change)
      else if change.type = .metadata ∧ old.type ≠ .removed then
        .ok (set.insert ⟨change.document, old.type⟩)
      else if change.type = .modified ∧ old.type = .modified then
        .ok (set.insert ⟨change.document, .modified⟩)
      else if change.type = .modified ∧ old.type = .added then
        .ok (set.insert ⟨change.document, .added⟩)
      else if change.type = .removed ∧ old.type = .added then .ok (set.erase change.key)
      else if change.type = .removed ∧ old.type = .modified then
        .ok (set.insert ⟨old.document, .removed⟩)
      else if change.type = .added ∧ old.type = .removed then
        .ok (set.insert ⟨change.document, .modified⟩)
      else .error (.unsupportedCombination change.type old.type)

@[simp]
theorem find_empty (key : DocumentKey) : empty.find key = none :=
  rfl

theorem find_erase (set : DocumentViewChangeSet) (key k : DocumentKey) :
    (set.erase key).find k = if k = key then none else set.find k :=
  Keyed.lookup_erase _ _ _

theorem find_insert (set : DocumentViewChangeSet) (change : DocumentViewChange)
    (k : DocumentKey) :
    (set.insert change).find k = if k = change.key then some change else set.find k :=
  Keyed.lookup_insert set.distinct (List.Perm.refl _) k

theorem key_of_find {set : DocumentViewChangeSet} {key : DocumentKey}
    {change : DocumentViewChange} (h : set.find key = some change) : change.key = key :=
  Keyed.key_of_lookup h

end DocumentViewChangeSet

/-- What a change says about the document before and after it. No change leaves the content as it
is; so does one of metadata. -/
inductive Describes (old new : Option Document) : Option DocumentViewChange → Prop
  | unchanged (hcontent : old.map Document.content = new.map Document.content) :
      Describes old new none
  | removed (d : Document) (hold : old ≠ none) (hnew : new = none) :
      Describes old new (some ⟨d, .removed⟩)
  | added (d : Document) (hold : old = none) (hnew : new = some d) :
      Describes old new (some ⟨d, .added⟩)
  | modified (d : Document) (hold : old ≠ none) (hnew : new = some d) :
      Describes old new (some ⟨d, .modified⟩)
  | metadata (d earlier : Document) (hold : old = some earlier) (hnew : new = some d)
      (hcontent : earlier.content = d.content) : Describes old new (some ⟨d, .metadata⟩)

/-- The outcome of merging `change` into `set`: `merged` now stands at its key. -/
private def Merges (set : DocumentViewChangeSet) (change : DocumentViewChange)
    (merged : Option DocumentViewChange) : Prop :=
  ∃ set', set.addChange change = .ok set' ∧
    ∀ k, set'.find k = if k = change.key then merged else set.find k

private theorem merges_insert {set : DocumentViewChangeSet} {change merged : DocumentViewChange}
    (hadd : set.addChange change = .ok (set.insert merged)) (hkey : merged.key = change.key) :
    Merges set change (some merged) := by
  refine ⟨_, hadd, fun k => ?_⟩
  rw [set.find_insert, hkey]

private theorem Describes.merges {old mid new : Option Document} {set : DocumentViewChangeSet}
    {change : DocumentViewChange} (h : Describes old mid (set.find change.key))
    (hchange : Describes mid new (some change)) :
    ∃ merged, Merges set change merged ∧ Describes old new merged := by
  cases hfind : set.find change.key with
  | none =>
      rw [hfind] at h
      obtain ⟨hcontent⟩ := h
      have hinsert : set.addChange change = .ok (set.insert change) := by
        simp only [DocumentViewChangeSet.addChange, hfind]
      refine ⟨some change, merges_insert hinsert rfl, ?_⟩
      have hnone : old = none ↔ mid = none := by
        rw [← Option.map_eq_none_iff (f := Document.content), hcontent, Option.map_eq_none_iff]
      cases hchange with
      | removed d hold hnew => exact .removed d (fun h => hold (hnone.mp h)) hnew
      | added d hold hnew => exact .added d (hnone.mpr hold) hnew
      | modified d hold hnew => exact .modified d (fun h => hold (hnone.mp h)) hnew
      | metadata d earlier hold hnew hdata =>
          rw [hold, Option.map_some] at hcontent
          obtain ⟨first, hfirst, hfirstContent⟩ := Option.map_eq_some_iff.mp hcontent
          exact .metadata d first hfirst hnew (hfirstContent.trans hdata)
  | some earlier =>
      have hkey : earlier.key = change.key := DocumentViewChangeSet.key_of_find hfind
      rw [hfind] at h
      obtain ⟨document, type⟩ := change
      cases h with
      | removed d hold hnew =>
          subst hnew
          cases hchange with
          | added _ _ hnew =>
              refine ⟨some ⟨document, .modified⟩, merges_insert ?_ rfl, .modified _ hold hnew⟩
              simp [DocumentViewChangeSet.addChange, hfind]
          | removed _ hmid => exact absurd rfl hmid
          | modified _ hmid => exact absurd rfl hmid
          | metadata _ _ hmid => cases hmid
      | added d hold hnew =>
          subst hnew
          cases hchange with
          | added _ hmid => cases hmid
          | removed _ _ hnew =>
              refine ⟨none, ⟨set.erase _, ?_, set.find_erase _⟩, .unchanged (by rw [hold, hnew])⟩
              simp [DocumentViewChangeSet.addChange, hfind]
          | modified _ _ hnew =>
              refine ⟨some ⟨document, .added⟩, merges_insert ?_ rfl, .added _ hold hnew⟩
              simp [DocumentViewChangeSet.addChange, hfind]
          | metadata _ _ _ hnew =>
              refine ⟨some ⟨document, .added⟩, merges_insert ?_ rfl, .added _ hold hnew⟩
              simp [DocumentViewChangeSet.addChange, hfind]
      | modified d hold hnew =>
          subst hnew
          cases hchange with
          | added _ hmid => cases hmid
          | removed _ _ hnew =>
              refine ⟨some ⟨d, .removed⟩, merges_insert ?_ hkey, .removed _ hold hnew⟩
              simp [DocumentViewChangeSet.addChange, hfind]
          | modified _ _ hnew =>
              refine ⟨some ⟨document, .modified⟩, merges_insert ?_ rfl, .modified _ hold hnew⟩
              simp [DocumentViewChangeSet.addChange, hfind]
          | metadata _ _ _ hnew =>
              refine ⟨some ⟨document, .modified⟩, merges_insert ?_ rfl, .modified _ hold hnew⟩
              simp [DocumentViewChangeSet.addChange, hfind]
      | metadata d first hold hnew hcontent =>
          subst hold
          cases hchange with
          | added _ hmid => simp [hnew] at hmid
          | removed _ _ hnew =>
              refine ⟨some ⟨document, .removed⟩, merges_insert ?_ rfl, .removed _ (by simp) hnew⟩
              simp [DocumentViewChangeSet.addChange, hfind]
          | modified _ _ hnew =>
              refine ⟨some ⟨document, .modified⟩, merges_insert ?_ rfl, .modified _ (by simp) hnew⟩
              simp [DocumentViewChangeSet.addChange, hfind]
          | metadata _ earlier' hmid hnew' hcontent' =>
              refine ⟨some ⟨document, .metadata⟩, merges_insert ?_ rfl,
                .metadata _ first rfl hnew' ?_⟩
              · simp [DocumentViewChangeSet.addChange, hfind]
              · obtain rfl : d = earlier' := Option.some.inj (hnew.symm.trans hmid)
                exact hcontent.trans hcontent'

/-- The change set describes the way from `old` to `new`, key by key. -/
def DocumentViewChangeSet.DescribesFrom (set : DocumentViewChangeSet)
    (old new : DocumentKey → Option Document) : Prop :=
  ∀ k, Describes (old k) (new k) (set.find k)

theorem describesFrom_empty (docs : DocumentKey → Option Document) :
    DocumentViewChangeSet.empty.DescribesFrom docs docs :=
  fun _ => .unchanged rfl

theorem DocumentViewChangeSet.DescribesFrom.addChange {set : DocumentViewChangeSet}
    {old mid : DocumentKey → Option Document} (h : set.DescribesFrom old mid)
    (change : DocumentViewChange) (new : DocumentKey → Option Document)
    (hchange : Describes (mid change.key) (new change.key) (some change))
    (hother : ∀ k, k ≠ change.key → new k = mid k) :
    ∃ set', set.addChange change = .ok set' ∧ set'.DescribesFrom old new := by
  obtain ⟨merged, ⟨set', hadd, hfind⟩, hmerged⟩ := (h change.key).merges hchange
  refine ⟨set', hadd, fun k => ?_⟩
  rw [hfind]
  by_cases hk : k = change.key
  · rw [if_pos hk, hk]
    exact hmerged
  · rw [if_neg hk, hother k hk]
    exact h k

end BookShelf.Firestore
