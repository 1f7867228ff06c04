import BookShelf.Firestore.Limbo

/-!
# Limbo documents take turns

No more documents are asked about than allowed, nobody waits while a slot is free, and a document
is asked about only as long as some target counts it among its results.
-/

namespace BookShelf.Firestore

namespace Limbo

/-- The slots are taken by different documents, each under an id of its own; the documents of the
queue wait for one. -/
structure Ready (limbo : Limbo) (queue : List DocumentKey) : Prop where
  bounded : limbo.activeLimboTargetsByKey.keys.length ≤ maxConcurrentLimboResolutions
  waiting : queue.Nodup
  apart : ∀ key ∈ queue, key ∉ limbo.activeLimboTargetsByKey
  paired : ∀ key id, limbo.activeLimboTargetsByKey.lookup key = some id ↔
    ∃ received, limbo.activeLimboResolutionsByTarget.lookup id = some ⟨key, received⟩
  fresh : ∀ id ∈ limbo.activeLimboResolutionsByTarget, id < limbo.nextTargetId

/-- Nobody waits while a slot is free. -/
structure Inv (limbo : Limbo) : Prop where
  ready : limbo.Ready limbo.enqueuedLimboResolutions
  full : limbo.enqueuedLimboResolutions ≠ [] →
    maxConcurrentLimboResolutions ≤ limbo.activeLimboTargetsByKey.keys.length

/-- The document is being resolved, or waits for it. -/
def Asks (limbo : Limbo) (key : DocumentKey) : Prop :=
  key ∈ limbo.activeLimboTargetsByKey ∨ key ∈ limbo.enqueuedLimboResolutions

theorem inv_initial : initial.Inv := by
  refine ⟨⟨Nat.zero_le _, List.nodup_nil, ?_, ?_, ?_⟩, fun hne => absurd rfl hne⟩
  · intro key hkey
    cases hkey
  · intro key id
    simp [initial]
  · intro id hid
    exact absurd hid (AList.notMem_empty id)

theorem not_asks_initial (key : DocumentKey) : ¬ initial.Asks key := by
  rintro (hactive | hwaiting)
  · exact AList.notMem_empty key hactive
  · cases hwaiting

private theorem Ready.resolve {limbo : Limbo} {key : DocumentKey} {keys : List DocumentKey}
    (h : limbo.Ready (key :: keys))
    (hfree : limbo.activeLimboTargetsByKey.keys.length < maxConcurrentLimboResolutions) :
    (limbo.resolve key).Ready keys := by
  obtain ⟨hkey, hkeys⟩ := List.nodup_cons.mp h.waiting
  have hidle : key ∉ limbo.activeLimboTargetsByKey := h.apart key List.mem_cons_self
  have hunused : limbo.activeLimboResolutionsByTarget.lookup limbo.nextTargetId = none := by
    rw [AList.lookup_eq_none]
    intro hid
    exact absurd (h.fresh _ hid) (Nat.lt_irrefl _)
  refine ⟨?_, hkeys, ?_, ?_, ?_⟩
  · change (limbo.activeLimboTargetsByKey.insert key _).keys.length ≤ _
    rw [AList.insert_of_notMem hidle]
    exact hfree
  · intro other hother
    change other ∉ limbo.activeLimboTargetsByKey.insert key _
    rw [AList.mem_insert]
    rintro (rfl | hactive)
    · exact hkey hother
    · exact h.apart other (List.mem_cons_of_mem _ hother) hactive
  · intro other id
    change (limbo.activeLimboTargetsByKey.insert key limbo.nextTargetId).lookup other = some id ↔
      ∃ received, (limbo.activeLimboResolutionsByTarget.insert limbo.nextTargetId
        ⟨key, false⟩).lookup id = some ⟨other, received⟩
    by_cases hid : id = limbo.nextTargetId
    · subst hid
      rw [AList.lookup_insert]
      by_cases hother : other = key
      · subst hother
        rw [AList.lookup_insert]
        exact iff_of_true rfl ⟨false, rfl⟩
      · rw [AList.lookup_insert_ne hother, h.paired, hunused]
        simp [Ne.symm hother]
    · rw [AList.lookup_insert_ne hid, ← h.paired]
      by_cases hother : other = key
      · subst hother
        rw [AList.lookup_insert, AList.lookup_eq_none.mpr hidle]
        simp [Ne.symm hid]
      · rw [AList.lookup_insert_ne hother]
  · intro id hid
    change id ∈ limbo.activeLimboResolutionsByTarget.insert limbo.nextTargetId _ at hid
    change id < limbo.nextTargetId + 2
    rcases (AList.mem_insert _).mp hid with rfl | hid
    · omega
    · have hlt := h.fresh id hid
      omega

section

variable {limbo : Limbo}

theorem refs_pump (keys : List DocumentKey) (limbo : Limbo) :
    (pump keys limbo).refs = limbo.refs := by
  induction keys generalizing limbo with
  | nil => rfl
  | cons key keys ih =>
      unfold pump
      split
      · exact ih (limbo.resolve key)
      · rfl

theorem asks_pump (keys : List DocumentKey) (limbo : Limbo) (key : DocumentKey) :
    (pump keys limbo).Asks key ↔ key ∈ limbo.activeLimboTargetsByKey ∨ key ∈ keys := by
  induction keys generalizing limbo with
  | nil => rfl
  | cons first keys ih =>
      unfold pump
      split
      · rw [ih]
        change key ∈ limbo.activeLimboTargetsByKey.insert first _ ∨ _ ↔ _
        rw [AList.mem_insert, List.mem_cons]
        tauto
      · rfl

private theorem Ready.pump {keys : List DocumentKey} (h : limbo.Ready keys) :
    (pump keys limbo).Inv := by
  induction keys generalizing limbo with
  | nil => exact ⟨⟨h.bounded, h.waiting, h.apart, h.paired, h.fresh⟩, fun hne => absurd rfl hne⟩
  | cons key keys ih =>
      unfold Limbo.pump
      split
      · next hfree => exact ih (h.resolve hfree)
      · next hfull =>
        exact ⟨⟨h.bounded, h.waiting, h.apart, h.paired, h.fresh⟩, fun _ => not_lt.mp hfull⟩

theorem asks_trackLimboChange (limbo : Limbo) (key other : DocumentKey) :
    (limbo.trackLimboChange key).Asks other ↔ limbo.Asks other ∨ other = key := by
  unfold trackLimboChange
  split
  · next hasks =>
    constructor
    · exact .inl
    · rintro (hother | rfl)
      · exact hother
      · exact hasks
  · rw [pumpEnqueuedLimboResolutions, asks_pump, List.mem_append, List.mem_singleton, ← or_assoc]
    rfl

theorem refs_trackLimboChange (limbo : Limbo) (key : DocumentKey) :
    (limbo.trackLimboChange key).refs = limbo.refs := by
  unfold trackLimboChange
  split
  · rfl
  · exact refs_pump _ _

theorem Inv.trackLimboChange (h : limbo.Inv) (key : DocumentKey) :
    (limbo.trackLimboChange key).Inv := by
  unfold Limbo.trackLimboChange
  split
  · exact h
  · next hnew =>
    rw [not_or] at hnew
    apply Ready.pump
    refine ⟨h.ready.bounded, ?_, ?_, h.ready.paired, h.ready.fresh⟩
    · exact List.nodup_append.mpr ⟨h.ready.waiting, List.nodup_singleton key, by
        intro other hother other' hother' heq
        rw [List.mem_singleton.mp hother'] at heq
        exact hnew.2 (heq ▸ hother)⟩
    · intro other hother
      rcases List.mem_append.mp hother with hother | hother
      · exact h.ready.apart other hother
      · rw [List.mem_singleton.mp hother]
        exact hnew.1

private theorem Ready.erase {queue : List DocumentKey} {key : DocumentKey} {id : Nat}
    (h : limbo.Ready queue) (hid : limbo.activeLimboTargetsByKey.lookup key = some id) :
    { limbo with
      activeLimboTargetsByKey := limbo.activeLimboTargetsByKey.erase key
      activeLimboResolutionsByTarget := limbo.activeLimboResolutionsByTarget.erase id }.Ready
        queue := by
  obtain ⟨received, hresolution⟩ := (h.paired key id).mp hid
  refine ⟨?_, h.waiting, ?_, ?_, ?_⟩
  · have hsub := (List.kerase_sublist key limbo.activeLimboTargetsByKey.entries).map Sigma.fst
    exact hsub.length_le.trans h.bounded
  · intro other hother hactive
    exact h.apart other hother (AList.mem_erase.mp hactive).2
  · intro other id'
    change (limbo.activeLimboTargetsByKey.erase key).lookup other = some id' ↔
      ∃ received, (limbo.activeLimboResolutionsByTarget.erase id).lookup id' =
        some ⟨other, received⟩
    by_cases hother : other = key
    · subst hother
      rw [AList.lookup_erase]
      refine iff_of_false (by simp) ?_
      intro ⟨received', hlookup⟩
      by_cases hid' : id' = id
      · subst hid'
        rw [AList.lookup_erase] at hlookup
        cases hlookup
      · rw [AList.lookup_erase_ne hid'] at hlookup
        have hsame := (h.paired other id').mpr ⟨received', hlookup⟩
        exact hid' (Option.some.inj (hsame.symm.trans hid))
    · rw [AList.lookup_erase_ne hother, h.paired]
      by_cases hid' : id' = id
      · subst hid'
        rw [AList.lookup_erase, hresolution]
        simp [Ne.symm hother]
      · rw [AList.lookup_erase_ne hid']
  · intro id' hid'
    exact h.fresh id' (AList.mem_erase.mp hid').2

theorem Inv.finish (h : limbo.Inv) {key : DocumentKey} {id : Nat}
    (hid : limbo.activeLimboTargetsByKey.lookup key = some id) : (limbo.finish id key).Inv :=
  (h.ready.erase hid).pump

theorem asks_finish (limbo : Limbo) (id : Nat) (key other : DocumentKey) :
    (limbo.finish id key).Asks other ↔
      (other ≠ key ∧ other ∈ limbo.activeLimboTargetsByKey) ∨
        other ∈ limbo.enqueuedLimboResolutions := by
  rw [Limbo.finish, pumpEnqueuedLimboResolutions, asks_pump]
  change other ∈ limbo.activeLimboTargetsByKey.erase key ∨ _ ↔ _
  rw [AList.mem_erase]

theorem asks_removeLimboTarget (limbo : Limbo) (key other : DocumentKey) :
    (limbo.removeLimboTarget key).Asks other ↔ other ≠ key ∧ limbo.Asks other := by
  have hqueue : other ∈ limbo.enqueuedLimboResolutions.filter (fun other => other ≠ key) ↔
      other ≠ key ∧ other ∈ limbo.enqueuedLimboResolutions := by
    rw [List.mem_filter, decide_eq_true_eq, and_comm]
  unfold removeLimboTarget
  simp only
  split
  · next hnone =>
    have hidle : key ∉ limbo.activeLimboTargetsByKey := AList.lookup_eq_none.mp hnone
    change other ∈ limbo.activeLimboTargetsByKey ∨
      other ∈ limbo.enqueuedLimboResolutions.filter (fun other => other ≠ key) ↔ _
    rw [hqueue, Asks, and_or_left]
    refine or_congr_left ⟨fun hother => ⟨?_, hother⟩, And.right⟩
    rintro rfl
    exact hidle hother
  · rw [asks_finish, hqueue, Asks, and_or_left]

theorem refs_removeLimboTarget (limbo : Limbo) (key : DocumentKey) :
    (limbo.removeLimboTarget key).refs = limbo.refs := by
  unfold removeLimboTarget
  simp only
  split
  · rfl
  · exact refs_pump _ _

theorem Inv.removeLimboTarget (h : limbo.Inv) (key : DocumentKey) :
    (limbo.removeLimboTarget key).Inv := by
  have herased : { limbo with
      enqueuedLimboResolutions :=
        limbo.enqueuedLimboResolutions.filter fun other => other ≠ key }.Inv := by
    refine ⟨⟨h.ready.bounded, h.ready.waiting.filter _, ?_, h.ready.paired, h.ready.fresh⟩, ?_⟩
    · intro other hother
      exact h.ready.apart other (List.mem_of_mem_filter hother)
    · intro hne
      apply h.full
      intro hnil
      apply hne
      change limbo.enqueuedLimboResolutions.filter (fun other => other ≠ key) = []
      rw [hnil]
      rfl
  unfold Limbo.removeLimboTarget
  simp only
  split
  · exact herased
  · next hid => exact herased.finish hid

theorem refs_release (limbo : Limbo) (key : DocumentKey) :
    (limbo.release key).refs = limbo.refs := by
  unfold release
  split
  · rfl
  · exact refs_removeLimboTarget limbo key

theorem asks_release {key other : DocumentKey} (h : (limbo.release key).Asks other) :
    limbo.Asks other ∧ (other = key → limbo.containsKey other) := by
  unfold release at h
  split at h
  · next hcontains => exact ⟨h, fun heq => heq ▸ hcontains⟩
  · obtain ⟨hne, hasks⟩ := (asks_removeLimboTarget limbo key other).mp h
    exact ⟨hasks, fun heq => absurd heq hne⟩

theorem Inv.release (h : limbo.Inv) (key : DocumentKey) : (limbo.release key).Inv := by
  unfold Limbo.release
  split
  · exact h
  · exact h.removeLimboTarget key

theorem Inv.of_refs (h : limbo.Inv) (refs : Finset (DocumentKey × Target)) :
    { limbo with refs }.Inv :=
  ⟨⟨h.ready.bounded, h.ready.waiting, h.ready.apart, h.ready.paired, h.ready.fresh⟩, h.full⟩

theorem refs_foldl_release (keys : List DocumentKey) (limbo : Limbo) :
    (keys.foldl release limbo).refs = limbo.refs := by
  induction keys generalizing limbo with
  | nil => rfl
  | cons key keys ih => rw [List.foldl_cons, ih, refs_release]

theorem asks_foldl_release (keys : List DocumentKey) {other : DocumentKey}
    (h : (keys.foldl release limbo).Asks other) :
    limbo.Asks other ∧ (other ∈ keys → limbo.containsKey other) := by
  induction keys generalizing limbo with
  | nil => exact ⟨h, fun hmem => absurd hmem List.not_mem_nil⟩
  | cons key keys ih =>
      obtain ⟨hasks, hcontains⟩ := ih h
      rw [containsKey, refs_release] at hcontains
      obtain ⟨hasks, hkey⟩ := asks_release hasks
      refine ⟨hasks, fun hmem => ?_⟩
      rcases List.mem_cons.mp hmem with heq | hmem
      · exact hkey heq
      · exact hcontains hmem

theorem Inv.foldl_release (h : limbo.Inv) (keys : List DocumentKey) :
    (keys.foldl Limbo.release limbo).Inv := by
  induction keys generalizing limbo with
  | nil => exact h
  | cons key keys ih => exact ih (h.release key)

end

/-- Every document that is asked about is in limbo for a target, and every such target is listened
to. -/
structure Sound (limbo : Limbo) (listened : Target → Prop) : Prop where
  inv : limbo.Inv
  referenced : ∀ key, limbo.Asks key → limbo.containsKey key
  listened : ∀ ref ∈ limbo.refs, listened ref.2

section

variable {limbo : Limbo} {listened : Target → Prop}

theorem sound_initial (listened : Target → Prop) : initial.Sound listened := by
  refine ⟨inv_initial, ?_, ?_⟩
  · intro key hasks
    exact absurd hasks (not_asks_initial key)
  · intro ref href
    cases href

theorem Sound.mono {listened' : Target → Prop} (h : limbo.Sound listened)
    (hsub : ∀ target, listened target → listened' target) : limbo.Sound listened' :=
  ⟨h.inv, h.referenced, fun ref href => hsub ref.2 (h.listened ref href)⟩

private theorem Sound.removed (h : limbo.Sound listened) (key : DocumentKey) (target : Target) :
    ((limbo.removeReference key target).release key).Sound listened := by
  refine ⟨(h.inv.of_refs _).release key, ?_, ?_⟩
  · intro other hasks
    rw [containsKey, refs_release]
    obtain ⟨hasks, hkey⟩ := asks_release hasks
    by_cases heq : other = key
    · exact hkey heq
    · obtain ⟨ref, href, hother⟩ := h.referenced other hasks
      refine ⟨ref, Finset.mem_erase.mpr ⟨?_, href⟩, hother⟩
      intro hsame
      rw [hsame] at hother
      exact heq hother.symm
  · intro ref href
    rw [refs_release] at href
    exact h.listened ref (Finset.mem_of_mem_erase href)

private theorem Sound.added (h : limbo.Sound listened) (key : DocumentKey) {target : Target}
    (htarget : listened target) :
    ((limbo.addReference key target).trackLimboChange key).Sound listened := by
  refine ⟨(h.inv.of_refs _).trackLimboChange key, ?_, ?_⟩
  · intro other hasks
    rw [containsKey, refs_trackLimboChange]
    rcases (asks_trackLimboChange _ _ _).mp hasks with hasks | rfl
    · obtain ⟨ref, href, hother⟩ := h.referenced other hasks
      exact ⟨ref, Finset.mem_insert_of_mem href, hother⟩
    · exact ⟨(other, target), Finset.mem_insert_self _ _, rfl⟩
  · intro ref href
    rw [refs_trackLimboChange] at href
    rcases Finset.mem_insert.mp href with rfl | href
    · exact htarget
    · exact h.listened ref href

theorem Sound.updateTrackedLimboDocuments (h : limbo.Sound listened)
    (limboRemoved limboAdded : Finset DocumentKey) {target : Target} (htarget : listened target) :
    (limbo.updateTrackedLimboDocuments limboRemoved limboAdded target).Sound listened := by
  have hremoved (keys : List DocumentKey) : (keys.foldl
      (fun limbo key => (limbo.removeReference key target).release key) limbo).Sound listened := by
    induction keys generalizing limbo with
    | nil => exact h
    | cons key keys ih => exact ih (h.removed key target)
  have hadded (keys : List DocumentKey) (limbo : Limbo) (h : limbo.Sound listened) : (keys.foldl
      (fun limbo key => (limbo.addReference key target).trackLimboChange key) limbo).Sound
        listened := by
    induction keys generalizing limbo with
    | nil => exact h
    | cons key keys ih => exact ih _ (h.added key htarget)
  exact hadded _ _ (hremoved _)

theorem Sound.cleanupTarget (h : limbo.Sound listened) (target : Target) :
    (limbo.cleanupTarget target).Sound fun target' => listened target' ∧ target' ≠ target := by
  refine ⟨(h.inv.of_refs _).foldl_release _, ?_, ?_⟩
  · intro key hasks
    obtain ⟨hasks, hreferenced⟩ := asks_foldl_release _ hasks
    rw [Limbo.cleanupTarget, containsKey, refs_foldl_release]
    obtain ⟨⟨key', target'⟩, href, rfl⟩ := h.referenced key hasks
    by_cases htarget : target' = target
    · apply hreferenced
      rw [mem_inOrder, referencedKeys, Finset.mem_image]
      exact ⟨(key', target'), Finset.mem_filter.mpr ⟨href, htarget⟩, rfl⟩
    · exact ⟨(key', target'), Finset.mem_filter.mpr ⟨href, htarget⟩, rfl⟩
  · intro ref href
    rw [Limbo.cleanupTarget, refs_foldl_release] at href
    obtain ⟨href, htarget⟩ := Finset.mem_filter.mp href
    exact ⟨h.listened ref href, htarget⟩

theorem Sound.reject (h : limbo.Sound listened) (id : Nat) : (limbo.reject id).Sound listened := by
  unfold Limbo.reject
  split
  · exact h
  · next resolution hid =>
    obtain ⟨key, received⟩ := resolution
    have hrefs : (limbo.finish id key).refs = limbo.refs := refs_pump _ _
    refine ⟨h.inv.finish ((h.inv.ready.paired key id).mpr ⟨received, hid⟩), ?_, ?_⟩
    · intro other hasks
      rw [containsKey, hrefs]
      exact h.referenced other (((asks_finish _ _ _ _).mp hasks).imp_left And.right)
    · intro ref href
      rw [hrefs] at href
      exact h.listened ref href

end

end Limbo

/-- The assertions about what Watch says of the documents in limbo. -/
def HardFail.OfLimbo (fail : HardFail) : Prop :=
  fail = .limboMultipleChanges ∨ fail = .limboModifiedWithoutAdd ∨ fail = .limboRemovedWithoutAdd

namespace LimboResolution

variable {resolution : LimboResolution} {change : TargetChange}

private theorem receive_ok (h : resolution.Expects change) :
    ∃ received, resolution.receive change = .ok ⟨resolution.key, received⟩ := by
  obtain ⟨hone, hadded⟩ := h
  unfold receive
  rw [if_pos hone]
  split
  · exact ⟨true, rfl⟩
  · split
    · next hmodified =>
      rw [if_pos (hadded (.inl hmodified))]
      exact ⟨resolution.documentReceived, rfl⟩
    · split
      · next hremoved =>
        rw [if_pos (hadded (.inr hremoved))]
        exact ⟨false, rfl⟩
      · exact ⟨resolution.documentReceived, rfl⟩

private theorem receive_error (h : ¬ resolution.Expects change) :
    ∃ fail, resolution.receive change = .error fail ∧ fail.OfLimbo := by
  unfold receive
  split
  · next hone =>
    have hparts : (change.modifiedDocuments ≠ ∅ ∨ change.removedDocuments ≠ ∅) ∧
        resolution.documentReceived ≠ true := by
      by_contra hnot
      exact h ⟨hone, fun hsome => by_contra fun hreceived => hnot ⟨hsome, hreceived⟩⟩
    obtain ⟨hsome, hreceived⟩ := hparts
    split
    · next hadded =>
      have hadded := Finset.card_pos.mpr (Finset.nonempty_iff_ne_empty.mpr hadded)
      rcases hsome with hsome | hsome
      · have hmodified := Finset.card_pos.mpr (Finset.nonempty_iff_ne_empty.mpr hsome)
        omega
      · have hremoved := Finset.card_pos.mpr (Finset.nonempty_iff_ne_empty.mpr hsome)
        omega
    · split
      · exact ⟨_, rfl, .inr (.inl rfl)⟩
      · next hmodified =>
        rw [if_pos (hsome.resolve_left hmodified)]
        exact ⟨_, rfl, .inr (.inr rfl)⟩
  · exact ⟨_, rfl, .inl rfl⟩

end LimboResolution

namespace Limbo

section

variable {limbo : Limbo} {targetChanges : Nat → Option TargetChange}

private theorem expects_lookup : limbo.Expects targetChanges ↔
    ∀ id resolution, limbo.activeLimboResolutionsByTarget.lookup id = some resolution →
      ∀ change ∈ targetChanges id, resolution.Expects change := by
  constructor
  · intro h id resolution hid
    exact h ⟨id, resolution⟩ (AList.mem_lookup_iff.mp hid)
  · intro h entry hentry
    exact h entry.1 entry.2 (AList.mem_lookup_iff.mpr hentry)

theorem Sound.receive {listened : Target → Prop} (h : limbo.Sound listened)
    (hexpects : limbo.Expects targetChanges) :
    ∃ limbo', limbo.receive targetChanges = .ok limbo' ∧ limbo'.Sound listened := by
  rw [expects_lookup] at hexpects
  have hkeeps (id : Nat) (resolution : LimboResolution)
      (hid : limbo.activeLimboResolutionsByTarget.lookup id = some resolution) :
      ∃ received, resolution.receive? (targetChanges id) = .ok ⟨resolution.key, received⟩ := by
    cases hchange : targetChanges id with
    | none => exact ⟨resolution.documentReceived, rfl⟩
    | some change =>
        exact LimboResolution.receive_ok (hexpects id resolution hid change hchange)
  obtain ⟨resolutions, hresolutions, hlookup⟩ := DependentMap.mapM_ok
    (m := limbo.activeLimboResolutionsByTarget)
    (f := fun id (resolution : LimboResolution) => resolution.receive? (targetChanges id)) <| by
      intro id resolution hid
      obtain ⟨received, hok⟩ := hkeeps id resolution hid
      exact ⟨_, hok⟩
  have hsame (id : Nat) (key : DocumentKey) : (∃ received,
      limbo.activeLimboResolutionsByTarget.lookup id = some ⟨key, received⟩) ↔
      ∃ received, resolutions.lookup id = some ⟨key, received⟩ := by
    cases hid : limbo.activeLimboResolutionsByTarget.lookup id with
    | none => simp [(hlookup id).1 hid]
    | some resolution =>
        obtain ⟨received, hok⟩ := hkeeps id resolution hid
        obtain ⟨resolution', hok', hid'⟩ := (hlookup id).2 resolution hid
        obtain rfl := Except.ok.inj (hok'.symm.trans hok)
        obtain ⟨key', received'⟩ := resolution
        simp [hid']
  refine ⟨{ limbo with activeLimboResolutionsByTarget := resolutions }, ?_, ?_, h.referenced,
    h.listened⟩
  · simp only [Limbo.receive, hresolutions, bind, Except.bind]
  · refine ⟨⟨h.inv.ready.bounded, h.inv.ready.waiting, h.inv.ready.apart, ?_, ?_⟩, h.inv.full⟩
    · intro key id
      exact (h.inv.ready.paired key id).trans (hsame id key)
    · intro id hid
      exact h.inv.ready.fresh id ((DependentMap.mem_mapM hresolutions).mp hid)

theorem receive_error (h : ¬ limbo.Expects targetChanges) :
    ∃ fail, limbo.receive targetChanges = .error fail ∧ fail.OfLimbo := by
  rw [expects_lookup] at h
  cases hresolutions : DependentMap.mapM (fun id (resolution : LimboResolution) =>
      resolution.receive? (targetChanges id)) limbo.activeLimboResolutionsByTarget with
  | ok resolutions =>
      refine absurd ?_ h
      intro id resolution hid change hchange
      obtain ⟨resolution', hok⟩ := DependentMap.of_mapM_ok hresolutions hid
      by_contra hunexpected
      obtain ⟨fail, hfail, -⟩ := LimboResolution.receive_error hunexpected
      rw [Option.mem_def.mp hchange, LimboResolution.receive?, hfail] at hok
      cases hok
  | error fail =>
      refine ⟨fail, by simp only [receive, hresolutions, bind, Except.bind], ?_⟩
      obtain ⟨id, resolution, hid, hfail⟩ := DependentMap.mapM_error hresolutions
      cases hchange : targetChanges id with
      | none =>
          rw [hchange] at hfail
          cases hfail
      | some change =>
          rw [hchange, LimboResolution.receive?] at hfail
          by_cases hexpects : resolution.Expects change
          · obtain ⟨received, hok⟩ := LimboResolution.receive_ok hexpects
            rw [hok] at hfail
            cases hfail
          · obtain ⟨fail', hfail', hlimbo⟩ := LimboResolution.receive_error hexpects
            obtain rfl := Except.error.inj (hfail.symm.trans hfail')
            exact hlimbo

end

end Limbo

end BookShelf.Firestore
