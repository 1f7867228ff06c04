import BookShelf.Firestore.Target
import BookShelf.Firestore.View
import BookShelf.Library.DependentMap
import Mathlib.Data.Finset.Card

/-!
# Limbo documents

A document that the local store counts among the results of a query, while the server does not, is
in limbo. The sync engine asks the server about each of them, about a bounded number at a time; the
others wait in a queue.
-/

namespace BookShelf.Firestore

/-- The order of the keys in a `DocumentKeySet`. -/
def DocumentKey.NotAfter (lhs rhs : DocumentKey) : Prop :=
  (compare lhs rhs).isLE = true

instance : DecidableRel DocumentKey.NotAfter := fun lhs rhs =>
  inferInstanceAs (Decidable ((compare lhs rhs).isLE = true))

instance : IsTrans DocumentKey DocumentKey.NotAfter :=
  ⟨fun _ _ _ hab hbc => Std.TransCmp.isLE_trans hab hbc⟩

instance : Std.Total DocumentKey.NotAfter where
  total a b := by
    by_cases h : DocumentKey.NotAfter a b
    · exact .inl h
    · have hlt : compare b a = .lt := Std.OrientedCmp.lt_of_not_isLE h
      right
      rw [DocumentKey.NotAfter, hlt]
      rfl

theorem DocumentKey.NotAfter.antisymm {a b : DocumentKey} (hab : NotAfter a b)
    (hba : NotAfter b a) : a = b :=
  Std.LawfulEqOrd.eq_of_compare (Std.OrientedCmp.isLE_antisymm hab hba)

/-- The keys of a set in the order in which a loop meets them. -/
def inOrder (keys : Finset DocumentKey) : List DocumentKey :=
  Quot.liftOn keys.val (List.insertionSort DocumentKey.NotAfter) fun l l' (hperm : l.Perm l') => by
    have hsorted : (l.insertionSort DocumentKey.NotAfter).Perm
        (l'.insertionSort DocumentKey.NotAfter) :=
      (List.perm_insertionSort _ l).trans (hperm.trans (List.perm_insertionSort _ l').symm)
    refine hsorted.eq_of_pairwise ?_ (List.pairwise_insertionSort _ l)
      (List.pairwise_insertionSort _ l')
    intro a b _ _ hab hba
    exact hab.antisymm hba

theorem mem_inOrder {keys : Finset DocumentKey} {k : DocumentKey} :
    k ∈ inOrder keys ↔ k ∈ keys := by
  obtain ⟨⟨l⟩, hnodup⟩ := keys
  exact (List.perm_insertionSort DocumentKey.NotAfter l).mem_iff

structure LimboResolution where
  key : DocumentKey
  documentReceived : Bool
deriving DecidableEq, Repr

/-- `refs` has the targets for which a document is in limbo. The ids of the targets that ask about
one document have numbers of their own. -/
structure Limbo where
  nextTargetId : Nat
  enqueuedLimboResolutions : List DocumentKey
  activeLimboTargetsByKey : AList fun _ : DocumentKey => Nat
  activeLimboResolutionsByTarget : AList fun _ : Nat => LimboResolution
  refs : Finset (DocumentKey × Target)

/-- What Watch says about the one document that a target asks about. -/
def LimboResolution.receive (resolution : LimboResolution) (change : TargetChange) :
    Except HardFail LimboResolution :=
  if change.addedDocuments.card + change.modifiedDocuments.card + change.removedDocuments.card ≤ 1
  then
    if change.addedDocuments ≠ ∅ then .ok { resolution with documentReceived := true }
    else if change.modifiedDocuments ≠ ∅ then
      if resolution.documentReceived then .ok resolution else .error .limboModifiedWithoutAdd
    else if change.removedDocuments ≠ ∅ then
      if resolution.documentReceived then .ok { resolution with documentReceived := false }
      else .error .limboRemovedWithoutAdd
    else .ok resolution
  else .error .limboMultipleChanges

def LimboResolution.receive? (resolution : LimboResolution) :
    Option TargetChange → Except HardFail LimboResolution
  | none => .ok resolution
  | some change => resolution.receive change

/-- The constant that the client passes to its sync engine. -/
def maxConcurrentLimboResolutions : Nat :=
  100

namespace Limbo

def initial : Limbo :=
  ⟨1, [], ∅, ∅, ∅⟩

/-- A resolution begins, under the next id of the sync engine's generator. -/
def resolve (limbo : Limbo) (key : DocumentKey) : Limbo :=
  { limbo with
    nextTargetId := limbo.nextTargetId + 2
    activeLimboTargetsByKey := limbo.activeLimboTargetsByKey.insert key limbo.nextTargetId
    activeLimboResolutionsByTarget :=
      limbo.activeLimboResolutionsByTarget.insert limbo.nextTargetId ⟨key, false⟩ }

def pump : List DocumentKey → Limbo → Limbo
  | [], limbo => { limbo with enqueuedLimboResolutions := [] }
  | key :: keys, limbo =>
      if limbo.activeLimboTargetsByKey.keys.length < maxConcurrentLimboResolutions then
        pump keys (limbo.resolve key)
      else { limbo with enqueuedLimboResolutions := key :: keys }

def pumpEnqueuedLimboResolutions (limbo : Limbo) : Limbo :=
  pump limbo.enqueuedLimboResolutions limbo

/-- The queue holds a document once. -/
def trackLimboChange (limbo : Limbo) (key : DocumentKey) : Limbo :=
  if key ∈ limbo.activeLimboTargetsByKey ∨ key ∈ limbo.enqueuedLimboResolutions then limbo
  else
    { limbo with enqueuedLimboResolutions := limbo.enqueuedLimboResolutions ++ [key]
      }.pumpEnqueuedLimboResolutions

/-- The resolution of a target ends, whatever its outcome. -/
def finish (limbo : Limbo) (id : Nat) (key : DocumentKey) : Limbo :=
  { limbo with
    activeLimboTargetsByKey := limbo.activeLimboTargetsByKey.erase key
    activeLimboResolutionsByTarget := limbo.activeLimboResolutionsByTarget.erase id
    }.pumpEnqueuedLimboResolutions

def removeLimboTarget (limbo : Limbo) (key : DocumentKey) : Limbo :=
  let limbo := { limbo with
    enqueuedLimboResolutions := limbo.enqueuedLimboResolutions.filter fun other => other ≠ key }
  match limbo.activeLimboTargetsByKey.lookup key with
  | none => limbo
  | some id => limbo.finish id key

def containsKey (limbo : Limbo) (key : DocumentKey) : Prop :=
  ∃ ref ∈ limbo.refs, ref.1 = key

instance (limbo : Limbo) (key : DocumentKey) : Decidable (limbo.containsKey key) :=
  inferInstanceAs (Decidable (∃ ref ∈ limbo.refs, ref.1 = key))

/-- Nobody asks for a document without a reference. -/
def release (limbo : Limbo) (key : DocumentKey) : Limbo :=
  if limbo.containsKey key then limbo else limbo.removeLimboTarget key

def addReference (limbo : Limbo) (key : DocumentKey) (target : Target) : Limbo :=
  { limbo with refs := insert (key, target) limbo.refs }

def removeReference (limbo : Limbo) (key : DocumentKey) (target : Target) : Limbo :=
  { limbo with refs := limbo.refs.erase (key, target) }

def removeReferences (limbo : Limbo) (target : Target) : Limbo :=
  { limbo with refs := limbo.refs.filter fun ref => ref.2 ≠ target }

def referencedKeys (limbo : Limbo) (target : Target) : Finset DocumentKey :=
  (limbo.refs.filter fun ref => ref.2 = target).image Prod.fst

/-- The documents that left limbo come first. -/
def updateTrackedLimboDocuments (limbo : Limbo) (limboRemoved limboAdded : Finset DocumentKey)
    (target : Target) : Limbo :=
  let limbo := (inOrder limboRemoved).foldl
    (fun limbo key => (limbo.removeReference key target).release key) limbo
  (inOrder limboAdded).foldl
    (fun limbo key => (limbo.addReference key target).trackLimboChange key) limbo

/-- The part of `RemoveAndCleanupTarget` that is about limbo. -/
def cleanupTarget (limbo : Limbo) (target : Target) : Limbo :=
  (inOrder (limbo.referencedKeys target)).foldl release (limbo.removeReferences target)

/-- The first loop of `ApplyRemoteEvent`. -/
def receive (limbo : Limbo) (targetChanges : Nat → Option TargetChange) :
    Except HardFail Limbo := do
  let activeLimboResolutionsByTarget ← DependentMap.mapM (fun id (resolution : LimboResolution) =>
    resolution.receive? (targetChanges id)) limbo.activeLimboResolutionsByTarget
  .ok { limbo with activeLimboResolutionsByTarget }

/-- The backend has refused a target that asks about one document. -/
def reject (limbo : Limbo) (id : Nat) : Limbo :=
  match limbo.activeLimboResolutionsByTarget.lookup id with
  | none => limbo
  | some resolution => limbo.finish id resolution.key

end Limbo

/-- Watch says one thing at a time about the document, and adds it first. -/
def LimboResolution.Expects (resolution : LimboResolution) (change : TargetChange) : Prop :=
  change.addedDocuments.card + change.modifiedDocuments.card + change.removedDocuments.card ≤ 1 ∧
    (change.modifiedDocuments ≠ ∅ ∨ change.removedDocuments ≠ ∅ →
      resolution.documentReceived = true)

instance (resolution : LimboResolution) (change : TargetChange) :
    Decidable (resolution.Expects change) :=
  inferInstanceAs (Decidable (_ ∧ _))

def Limbo.Expects (limbo : Limbo) (targetChanges : Nat → Option TargetChange) : Prop :=
  ∀ entry ∈ limbo.activeLimboResolutionsByTarget.entries,
    ∀ change ∈ targetChanges entry.1, entry.2.Expects change

instance (limbo : Limbo) (targetChanges : Nat → Option TargetChange) :
    Decidable (limbo.Expects targetChanges) :=
  inferInstanceAs (Decidable (∀ entry ∈ limbo.activeLimboResolutionsByTarget.entries,
    ∀ change ∈ targetChanges entry.1, entry.2.Expects change))

end BookShelf.Firestore
