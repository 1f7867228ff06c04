import BookShelf.Firestore.Query
import BookShelf.Library.Keyed

/-!
# Document sets

The documents of a view: one for each key, in the order of the query.
-/

namespace BookShelf.Firestore

/-- An index by key, and the documents in the order of the query. -/
structure DocumentSet (q : Query) where
  docs : List Document
  sorted : docs.Pairwise q.Before
  distinct : Keyed.Distinct Document.key docs

namespace DocumentSet

variable {q : Query}

instance : DecidableEq (DocumentSet q) := fun s t =>
  decidable_of_iff (s.docs = t.docs) <| by
    constructor
    · intro h
      cases s
      cases t
      cases h
      rfl
    · intro h
      rw [h]

def empty (q : Query) : DocumentSet q :=
  ⟨[], List.Pairwise.nil, List.nodup_nil⟩

def size (s : DocumentSet q) : Nat :=
  s.docs.length

def getDocument (s : DocumentSet q) (key : DocumentKey) : Option Document :=
  Keyed.lookup Document.key s.docs key

def containsKey (s : DocumentSet q) (key : DocumentKey) : Bool :=
  (s.getDocument key).isSome

def getFirstDocument (s : DocumentSet q) : Option Document :=
  s.docs.head?

def getLastDocument (s : DocumentSet q) : Option Document :=
  s.docs.getLast?

def erase (s : DocumentSet q) (key : DocumentKey) : DocumentSet q where
  docs := Keyed.erase Document.key s.docs key
  sorted := s.sorted.sublist (Keyed.erase_sublist _ _)
  distinct := s.distinct.sublist (Keyed.erase_sublist _ _)

theorem sorted_of_notAfter {docs : List Document} (h : docs.Pairwise q.NotAfter)
    (hdistinct : Keyed.Distinct Document.key docs) : docs.Pairwise q.Before :=
  (h.and (List.pairwise_map.mp hdistinct)).imp fun hab => hab.1.before hab.2

theorem perm_insert (s : DocumentSet q) (d : Document) :
    ((s.erase d.key).docs.orderedInsert q.NotAfter d).Perm
      (d :: Keyed.erase Document.key s.docs d.key) :=
  List.perm_orderedInsert _ _ _

/-- Any earlier version of the document goes first. -/
def insert (s : DocumentSet q) (d : Document) : DocumentSet q where
  docs := (s.erase d.key).docs.orderedInsert q.NotAfter d
  sorted := sorted_of_notAfter
    (((s.erase d.key).sorted.imp fun hab => hab.notAfter).orderedInsert _ _)
    (Keyed.distinct_insert s.distinct (s.perm_insert d))
  distinct := Keyed.distinct_insert s.distinct (s.perm_insert d)

@[simp]
theorem getDocument_empty (key : DocumentKey) : (empty q).getDocument key = none :=
  rfl

theorem getDocument_erase (s : DocumentSet q) (key k : DocumentKey) :
    (s.erase key).getDocument k = if k = key then none else s.getDocument k :=
  Keyed.lookup_erase _ _ _

theorem getDocument_insert (s : DocumentSet q) (d : Document) (k : DocumentKey) :
    (s.insert d).getDocument k = if k = d.key then some d else s.getDocument k :=
  Keyed.lookup_insert s.distinct (s.perm_insert d) k

theorem getDocument_eq_some {s : DocumentSet q} {key : DocumentKey} {d : Document} :
    s.getDocument key = some d ↔ d ∈ s.docs ∧ d.key = key :=
  Keyed.lookup_eq_some s.distinct

theorem getDocument_of_mem {s : DocumentSet q} {d : Document} (h : d ∈ s.docs) :
    s.getDocument d.key = some d :=
  Keyed.lookup_of_mem s.distinct h

theorem key_of_getDocument {s : DocumentSet q} {key : DocumentKey} {d : Document}
    (h : s.getDocument key = some d) : d.key = key :=
  (getDocument_eq_some.mp h).2

end DocumentSet

end BookShelf.Firestore
