import BookShelf.Firestore.Value
import Mathlib.Data.List.Sort

/-!
# Queries of the Firestore client

Which documents a query matches, and the order in which it puts them. Bounds (`startAt`, `endAt`)
and filters on arrays and on keys are left out.
-/

namespace BookShelf.Firestore

inductive Operator
  | lessThan
  | lessThanOrEqual
  | equal
  | greaterThanOrEqual
  | greaterThan
  | notEqual
deriving DecidableEq, Repr

structure FieldFilter where
  field : String
  op : Operator
  value : FieldValue
deriving DecidableEq, Repr

namespace FieldFilter

def isInequality (filter : FieldFilter) : Bool :=
  filter.op ≠ .equal

def matchesComparison (filter : FieldFilter) (comparison : Ordering) : Bool :=
  match filter.op with
  | .lessThan => comparison = .lt
  | .lessThanOrEqual => comparison = .lt || comparison = .eq
  | .equal => comparison = .eq
  | .greaterThanOrEqual => comparison = .gt || comparison = .eq
  | .greaterThan => comparison = .gt
  | .notEqual => comparison ≠ .eq

/-- Only values of comparable types are compared, except by `notEqual`. -/
def matchesDocument (filter : FieldFilter) (d : Document) : Bool :=
  match d.field filter.field with
  | none => false
  | some lhs =>
      (filter.op = .notEqual || FieldValue.comparable lhs.type filter.value.type) &&
        filter.matchesComparison (compare lhs filter.value)

end FieldFilter

inductive Direction
  | ascending
  | descending
deriving DecidableEq, Repr

def Direction.applyTo (direction : Direction) (result : Ordering) : Ordering :=
  match direction with
  | .ascending => result
  | .descending => result.swap

/-- `key` stands for the name of the document itself. -/
inductive FieldPath
  | key
  | field (name : String)
deriving DecidableEq, Repr

structure OrderBy where
  field : FieldPath
  direction : Direction
deriving DecidableEq, Repr

/-- Documents that a query matches have the fields of its orders, so that the two values are
there. -/
def OrderBy.compare (o : OrderBy) (lhs rhs : Document) : Ordering :=
  o.direction.applyTo <|
    match o.field with
    | .key => Ord.compare lhs.key rhs.key
    | .field name => Ord.compare (lhs.field name) (rhs.field name)

inductive LimitType
  | first
  | last
deriving DecidableEq, Repr

structure Limit where
  type : LimitType
  count : Nat
deriving DecidableEq, Repr

structure Query where
  path : ResourcePath
  collectionGroup : Option String
  filters : List FieldFilter
  explicitOrderBys : List OrderBy
  limit : Option Limit
deriving DecidableEq, Repr

namespace Query

def inequalityFilterField (q : Query) : Option String :=
  (q.filters.find? FieldFilter.isInequality).map FieldFilter.field

/-- The key comes last in every order, in the direction of the last explicit one. -/
def orderBys (q : Query) : List OrderBy :=
  match q.inequalityFilterField, q.explicitOrderBys with
  | some name, [] => [⟨.field name, .ascending⟩, ⟨.key, .ascending⟩]
  | _, _ =>
      if q.explicitOrderBys.any fun o => o.field = .key then q.explicitOrderBys
      else
        let lastDirection := (q.explicitOrderBys.getLast?.map OrderBy.direction).getD .ascending
        q.explicitOrderBys ++ [⟨.key, lastDirection⟩]

def compareBy : List OrderBy → Document → Document → Ordering
  | [], _, _ => .eq
  | o :: orderBys, lhs, rhs => (o.compare lhs rhs).then (compareBy orderBys lhs rhs)

/-- `Query::Comparator`. -/
def compare (q : Query) : Document → Document → Ordering :=
  compareBy q.orderBys

def isDocumentKey (path : ResourcePath) : Bool :=
  path.length % 2 = 0

def matchesPathAndCollectionGroup (q : Query) (d : Document) : Bool :=
  match q.collectionGroup with
  | some collectionId =>
      d.key.length ≥ 2 && d.key[d.key.length - 2]? = some collectionId && q.path.isPrefixOf d.key
  | none =>
      if isDocumentKey q.path then q.path = d.key
      else q.path.isPrefixOf d.key && q.path.length + 1 = d.key.length

def matchesOrderBy (q : Query) (d : Document) : Bool :=
  q.explicitOrderBys.all fun o =>
    match o.field with
    | .key => true
    | .field name => (d.field name).isSome

def matchesFilters (q : Query) (d : Document) : Bool :=
  q.filters.all fun filter => filter.matchesDocument d

def matchesDocument (q : Query) (d : Document) : Bool :=
  q.matchesPathAndCollectionGroup d && q.matchesOrderBy d && q.matchesFilters d

def Before (q : Query) (lhs rhs : Document) : Prop :=
  q.compare lhs rhs = .lt

def NotAfter (q : Query) (lhs rhs : Document) : Prop :=
  (q.compare lhs rhs).isLE = true

instance (q : Query) : DecidableRel q.Before := fun lhs rhs =>
  inferInstanceAs (Decidable (q.compare lhs rhs = .lt))

instance (q : Query) : DecidableRel q.NotAfter := fun lhs rhs =>
  inferInstanceAs (Decidable ((q.compare lhs rhs).isLE = true))

/-- The part of the ordered matches that the limit keeps. -/
def limited (q : Query) (ordered : List Document) : List Document :=
  match q.limit with
  | none => ordered
  | some ⟨.first, count⟩ => ordered.take count
  | some ⟨.last, count⟩ => ordered.drop (ordered.length - count)

/-- The answer to the query, computed from scratch: the matching documents in order, up to the
limit. -/
def results (q : Query) (collection : List Document) : List Document :=
  q.limited ((collection.filter q.matchesDocument).insertionSort q.NotAfter)

end Query

instance (o : OrderBy) : Std.TransCmp o.compare := by
  obtain ⟨field, direction⟩ := o
  have hcmp : Std.TransCmp (OrderBy.compare ⟨field, .ascending⟩) := by
    cases field with
    | key => exact inferInstanceAs (Std.TransCmp (compareOn Document.key))
    | field name =>
        exact inferInstanceAs (Std.TransCmp (compareOn fun d : Document => d.field name))
  cases direction with
  | ascending => exact hcmp
  | descending =>
      have hswap : OrderBy.compare ⟨field, .descending⟩ =
          fun lhs rhs => OrderBy.compare ⟨field, .ascending⟩ rhs lhs := by
        funext lhs rhs
        have horiented : OrderBy.compare ⟨field, .ascending⟩ rhs lhs =
            (OrderBy.compare ⟨field, .ascending⟩ lhs rhs).swap := Std.OrientedCmp.eq_swap
        rw [horiented]
        rfl
      rw [hswap]
      exact Std.TransCmp.opposite

instance (orderBys : List OrderBy) : Std.TransCmp (Query.compareBy orderBys) := by
  induction orderBys with
  | nil =>
      have : Std.OrientedCmp (Query.compareBy []) := ⟨rfl⟩
      exact ⟨fun _ _ => rfl⟩
  | cons o orderBys ih =>
      exact inferInstanceAs (Std.TransCmp (compareLex o.compare (Query.compareBy orderBys)))

instance (q : Query) : Std.TransCmp q.compare :=
  inferInstanceAs (Std.TransCmp (Query.compareBy q.orderBys))

namespace Query

theorem mem_orderBys_key (q : Query) : ∃ direction, ⟨.key, direction⟩ ∈ q.orderBys := by
  unfold orderBys
  split
  · exact ⟨.ascending, by simp⟩
  · split
    · next hkey =>
      obtain ⟨⟨field, direction⟩, ho, hfield⟩ := List.any_eq_true.mp hkey
      obtain rfl : field = .key := by simpa using hfield
      exact ⟨direction, ho⟩
    · exact ⟨_, List.mem_append_right _ (List.mem_singleton.mpr rfl)⟩

private theorem compareBy_eq {orderBys : List OrderBy} {lhs rhs : Document}
    (h : compareBy orderBys lhs rhs = .eq) {o : OrderBy} (ho : o ∈ orderBys) :
    o.compare lhs rhs = .eq := by
  induction orderBys with
  | nil => cases ho
  | cons first orderBys ih =>
      rw [compareBy, Ordering.then_eq_eq] at h
      rcases List.mem_cons.mp ho with rfl | ho
      · exact h.1
      · exact ih h.2 ho

/-- Only versions of one document tie. -/
theorem key_of_compare {q : Query} {lhs rhs : Document} (h : q.compare lhs rhs = .eq) :
    lhs.key = rhs.key := by
  obtain ⟨direction, hmem⟩ := q.mem_orderBys_key
  have hkey := compareBy_eq h hmem
  apply Std.LawfulEqOrd.eq_of_compare
  cases direction with
  | ascending => exact hkey
  | descending => exact Ordering.swap_eq_eq.mp hkey

theorem compare_congr {q : Query} {lhs lhs' rhs rhs' : Document} (hl : lhs.content = lhs'.content)
    (hr : rhs.content = rhs'.content) : q.compare lhs rhs = q.compare lhs' rhs' := by
  obtain ⟨hlkey, hldata⟩ := Prod.mk.inj hl
  obtain ⟨hrkey, hrdata⟩ := Prod.mk.inj hr
  unfold compare
  induction q.orderBys with
  | nil => rfl
  | cons o orderBys ih =>
      rw [compareBy, compareBy, ih]
      simp only [OrderBy.compare, Document.field, hlkey, hldata, hrkey, hrdata]

theorem field_isSome_of_matches {q : Query} {d : Document} (h : q.matchesDocument d = true)
    {name : String} {direction : Direction} (ho : ⟨.field name, direction⟩ ∈ q.orderBys) :
    (d.field name).isSome = true := by
  rw [matchesDocument, Bool.and_eq_true, Bool.and_eq_true] at h
  obtain ⟨⟨-, horder⟩, hfilters⟩ := h
  have hexplicit : ⟨.field name, direction⟩ ∈ q.explicitOrderBys →
      (d.field name).isSome = true := fun hmem => List.all_eq_true.mp horder _ hmem
  unfold orderBys at ho
  split at ho
  · next hinequality hnone =>
    obtain ⟨filter, hfind, rfl⟩ := Option.map_eq_some_iff.mp hinequality
    have hmatch := List.all_eq_true.mp hfilters _ (List.mem_of_find?_eq_some hfind)
    obtain ⟨rfl, -⟩ : name = filter.field ∧ direction = .ascending := by simpa using ho
    unfold FieldFilter.matchesDocument at hmatch
    cases hfield : d.field filter.field with
    | none => simp [hfield] at hmatch
    | some value => rfl
  · split at ho
    · exact hexplicit ho
    · apply hexplicit
      simpa using ho

theorem Before.trans {q : Query} {a b c : Document} (hab : q.Before a b) (hbc : q.Before b c) :
    q.Before a c :=
  Std.TransCmp.lt_trans hab hbc

theorem Before.not_notAfter {q : Query} {a b : Document} (hab : q.Before a b) :
    ¬ q.NotAfter b a :=
  Std.OrientedCmp.not_isLE_of_lt hab

theorem Before.notAfter {q : Query} {a b : Document} (hab : q.Before a b) : q.NotAfter a b := by
  rw [NotAfter, hab]
  rfl

theorem NotAfter.before {q : Query} {a b : Document} (hab : q.NotAfter a b)
    (hkey : a.key ≠ b.key) : q.Before a b := by
  have hne : q.compare a b ≠ .eq := fun h => hkey (key_of_compare h)
  unfold NotAfter at hab
  cases hcompare : q.compare a b with
  | lt => exact hcompare
  | eq => exact absurd hcompare hne
  | gt => simp [hcompare] at hab

theorem notAfter_of_not_before {q : Query} {a b : Document} (h : ¬ q.Before b a) :
    q.NotAfter a b :=
  Std.OrientedCmp.isLE_of_isGE (Ordering.ne_lt_iff_isGE.mp h)

theorem NotAfter.trans_before {q : Query} {a b c : Document} (hab : q.NotAfter a b)
    (hbc : q.Before b c) : q.Before a c :=
  Std.TransCmp.lt_of_isLE_of_lt hab hbc

theorem Before.trans_notAfter {q : Query} {a b c : Document} (hab : q.Before a b)
    (hbc : q.NotAfter b c) : q.Before a c :=
  Std.TransCmp.lt_of_lt_of_isLE hab hbc

instance (q : Query) : IsTrans Document q.NotAfter :=
  ⟨fun _ _ _ hab hbc => Std.TransCmp.isLE_trans hab hbc⟩

instance (q : Query) : Std.Total q.NotAfter where
  total a b := by
    by_cases h : q.NotAfter a b
    · exact .inl h
    · have hba : q.Before b a := Std.OrientedCmp.lt_of_not_isLE h
      exact .inr hba.notAfter

end Query

end BookShelf.Firestore
