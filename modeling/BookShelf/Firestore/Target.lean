import BookShelf.Firestore.Query

/-!
# Targets

What the backend is asked to watch for a query. The client compares queries by their targets, so
that two of them may be the same for it though they were built in different ways; they have the
same results.
-/

namespace BookShelf.Firestore

structure Target where
  path : ResourcePath
  collectionGroup : Option String
  filters : List FieldFilter
  orderBys : List OrderBy
  limit : Option Nat
deriving DecidableEq, Repr

def Direction.flip : Direction → Direction
  | .ascending => .descending
  | .descending => .ascending

def OrderBy.flip (o : OrderBy) : OrderBy :=
  { o with direction := o.direction.flip }

namespace Query

/-- The last results are the first ones of the opposite order. -/
def toTarget (q : Query) : Target where
  path := q.path
  collectionGroup := q.collectionGroup
  filters := q.filters
  orderBys :=
    match q.limit with
    | some ⟨.last, _⟩ => q.orderBys.map OrderBy.flip
    | _ => q.orderBys
  limit := q.limit.map Limit.count

/-- `operator==`. -/
def equals (lhs rhs : Query) : Bool :=
  lhs.limit.map Limit.type = rhs.limit.map Limit.type && lhs.toTarget = rhs.toTarget

/-- What `order_bys` asserts: the first order is by the field of the inequality. -/
def ordersByInequality (q : Query) : Bool :=
  match q.inequalityFilterField, q.explicitOrderBys with
  | some name, o :: _ => o.field = .field name
  | _, _ => true

theorem equals_iff {lhs rhs : Query} : lhs.equals rhs = true ↔
    lhs.limit.map Limit.type = rhs.limit.map Limit.type ∧ lhs.toTarget = rhs.toTarget := by
  simp [equals]

theorem equals_refl (q : Query) : q.equals q = true :=
  equals_iff.mpr ⟨rfl, rfl⟩

theorem equals_symm {lhs rhs : Query} (h : lhs.equals rhs = true) : rhs.equals lhs = true := by
  rw [equals_iff] at h ⊢
  exact ⟨h.1.symm, h.2.symm⟩

theorem equals_trans {a b c : Query} (hab : a.equals b = true) (hbc : b.equals c = true) :
    a.equals c = true := by
  rw [equals_iff] at hab hbc ⊢
  exact ⟨hab.1.trans hbc.1, hab.2.trans hbc.2⟩

theorem mem_orderBys_of_explicit {q : Query} {o : OrderBy} (ho : o ∈ q.explicitOrderBys) :
    o ∈ q.orderBys := by
  unfold orderBys
  split
  · next hnone =>
    rw [hnone] at ho
    cases ho
  · split
    · exact ho
    · exact List.mem_append_left _ ho

theorem matchesDocument_iff {q : Query} {d : Document} : q.matchesDocument d = true ↔
    q.matchesPathAndCollectionGroup d = true ∧ q.matchesFilters d = true ∧
      ∀ name direction, ⟨.field name, direction⟩ ∈ q.orderBys → (d.field name).isSome = true := by
  constructor
  · intro h
    have hparts := h
    rw [matchesDocument, Bool.and_eq_true, Bool.and_eq_true] at hparts
    exact ⟨hparts.1.1, hparts.2, fun name direction ho => field_isSome_of_matches h ho⟩
  · intro hparts
    obtain ⟨hpath, hfilters, hfields⟩ := hparts
    have horder : q.matchesOrderBy d = true := by
      apply List.all_eq_true.mpr
      intro o ho
      obtain ⟨field, direction⟩ := o
      cases field with
      | key => rfl
      | field name => exact hfields name direction (mem_orderBys_of_explicit ho)
    simp [matchesDocument, hpath, horder, hfilters]

end Query

theorem OrderBy.flip_injective : Function.Injective OrderBy.flip := by
  intro a b h
  obtain ⟨field, direction⟩ := a
  obtain ⟨field', direction'⟩ := b
  cases direction <;> cases direction' <;> simp_all [flip, Direction.flip]

namespace Query

section

variable {lhs rhs : Query}

theorem limit_of_equals (h : lhs.equals rhs = true) : lhs.limit = rhs.limit := by
  obtain ⟨htype, htarget⟩ := equals_iff.mp h
  have hcount : lhs.limit.map Limit.count = rhs.limit.map Limit.count :=
    congrArg Target.limit htarget
  cases hl : lhs.limit with
  | none =>
      cases hr : rhs.limit with
      | none => rfl
      | some limit => simp [hl, hr] at htype
  | some limit =>
      cases hr : rhs.limit with
      | none => simp [hl, hr] at htype
      | some limit' =>
          obtain ⟨type, count⟩ := limit
          obtain ⟨type', count'⟩ := limit'
          simp only [hl, hr, Option.map_some, Option.some.injEq] at htype hcount
          rw [htype, hcount]

theorem orderBys_of_equals (h : lhs.equals rhs = true) : lhs.orderBys = rhs.orderBys := by
  have hlimit := limit_of_equals h
  have horder : lhs.toTarget.orderBys = rhs.toTarget.orderBys :=
    congrArg Target.orderBys (equals_iff.mp h).2
  simp only [toTarget, hlimit] at horder
  split at horder
  · exact List.map_injective_iff.mpr OrderBy.flip_injective horder
  · exact horder

theorem matchesDocument_of_equals (h : lhs.equals rhs = true) (d : Document) :
    lhs.matchesDocument d = rhs.matchesDocument d := by
  have htarget := (equals_iff.mp h).2
  have hpath : lhs.path = rhs.path := congrArg Target.path htarget
  have hgroup : lhs.collectionGroup = rhs.collectionGroup :=
    congrArg Target.collectionGroup htarget
  have hfilters : lhs.filters = rhs.filters := congrArg Target.filters htarget
  rw [Bool.eq_iff_iff, matchesDocument_iff, matchesDocument_iff]
  simp only [matchesPathAndCollectionGroup, matchesFilters, hpath, hgroup, hfilters,
    orderBys_of_equals h]

theorem notAfter_of_equals (h : lhs.equals rhs = true) : lhs.NotAfter = rhs.NotAfter := by
  funext a b
  change ((compareBy lhs.orderBys a b).isLE = true) = ((compareBy rhs.orderBys a b).isLE = true)
  rw [orderBys_of_equals h]

theorem results_of_equals (h : lhs.equals rhs = true) (collection : List Document) :
    lhs.results collection = rhs.results collection := by
  have hmatches : lhs.matchesDocument = rhs.matchesDocument :=
    funext (matchesDocument_of_equals h)
  have hlimited : lhs.limited = rhs.limited := by
    funext docs
    rw [limited, limited, limit_of_equals h]
  rw [results, results, hmatches, hlimited]
  congr 1
  change List.insertionSort (fun a b => (compareBy lhs.orderBys a b).isLE = true) _ =
    List.insertionSort (fun a b => (compareBy rhs.orderBys a b).isLE = true) _
  rw [orderBys_of_equals h]

/-- What the client takes for one query matches the same documents, puts them in the same order and
has one answer. -/
theorem equal_queries_answer_alike (h : lhs.equals rhs = true) :
    lhs.matchesDocument = rhs.matchesDocument ∧ lhs.NotAfter = rhs.NotAfter ∧
      ∀ collection, lhs.results collection = rhs.results collection :=
  ⟨funext (matchesDocument_of_equals h), notAfter_of_equals h, results_of_equals h⟩

end

/-- The order by the field of an inequality is there whether it is asked for or not. -/
theorem equal_queries_answer_alike_inequality :
    (⟨["Posts"], none, [⟨"likes", .greaterThan, .integer 0⟩], [], none⟩ : Query).results
        [⟨["Posts", "a"], [("likes", .integer 2)], 1, .synced⟩,
          ⟨["Posts", "b"], [("likes", .integer 1)], 1, .synced⟩] =
      (⟨["Posts"], none, [⟨"likes", .greaterThan, .integer 0⟩],
        [⟨.field "likes", .ascending⟩], none⟩ : Query).results
        [⟨["Posts", "a"], [("likes", .integer 2)], 1, .synced⟩,
          ⟨["Posts", "b"], [("likes", .integer 1)], 1, .synced⟩] :=
  (equal_queries_answer_alike (by decide)).2.2 _

end Query

end BookShelf.Firestore
