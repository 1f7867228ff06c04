import BookShelf.Firestore.Document
import BookShelf.Firestore.Query

/-!
# The two queries of the app

`whereField` and `orderByDescending` say what the controllers rely on. The client answers the
queries that the controllers build in just this way, but for times that are still to come from the
server: it orders them by the times of their writes.
-/

namespace BookShelf

/-- The value as the client stores it. A sentinel keeps the time at which it was written. -/
def FieldValue.stored (localWriteTime : Nat) : FieldValue → Firestore.FieldValue
  | .number n => .integer n
  | .timestamp t => .timestamp t
  | .serverTimestamp => .serverTimestamp localWriteTime
  | .string s => .string s

/-- The document in the local store, in a collection at the root. Sentinels are there only as long
as the server has not seen the write. -/
def Document.storedIn (collection : String) (localWriteTime : Document → String → Nat)
    (d : Document) : Firestore.Document where
  key := [collection, d.documentID]
  data := d.data.map fun (field, value) => (field, value.stored (localWriteTime d field))
  version := 0
  state := if d.data.any (·.2 = .serverTimestamp) then .localMutations else .synced

/-- `collection.whereField(field, isEqualTo: value)`. -/
def whereFieldQuery (collection field value : String) : Firestore.Query where
  path := [collection]
  collectionGroup := none
  filters := [⟨field, .equal, .string value⟩]
  explicitOrderBys := []
  limit := none

/-- `collection.order(by: field, descending: true)`. -/
def orderByDescendingQuery (collection field : String) : Firestore.Query where
  path := [collection]
  collectionGroup := none
  filters := []
  explicitOrderBys := [⟨.field field, .descending⟩]
  limit := none

/-- The values are compared with those of the server, or with one written at the same time. -/
def FieldValue.SameTime (v w : FieldValue) (t u : Nat) : Prop :=
  v = .serverTimestamp → w = .serverTimestamp → t = u

theorem FieldValue.compare_stored_lt {v w : FieldValue} {t u : Nat} (h : v.SameTime w t u) :
    compare (v.stored t) (w.stored u) = .lt ↔ v.before w = true := by
  change Firestore.FieldValue.compareTo (v.stored t) (w.stored u) = .lt ↔ _
  cases v <;> cases w <;>
    simp [stored, before, rank, Firestore.FieldValue.compareTo, Firestore.FieldValue.compareTypes,
      Firestore.FieldValue.comparable, Firestore.FieldValue.type,
      Firestore.FieldValue.ValueType.position, compare_lt_iff_lt, Nat.compare_eq_lt.mpr,
      Nat.compare_eq_gt.mpr]
  rw [h rfl rfl]

theorem FieldValue.compare_stored_eq {v w : FieldValue} {t u : Nat} (h : v.SameTime w t u) :
    compare (v.stored t) (w.stored u) = .eq ↔ v = w := by
  constructor
  · intro hcompare
    have hsame : v.stored t = w.stored u := Std.LawfulEqOrd.eq_of_compare hcompare
    cases v <;> cases w <;> simp_all [stored]
  · rintro rfl
    have hsame : v.stored t = v.stored u := by
      cases v with
      | serverTimestamp => rw [h rfl rfl]
      | _ => rfl
    rw [hsame]
    exact Std.ReflCmp.compare_self

section

variable (collection field value : String) (localWriteTime : Document → String → Nat)

theorem Document.field_storedIn (d : Document) :
    (d.storedIn collection localWriteTime).field field =
      (d.get field).map (FieldValue.stored (localWriteTime d field)) := by
  unfold storedIn Firestore.Document.field get
  simp only
  induction d.data with
  | nil => rfl
  | cons entry data ih =>
      obtain ⟨name, v⟩ := entry
      rw [List.map_cons, List.lookup_cons, List.lookup_cons]
      by_cases hname : field = name
      · subst hname
        rw [beq_self_eq_true]
        rfl
      · rw [beq_false_of_ne hname]
        exact ih

private theorem compare_keys (a b : Document) :
    compare (a.storedIn collection localWriteTime).key (b.storedIn collection localWriteTime).key =
      compare a.documentID b.documentID := by
  have hself : compare collection collection = .eq := Std.ReflCmp.compare_self
  change List.compareLex compare [collection, a.documentID] [collection, b.documentID] = _
  rw [List.compareLex_cons_cons, hself, List.compareLex_cons_cons]
  cases compare a.documentID b.documentID <;> rfl

private theorem matchesPath (q : Firestore.Query) (hpath : q.path = [collection])
    (hgroup : q.collectionGroup = none) (d : Document) :
    q.matchesPathAndCollectionGroup (d.storedIn collection localWriteTime) = true := by
  simp [Firestore.Query.matchesPathAndCollectionGroup, hpath, hgroup,
    Firestore.Query.isDocumentKey, Document.storedIn]

theorem whereFieldQuery_matches (d : Document) :
    (whereFieldQuery collection field value).matchesDocument
        (d.storedIn collection localWriteTime) = decide (d.get field = some (.string value)) := by
  have hpath := matchesPath collection localWriteTime (whereFieldQuery collection field value)
    rfl rfl d
  rw [Firestore.Query.matchesDocument, hpath]
  simp only [Firestore.Query.matchesOrderBy, Firestore.Query.matchesFilters, whereFieldQuery,
    List.all_nil, List.all_cons, Bool.and_true, Bool.true_and,
    Firestore.FieldFilter.matchesDocument, Document.field_storedIn]
  cases hget : d.get field with
  | none => simp
  | some v =>
      have hcompare := FieldValue.compare_stored_eq (v := v) (w := .string value)
        (t := localWriteTime d field) (u := localWriteTime d field) fun _ _ => rfl
      change compare (v.stored (localWriteTime d field)) (.string value) = .eq ↔ v = .string value
        at hcompare
      simp only [Option.map_some, Firestore.FieldFilter.matchesComparison, Option.some.injEq,
        hcompare]
      cases v <;> simp [FieldValue.stored, Firestore.FieldValue.comparable,
        Firestore.FieldValue.type]

theorem whereFieldQuery_notAfter (a b : Document) :
    (whereFieldQuery collection field value).NotAfter (a.storedIn collection localWriteTime)
      (b.storedIn collection localWriteTime) ↔ Document.idOrder a b := by
  change ((compare (a.storedIn collection localWriteTime).key
    (b.storedIn collection localWriteTime).key).then .eq).isLE = true ↔
      a.documentID ≤ b.documentID
  rw [compare_keys, ← compare_le_iff_le]
  cases compare a.documentID b.documentID <;> simp

theorem orderByDescendingQuery_matches (d : Document) :
    (orderByDescendingQuery collection field).matchesDocument
        (d.storedIn collection localWriteTime) = (d.get field).isSome := by
  have hpath := matchesPath collection localWriteTime (orderByDescendingQuery collection field)
    rfl rfl d
  rw [Firestore.Query.matchesDocument, hpath]
  simp [Firestore.Query.matchesOrderBy, Firestore.Query.matchesFilters, orderByDescendingQuery,
    Document.field_storedIn]

theorem orderByDescendingQuery_notAfter {a b : Document} (ha : (a.get field).isSome = true)
    (hb : (b.get field).isSome = true)
    (htime : a.get field = some .serverTimestamp → b.get field = some .serverTimestamp →
      localWriteTime a field = localWriteTime b field) :
    (orderByDescendingQuery collection field).NotAfter (a.storedIn collection localWriteTime)
      (b.storedIn collection localWriteTime) ↔ Document.descending field a b := by
  obtain ⟨v, hv⟩ := Option.isSome_iff_exists.mp ha
  obtain ⟨w, hw⟩ := Option.isSome_iff_exists.mp hb
  have hsame : v.SameTime w (localWriteTime a field) (localWriteTime b field) := by
    rintro rfl rfl
    exact htime hv hw
  change ((compare ((a.storedIn collection localWriteTime).field field)
    ((b.storedIn collection localWriteTime).field field)).swap.then
      ((compare (a.storedIn collection localWriteTime).key
        (b.storedIn collection localWriteTime).key).swap.then .eq)).isLE = true ↔ _
  rw [compare_keys, Document.field_storedIn, Document.field_storedIn, hv, hw, Document.descending]
  simp only [hv, hw]
  have hswap : compare (w.stored (localWriteTime b field)) (v.stored (localWriteTime a field)) =
      (compare (v.stored (localWriteTime a field)) (w.stored (localWriteTime b field))).swap :=
    Std.OrientedCmp.eq_swap
  change ((compare (v.stored (localWriteTime a field))
    (w.stored (localWriteTime b field))).swap.then _).isLE = true ↔ _
  have hsame' : w.SameTime v (localWriteTime b field) (localWriteTime a field) := fun hw hv =>
    (hsame hv hw).symm
  rw [← FieldValue.compare_stored_lt hsame', ← FieldValue.compare_stored_eq hsame,
    ← compare_ge_iff_ge, hswap]
  cases compare (v.stored (localWriteTime a field)) (w.stored (localWriteTime b field)) <;>
    cases compare a.documentID b.documentID <;> simp

end

/-- Run over a collection of the local store, the query that a controller builds gives the
documents, in their order, that the controller's model of it gives; the order by a field needs that
the times which the server has still to give to that field were written at one time. -/
theorem queries_answer_as_modelled (collection field value : String)
    (localWriteTime : Document → String → Nat) (documents : List Document) :
    (whereFieldQuery collection field value).results
        (documents.map (Document.storedIn collection localWriteTime)) =
      (whereField field value documents).map (Document.storedIn collection localWriteTime) ∧
    ((∀ a ∈ documents, ∀ b ∈ documents, a.get field = some .serverTimestamp →
        b.get field = some .serverTimestamp → localWriteTime a field = localWriteTime b field) →
      (orderByDescendingQuery collection field).results
          (documents.map (Document.storedIn collection localWriteTime)) =
        (orderByDescending field documents).map
          (Document.storedIn collection localWriteTime)) := by
  have hfilter (q : Firestore.Query) (p : Document → Bool)
      (hp : ∀ d, q.matchesDocument (d.storedIn collection localWriteTime) = p d) :
      (documents.map (Document.storedIn collection localWriteTime)).filter q.matchesDocument =
        (documents.filter p).map (Document.storedIn collection localWriteTime) := by
    rw [List.filter_map]
    congr 1
    exact List.filter_congr fun d _ => hp d
  constructor
  · change List.insertionSort _ _ = _
    rw [hfilter _ _ (whereFieldQuery_matches collection field value localWriteTime)]
    refine (List.map_insertionSort Document.idOrder
      (whereFieldQuery collection field value).NotAfter
      (Document.storedIn collection localWriteTime) _ ?_).symm
    intro a _ b _
    exact (whereFieldQuery_notAfter collection field value localWriteTime a b).symm
  · intro htime
    change List.insertionSort _ _ = _
    rw [hfilter _ _ (orderByDescendingQuery_matches collection field localWriteTime)]
    refine (List.map_insertionSort (Document.descending field)
      (orderByDescendingQuery collection field).NotAfter
      (Document.storedIn collection localWriteTime) _ ?_).symm
    intro a ha b hb
    obtain ⟨ha, hsomeA⟩ := List.mem_filter.mp ha
    obtain ⟨hb, hsomeB⟩ := List.mem_filter.mp hb
    exact (orderByDescendingQuery_notAfter collection field localWriteTime hsomeA hsomeB
      (htime a ha b hb)).symm

theorem queries_answer_as_modelled_pending :
    (orderByDescendingQuery "Post" "date").results
        ([⟨"a", [("date", .timestamp 4)]⟩, ⟨"b", [("date", .serverTimestamp)]⟩].map
          (Document.storedIn "Post" fun _ _ => 3)) =
      (orderByDescending "date"
          [⟨"a", [("date", .timestamp 4)]⟩, ⟨"b", [("date", .serverTimestamp)]⟩]).map
        (Document.storedIn "Post" fun _ _ => 3) :=
  (queries_answer_as_modelled "Post" "date" "" (fun _ _ => 3) _).2 fun _ _ _ _ _ _ => rfl

end BookShelf
