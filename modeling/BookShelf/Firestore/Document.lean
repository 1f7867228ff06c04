import Mathlib.Data.List.Sort
import Mathlib.Data.String.Basic

/-!
# Firestore documents, queries and snapshot events

What the controllers use of Firestore: field access with a conditional cast, the two queries
they listen to, and the three shapes in which a snapshot listener is called.
-/

namespace BookShelf

/-- A value of the `[String: Any]` dictionary of a document. `serverTimestamp` is the sentinel
that a client writes; the server replaces it by the time at which it accepts the document. -/
inductive FieldValue
  | number (n : Int)
  | timestamp (t : Nat)
  | serverTimestamp
  | string (s : String)
deriving DecidableEq, Repr

namespace FieldValue

/-- The conditional cast `as? String`. -/
def asString : FieldValue → Option String
  | .string s => some s
  | _ => none

/-- Values of different types are ordered by their type. -/
def rank : FieldValue → Nat
  | .number _ => 0
  | .timestamp _ => 1
  | .serverTimestamp => 2
  | .string _ => 3

def before : FieldValue → FieldValue → Bool
  | .number m, .number n => m < n
  | .timestamp t, .timestamp u => t < u
  | .string s, .string t => s < t
  | v, w => v.rank < w.rank

end FieldValue

abbrev Fields := List (String × FieldValue)

structure Document where
  documentID : String
  data : Fields
deriving DecidableEq, Repr

/-- What the server adds to the data of an accepted `addDocument`. -/
structure Stamp where
  documentID : String
  date : Nat
deriving DecidableEq, Repr

namespace Document

def get (d : Document) (field : String) : Option FieldValue :=
  d.data.lookup field

/-- `document.get(field) as? String`. -/
def string? (d : Document) (field : String) : Option String :=
  (d.get field).bind FieldValue.asString

/-- The document stored for `data`, with the server's time in place of the sentinel. -/
def accepted (data : Fields) (stamp : Stamp) : Document where
  documentID := stamp.documentID
  data := data.map fun (field, value) =>
    (field, if value = .serverTimestamp then .timestamp stamp.date else value)

/-- The order of a query without `order(by:)`. -/
def idOrder (a b : Document) : Prop :=
  a.documentID ≤ b.documentID

/-- The order of `order(by: field, descending: true)`; ties go by descending id. -/
def descending (field : String) (a b : Document) : Prop :=
  match a.get field, b.get field with
  | some v, some w => w.before v = true ∨ (v = w ∧ b.documentID ≤ a.documentID)
  | _, _ => True

instance : DecidableRel idOrder := fun a b =>
  inferInstanceAs (Decidable (a.documentID ≤ b.documentID))

instance (field : String) : DecidableRel (descending field) := fun a b => by
  unfold descending
  split <;> infer_instance

end Document

/-- `collection.whereField(field, isEqualTo: value)`. -/
def whereField (field value : String) (collection : List Document) : List Document :=
  (collection.filter fun d => d.get field = some (.string value)).insertionSort Document.idOrder

/-- `collection.order(by: field, descending: true)`: documents without the field are left out. -/
def orderByDescending (field : String) (collection : List Document) : List Document :=
  (collection.filter fun d => (d.get field).isSome).insertionSort (Document.descending field)

/-- One call of a snapshot listener: with an error, with neither error nor snapshot, or with the
documents of a snapshot. -/
inductive SnapshotEvent
  | error
  | nilSnapshot
  | snapshot (documents : List Document)
deriving DecidableEq, Repr

theorem Document.get_accepted (data : Fields) (stamp : Stamp) (field : String) :
    (Document.accepted data stamp).get field = (data.lookup field).map fun value =>
      if value = .serverTimestamp then .timestamp stamp.date else value := by
  unfold Document.accepted Document.get
  induction data with
  | nil => rfl
  | cons entry data ih =>
      obtain ⟨name, value⟩ := entry
      rw [List.map_cons, List.lookup_cons, List.lookup_cons]
      cases field == name
      · exact ih
      · rfl

theorem Document.string?_accepted (data : Fields) (stamp : Stamp) (field : String) :
    (Document.accepted data stamp).string? field =
      (data.lookup field).bind FieldValue.asString := by
  rw [Document.string?, Document.get_accepted]
  cases data.lookup field with
  | none => rfl
  | some value => cases value <;> rfl

theorem whereField_perm (field value : String) (collection : List Document) :
    (whereField field value collection).Perm
      (collection.filter fun d => d.get field = some (.string value)) :=
  List.perm_insertionSort _ _

theorem orderByDescending_perm (field : String) (collection : List Document) :
    (orderByDescending field collection).Perm
      (collection.filter fun d => (d.get field).isSome) :=
  List.perm_insertionSort _ _

theorem mem_whereField {field value : String} {collection : List Document} {d : Document} :
    d ∈ whereField field value collection ↔
      d ∈ collection ∧ d.get field = some (.string value) := by
  rw [(whereField_perm field value collection).mem_iff]
  simp

theorem pairwise_whereField (field value : String) (collection : List Document) :
    (whereField field value collection).Pairwise Document.idOrder := by
  have : IsTrans Document Document.idOrder := ⟨fun a b c hab hbc => le_trans hab hbc⟩
  have : Std.Total Document.idOrder := ⟨fun a b => le_total a.documentID b.documentID⟩
  exact List.pairwise_insertionSort _ _

end BookShelf
