import Mathlib.Order.Basic

/-!
# Values and documents of the Firestore client

The field values that the client compares, and the documents of its local store. A document that
a pending write has changed carries the time of that write wherever the server will put its own.
-/

namespace BookShelf.Firestore

inductive FieldValue
  | null
  | boolean (b : Bool)
  | integer (n : Int)
  | timestamp (t : Nat)
  | serverTimestamp (localWriteTime : Nat)
  | string (s : String)
deriving DecidableEq, Repr

namespace FieldValue

inductive ValueType
  | null
  | boolean
  | integer
  | timestamp
  | serverTimestamp
  | string
deriving DecidableEq, Repr

/-- The position of the type in its enumeration. -/
def ValueType.position : ValueType → Nat
  | .null => 0
  | .boolean => 1
  | .integer => 2
  | .timestamp => 4
  | .serverTimestamp => 5
  | .string => 6

def type : FieldValue → ValueType
  | .null => .null
  | .boolean _ => .boolean
  | .integer _ => .integer
  | .timestamp _ => .timestamp
  | .serverTimestamp _ => .serverTimestamp
  | .string _ => .string

def comparable (lhs rhs : ValueType) : Bool :=
  match lhs with
  | .timestamp | .serverTimestamp => rhs = .timestamp || rhs = .serverTimestamp
  | _ => lhs = rhs

def compareTypes (lhs rhs : FieldValue) : Ordering :=
  if comparable lhs.type rhs.type then .eq else compare lhs.type.position rhs.type.position

/-- A server timestamp sorts after every timestamp. -/
def compareTo (lhs rhs : FieldValue) : Ordering :=
  (compareTypes lhs rhs).then <|
    match lhs, rhs with
    | .boolean a, .boolean b => compare a b
    | .integer m, .integer n => compare m n
    | .timestamp t, .timestamp u => compare t u
    | .timestamp _, _ => .lt
    | .serverTimestamp t, .serverTimestamp u => compare t u
    | .serverTimestamp _, _ => .gt
    | .string s, .string t => compare s t
    | _, _ => .eq

instance : Ord FieldValue :=
  ⟨compareTo⟩

/-- Rank, number and text that decide every comparison. -/
private def rank : FieldValue → Nat
  | .null => 0
  | .boolean _ => 1
  | .integer _ => 2
  | .timestamp _ => 3
  | .serverTimestamp _ => 4
  | .string _ => 5

private def number : FieldValue → Int
  | .boolean b => b.toNat
  | .integer n => n
  | .timestamp t => t
  | .serverTimestamp t => t
  | _ => 0

private def text : FieldValue → String
  | .string s => s
  | _ => ""

private theorem compare_natCast (m n : Nat) : compare (m : Int) n = compare m n := by
  simp only [compare, compareOfLessAndEq, Int.ofNat_lt, Int.ofNat_inj]

private theorem compareTo_eq (lhs rhs : FieldValue) :
    compareTo lhs rhs =
      compareLex (compareOn rank) (compareLex (compareOn number) (compareOn text)) lhs rhs := by
  cases lhs <;> cases rhs <;>
    simp [compareTo, compareTypes, comparable, type, ValueType.position, compareLex, compareOn,
      rank, number, text, compare_natCast, Nat.compare_eq_lt.mpr, Nat.compare_eq_gt.mpr]
  next a b => cases a <;> cases b <;> decide

instance : Std.TransOrd FieldValue := by
  have h : (compare : FieldValue → FieldValue → Ordering) =
      compareLex (compareOn rank) (compareLex (compareOn number) (compareOn text)) :=
    funext fun lhs => funext fun rhs => compareTo_eq lhs rhs
  unfold Std.TransOrd
  rw [h]
  infer_instance

instance : Std.LawfulEqOrd FieldValue where
  eq_of_compare {lhs rhs} h := by
    change compareTo lhs rhs = .eq at h
    rw [compareTo_eq, compareLex_eq_eq, compareLex_eq_eq] at h
    obtain ⟨hrank, hnumber, htext⟩ := h
    replace hrank : lhs.rank = rhs.rank := Std.LawfulEqOrd.eq_of_compare hrank
    replace hnumber : lhs.number = rhs.number := Std.LawfulEqOrd.eq_of_compare hnumber
    replace htext : lhs.text = rhs.text := Std.LawfulEqOrd.eq_of_compare htext
    cases lhs <;> cases rhs <;> simp [rank] at hrank <;>
      simp only [number, Int.ofNat_inj] at hnumber <;> simp [text] at htext <;> simp [*]
    next a b => cases a <;> cases b <;> simp at hnumber ⊢

end FieldValue

/-- A path of collection names and document ids, in turn. -/
abbrev ResourcePath := List String

abbrev DocumentKey := ResourcePath

/-- The fields of a document, in the order of their names. -/
abbrev ObjectValue := List (String × FieldValue)

inductive DocumentState
  | synced
  | committedMutations
  | localMutations
deriving DecidableEq, Repr

structure Document where
  key : DocumentKey
  data : ObjectValue
  version : Nat
  state : DocumentState
deriving DecidableEq, Repr

namespace Document

def hasLocalMutations (d : Document) : Bool :=
  d.state = .localMutations

def hasCommittedMutations (d : Document) : Bool :=
  d.state = .committedMutations

def field (d : Document) (name : String) : Option FieldValue :=
  d.data.lookup name

/-- What a listener gets of a document. -/
def content (d : Document) : DocumentKey × ObjectValue :=
  (d.key, d.data)

end Document

/-- What the local store knows about a key. -/
inductive MaybeDocument
  | document (d : Document)
  | noDocument (key : DocumentKey) (version : Nat) (hasCommittedMutations : Bool)
  | unknownDocument (key : DocumentKey) (version : Nat)
deriving DecidableEq, Repr

namespace MaybeDocument

def key : MaybeDocument → DocumentKey
  | .document d => d.key
  | .noDocument key _ _ => key
  | .unknownDocument key _ => key

def document? : MaybeDocument → Option Document
  | .document d => some d
  | _ => none

theorem key_of_document? {m : MaybeDocument} {d : Document} (h : m.document? = some d) :
    d.key = m.key := by
  cases m with
  | document d' =>
      cases h
      rfl
  | _ => cases h

end MaybeDocument

end BookShelf.Firestore
