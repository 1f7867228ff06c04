import BookShelf.App.Publishing
import BookShelf.App.Session
import BookShelf.Library.Machine

/-!
# The app as a machine

An event is a tap, the answer of a service to a pending request, the call of the completion of
an answered request, or Firebase Auth dropping an invalidated user. Events that the app cannot
take in its present state do nothing.
-/

namespace BookShelf

inductive Event
  | ui (action : UIAction)
  | loginBtnPressed
  | signUpBtn
  | openTab (tab : Tab)
  | signOut (throws : Bool)
  | shareBtnPressed (uuid : String)
  | doneBtnPressed (uuid : String)
  | succeed (k : Nat) (stamp : Stamp)
  | fail (k : Nat)
  | deliver (k : Nat)
  | dropUser
deriving DecidableEq, Repr

/-- An answer of a service, or the call of a completion. -/
def Event.fromService : Event → Bool
  | .succeed _ _ | .fail _ | .deliver _ => true
  | _ => false

namespace App

/-- The service accepts the request `r`, which is at position `k`. -/
def accept (s : App) (k : Nat) (r : Request) (stamp : Stamp) : App :=
  let settled := { s with requests := Pending.settle s.requests k r true }
  match r with
  | .signIn _ credentials => { settled with currentUser := some credentials.email }
  | .createUser tap =>
      { settled with
        currentUser := some tap.credentials.email
        accounts := s.accounts ++ [⟨tap.credentials, tap.number⟩]
        sessionWrites := s.sessionWrites ++ [tap.number] }
  | .signInAfterSignUp tap credentials =>
      { settled with
        currentUser := some credentials.email
        sessionWrites := s.sessionWrites ++ [tap.number] }
  | .putData attempt =>
      { settled with
        storage := Function.update s.storage attempt.imageReference (some attempt.data) }
  | .downloadURL _ => settled
  | .addDocument attempt data =>
      -- the id of an added document is new in its collection
      if ∃ added ∈ s.collection attempt.form.collection,
          added.document.documentID = stamp.documentID then s
      else
        { settled with
          documents := s.documents ++
            [⟨attempt.form.collection, .accepted data stamp, attempt⟩] }

def succeed (s : App) (k : Nat) (stamp : Stamp) : App :=
  match s.requests[k]? with
  | some ⟨r, none⟩ => s.accept k r stamp
  | _ => s

def fail (s : App) (k : Nat) : App :=
  match s.requests[k]? with
  | some ⟨r, none⟩ => { s with requests := Pending.settle s.requests k r false }
  | _ => s

variable (P : Platform)

/-- The completion of a request. -/
def complete (s : App) (ok : Bool) : Request → Except Trap App
  | .signIn self _ => .ok (SignInViewController.signedIn self ok s)
  | .createUser tap => .ok (SignUpVC.createdUser tap ok s)
  | .signInAfterSignUp tap _ => .ok (SignUpVC.signedIn tap ok s)
  | .putData attempt => .ok (attempt.uploaded ok s)
  | .downloadURL attempt => attempt.gotURL P ok s
  | .addDocument attempt _ => .ok (attempt.added ok s)

def deliver (s : App) (k : Nat) : Except Trap App :=
  match s.requests[k]? with
  | some ⟨r, some ok⟩ => complete P { s with requests := s.requests.eraseIdx k } ok r
  | _ => .ok s

/-- The answered request whose completion the event calls. -/
def completing (s : App) : Event → Option (Pending Request)
  | .deliver k => s.requests[k]?
  | _ => none

end App

def appMachine (P : Platform) : Machine App Event Trap where
  step s
    | .ui action => .ok { s with ui := s.ui.apply action }
    | .loginBtnPressed => .ok (SignInViewController.loginBtnPressed s)
    | .signUpBtn => .ok (SignUpVC.signUpBtn s)
    | .openTab tab => ProfileVC.openTab tab s
    | .signOut throws => .ok (ProfileVC.signOut throws s)
    | .shareBtnPressed uuid => .ok (CreateVC.shareBtnPressed P uuid s)
    | .doneBtnPressed uuid => .ok (UpdateProfileVC.doneBtnPressed P uuid s)
    | .succeed k stamp => .ok (s.succeed k stamp)
    | .fail k => .ok (s.fail k)
    | .deliver k => s.deliver P k
    | .dropUser => .ok { s with currentUser := none }

namespace App

/-- A document whose id is taken is not added. -/
theorem accept_addDocument_cases (s : App) (k : Nat) (attempt : Attempt) (data : Fields)
    (stamp : Stamp) :
    s.accept k (.addDocument attempt data) stamp = s ∨
      (∀ other ∈ s.collection attempt.form.collection,
        other.document.documentID ≠ stamp.documentID) ∧
      s.accept k (.addDocument attempt data) stamp =
        { s with
          requests := Pending.settle s.requests k (.addDocument attempt data) true
          documents := s.documents ++
            [⟨attempt.form.collection, .accepted data stamp, attempt⟩] } := by
  by_cases hid : ∃ other ∈ s.collection attempt.form.collection,
      other.document.documentID = stamp.documentID
  · exact .inl (if_pos hid)
  · right
    constructor
    · intro other hother heq
      exact hid ⟨other, hother, heq⟩
    · exact if_neg hid

theorem accept_addDocument {s : App} {stamp : Stamp}
    (hid : ∀ other ∈ s.documents, other.document.documentID ≠ stamp.documentID) (k : Nat)
    (attempt : Attempt) (data : Fields) :
    s.accept k (.addDocument attempt data) stamp =
      { s with
        requests := Pending.settle s.requests k (.addDocument attempt data) true
        documents := s.documents ++
          [⟨attempt.form.collection, .accepted data stamp, attempt⟩] } := by
  apply if_neg
  rintro ⟨other, hother, heq⟩
  exact hid other (List.mem_of_mem_filter hother) heq

theorem accept_signsIn {s : App} {k : Nat} {r : Request} {email : String}
    (hr : r.signsIn = some email) (stamp : Stamp) :
    (s.accept k r stamp).currentUser = some email := by
  cases r with
  | signIn self credentials => exact hr
  | createUser tap => exact hr
  | signInAfterSignUp tap credentials => exact hr
  | _ => cases hr

theorem accept_currentUser {s : App} {k : Nat} {r : Request} (hr : r.signsIn = none)
    (stamp : Stamp) : (s.accept k r stamp).currentUser = s.currentUser := by
  cases r with
  | putData attempt => rfl
  | downloadURL attempt => rfl
  | addDocument attempt data =>
      rcases s.accept_addDocument_cases k attempt data stamp with h | ⟨-, h⟩ <;> rw [h]
  | _ => cases hr

end App

section

variable {P : Platform} {s : App} {k : Nat} {r : Request}

theorem step_succeed (hk : s.requests[k]? = some ⟨r, none⟩) (stamp : Stamp) :
    (appMachine P).step s (.succeed k stamp) = .ok (s.accept k r stamp) := by
  simp only [appMachine, App.succeed, hk]

theorem step_fail (hk : s.requests[k]? = some ⟨r, none⟩) :
    (appMachine P).step s (.fail k) = .ok
      { s with requests := Pending.settle s.requests k r false } := by
  simp only [appMachine, App.fail, hk]

theorem step_deliver {ok : Bool} (hk : s.requests[k]? = some ⟨r, some ok⟩) :
    (appMachine P).step s (.deliver k) =
      App.complete P { s with requests := s.requests.eraseIdx k } ok r := by
  simp only [appMachine, App.deliver, hk]

end

theorem App.mem_completing {s : App} {e : Event} {x : Pending Request} :
    x ∈ s.completing e ↔ ∃ k, e = .deliver k ∧ s.requests[k]? = some x := by
  cases e <;> simp [completing]

end BookShelf
