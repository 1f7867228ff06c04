import BookShelf.App.Requests

/-!
# Firebase Storage, concretely

A platform with the URLs that `GetDownloadURLTask` builds, less their tokens.
-/

namespace BookShelf

namespace Platform

/-- Percent-encoding, as far as the folder names need it. -/
def percentEncode (c : Char) : List Char :=
  if c = '%' then ['%', '2', '5'] else if c = ' ' then ['%', '2', '0'] else [c]

theorem percentEncode_cases (c : Char) :
    (c = '%' ∧ percentEncode c = ['%', '2', '5']) ∨ (c = ' ' ∧ percentEncode c = ['%', '2', '0']) ∨
      (c ≠ '%' ∧ percentEncode c = [c]) := by
  unfold percentEncode
  split
  · next hc => exact .inl ⟨hc, rfl⟩
  · next hc =>
    split
    · next hspace => exact .inr (.inl ⟨hspace, rfl⟩)
    · exact .inr (.inr ⟨hc, rfl⟩)

theorem encoded_folder_inj {folder folder' uuid uuid' : List Char}
    (h : folder.flatMap percentEncode ++ ('%' :: '2' :: 'F' :: uuid) =
      folder'.flatMap percentEncode ++ ('%' :: '2' :: 'F' :: uuid')) :
    folder = folder' ∧ uuid = uuid' := by
  induction folder generalizing folder' with
  | nil =>
      cases folder' with
      | nil => simpa using h
      | cons c folder' =>
          rcases percentEncode_cases c with ⟨-, hc⟩ | ⟨-, hc⟩ | ⟨hne, hc⟩ <;>
            simp [List.flatMap_cons, hc] at h
          exact absurd h.1.symm hne
  | cons c folder ih =>
      cases folder' with
      | nil =>
          rcases percentEncode_cases c with ⟨-, hc⟩ | ⟨-, hc⟩ | ⟨hne, hc⟩ <;>
            simp [List.flatMap_cons, hc] at h
          exact absurd h.1 hne
      | cons c' folder' =>
          rw [List.flatMap_cons, List.flatMap_cons, List.append_assoc, List.append_assoc] at h
          have hstep : percentEncode c = percentEncode c' → c = c' →
              c :: folder = c' :: folder' ∧ uuid = uuid' := by
            intro hcode hcc
            rw [hcode] at h
            obtain ⟨hfolder, huuid⟩ := ih (List.append_cancel_left h)
            exact ⟨by rw [hcc, hfolder], huuid⟩
          rcases percentEncode_cases c with ⟨rfl, hc⟩ | ⟨rfl, hc⟩ | ⟨hne, hc⟩ <;>
            rcases percentEncode_cases c' with ⟨rfl, hc'⟩ | ⟨rfl, hc'⟩ | ⟨hne', hc'⟩
          · exact hstep rfl rfl
          · simp [hc, hc'] at h
          · simp [hc, hc'] at h
            exact absurd h.1.symm hne'
          · simp [hc, hc'] at h
          · exact hstep rfl rfl
          · simp [hc, hc'] at h
            exact absurd h.1.symm hne'
          · simp [hc, hc'] at h
            exact absurd h.1 hne
          · simp [hc, hc'] at h
            exact absurd h.1 hne
          · have hcc : c = c' := by
              rw [hc, hc'] at h
              exact (List.cons.inj h).1
            exact hstep (by rw [hcc]) hcc

def storageURL (reference : StorageReference) : List Char :=
  "https://firebasestorage.googleapis.com/v0/b/bookshelf-790cf.appspot.com/o/".toList ++
    (reference.folder.toList.flatMap percentEncode ++
      ('%' :: '2' :: 'F' :: (reference.uuid.toList ++ ".jpg?alt=media".toList)))

theorem storageURL_injective : Function.Injective storageURL := by
  intro r r' h
  obtain ⟨hfolder, huuid⟩ := encoded_folder_inj (List.append_cancel_left h)
  have huuid := List.append_cancel_right huuid
  cases r
  cases r'
  simp_all [String.toList_inj]

/-- Pictures are told apart by name; a picture without one has no JPEG data. -/
def firebase : Platform where
  jpegData image :=
    if image.name = "" then none else some (image.name.toList.map fun c => c.toNat.toUInt8)
  downloadURL reference := String.ofList (storageURL reference)
  downloadURL_injective := fun _ _ h => storageURL_injective (String.ofList_injective h)

example : firebase.downloadURL ⟨"User Profile Images", "A1"⟩ =
    "https://firebasestorage.googleapis.com/v0/b/bookshelf-790cf.appspot.com/o/" ++
      "User%20Profile%20Images%2FA1.jpg?alt=media" := by
  decide

end Platform

end BookShelf
