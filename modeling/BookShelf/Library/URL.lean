import Mathlib.Data.List.Basic

/-!
# URL strings

Which strings are accepted as URLs, in the generic syntax: every character is legal, every
percent sign starts an escape, and at most one hash sign separates a fragment.
-/

namespace URLSyntax

def hexValue (c : Char) : Option Nat :=
  if '0' ≤ c ∧ c ≤ '9' then some (c.toNat - '0'.toNat)
  else if 'a' ≤ c ∧ c ≤ 'f' then some (c.toNat - 'a'.toNat + 10)
  else if 'A' ≤ c ∧ c ≤ 'F' then some (c.toNat - 'A'.toNat + 10)
  else none

def letterOrDigit (c : Char) : Bool :=
  ('A' ≤ c && c ≤ 'Z') || ('a' ≤ c && c ≤ 'z') || ('0' ≤ c && c ≤ '9')

/-- The characters that may stand for themselves: letters, digits, marks and reserved ones. -/
def legalCharacter (c : Char) : Bool :=
  letterOrDigit c || "-_.!~*'();/?:@&=+$,[]#".toList.contains c

/-- Every character is legal, and two hexadecimal digits follow every percent sign. -/
def wellEscaped : List Char → Bool
  | [] => true
  | '%' :: high :: low :: rest =>
      (hexValue high).isSome && (hexValue low).isSome && wellEscaped rest
  | c :: rest => legalCharacter c && wellEscaped rest

/-- Text that may be put at the end of a URL without a fragment. -/
def legalTail (text : List Char) : Bool :=
  wellEscaped text && text.count '#' ≤ 1

def legalURL (text : List Char) : Bool :=
  !text.isEmpty && legalTail text

theorem wellEscaped_cons {c : Char} (hc : c ≠ '%') (rest : List Char) :
    wellEscaped (c :: rest) = (legalCharacter c && wellEscaped rest) := by
  rw [wellEscaped]
  rintro high low rest' hc'
  exact absurd hc' hc

theorem wellEscaped_append {front : List Char} (hfront : '%' ∉ front) (rest : List Char) :
    wellEscaped (front ++ rest) = (front.all legalCharacter && wellEscaped rest) := by
  induction front with
  | nil => simp
  | cons c front ih =>
      have hc : c ≠ '%' := fun h => hfront (by simp [h])
      have htail := ih fun h => hfront (List.mem_cons_of_mem c h)
      rw [List.cons_append, wellEscaped_cons hc, htail, List.all_cons, Bool.and_assoc]

/-- What a URL prefix without escapes and fragment decides about the text after it. -/
theorem legalURL_append {front : List Char} (hne : front ≠ []) (hlegal : front.all legalCharacter)
    (hescape : '%' ∉ front) (hfragment : '#' ∉ front) (text : List Char) :
    legalURL (front ++ text) = legalTail text := by
  have hcount : (front ++ text).count '#' = text.count '#' := by
    rw [List.count_append, List.count_eq_zero.mpr hfragment, Nat.zero_add]
  have hempty : (front ++ text).isEmpty = false := by simp [hne]
  rw [legalURL, legalTail, legalTail, wellEscaped_append hescape, hcount, hempty, hlegal]
  simp

theorem le_tilde_of_legalCharacter {c : Char} (h : legalCharacter c = true) : c ≤ '~' := by
  rw [legalCharacter, Bool.or_eq_true] at h
  rcases h with h | h
  · simp only [letterOrDigit, Bool.or_eq_true, Bool.and_eq_true, decide_eq_true_eq] at h
    rcases h with (h | h) | h <;> exact Char.le_trans h.2 (by decide)
  · have hmarks : ("-_.!~*'();/?:@&=+$,[]#".toList.all fun d => d ≤ '~') = true := by decide
    have hc := List.all_eq_true.mp hmarks c (by simpa using h)
    simpa using hc

theorem le_tilde_of_hexValue {c : Char} (h : (hexValue c).isSome = true) : c ≤ '~' := by
  unfold hexValue at h
  split at h
  · next hc => exact Char.le_trans hc.2 (by decide)
  · split at h
    · next hc => exact Char.le_trans hc.2 (by decide)
    · split at h
      · next hc => exact Char.le_trans hc.2 (by decide)
      · cases h

theorem utf8Size_of_le_tilde {c : Char} (h : c ≤ '~') : c.utf8Size = 1 :=
  Char.utf8Size_eq_one_iff.mpr (UInt32.le_trans h (by decide))

theorem utf8Size_of_wellEscaped {text : List Char} (h : wellEscaped text = true) :
    ∀ c ∈ text, c.utf8Size = 1 := by
  induction text using wellEscaped.induct with
  | case1 => simp
  | case2 high low rest ih =>
      simp only [wellEscaped, Bool.and_eq_true] at h
      have hhigh := utf8Size_of_le_tilde (le_tilde_of_hexValue h.1.1)
      have hlow := utf8Size_of_le_tilde (le_tilde_of_hexValue h.1.2)
      have hpercent : '%'.utf8Size = 1 := by decide
      simpa [hhigh, hlow, hpercent] using ih h.2
  | case3 c rest hne ih =>
      rw [wellEscaped.eq_3 _ _ hne, Bool.and_eq_true] at h
      have hc := utf8Size_of_le_tilde (le_tilde_of_legalCharacter h.1)
      simpa [hc] using ih h.2

end URLSyntax

/-- The string of a URL, with its legality as part of the type. -/
structure URL where
  absoluteString : String
  legal : URLSyntax.legalURL absoluteString.toList = true
deriving DecidableEq, Repr

namespace URL

/-- The initialiser that fails on a string that is no URL. -/
def ofString (string : String) : Option URL :=
  if h : URLSyntax.legalURL string.toList = true then some ⟨string, h⟩ else none

theorem ofString_isSome (string : String) :
    (ofString string).isSome = URLSyntax.legalURL string.toList := by
  unfold ofString
  split
  · next h => simp [h]
  · next h => simp [h]

theorem ofString_eq_some {string : String} {url : URL} :
    ofString string = some url ↔ url.absoluteString = string := by
  obtain ⟨absoluteString, hlegal⟩ := url
  unfold ofString
  constructor
  · intro h
    split at h
    · simpa using h.symm
    · cases h
  · rintro rfl
    exact dif_pos hlegal

/-- What stands before the first colon. -/
def scheme (url : URL) : String :=
  String.ofList (url.absoluteString.toList.takeWhile fun c => c ≠ ':')

theorem scheme_of_prefix {url : URL} (name rest : List Char) (hname : ':' ∉ name)
    (h : url.absoluteString.toList = name ++ ':' :: rest) : url.scheme = String.ofList name := by
  rw [scheme, h, List.takeWhile_append_of_pos]
  · simp
  · intro c hc
    simpa using ne_of_mem_of_not_mem hc hname

end URL
