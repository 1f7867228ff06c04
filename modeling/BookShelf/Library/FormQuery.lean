import BookShelf.Library.URL
import Mathlib.Data.List.TakeWhile

/-!
# Form queries

How a server reads the query of a URL as a form: cut off the fragment, split at ampersands, split
each piece at its first equals sign, read plus signs as spaces and decode the escapes. A value
that was put into the query as it stands is read back just if it has no reserved character.
-/

namespace FormQuery

open URLSyntax

def query (url : List Char) : List Char :=
  ((url.takeWhile (· ≠ '#')).dropWhile (· ≠ '?')).tail

def plusToSpace (c : Char) : Char :=
  if c = '+' then ' ' else c

/-- Escapes become the bytes they name, everything else its UTF-8 encoding. -/
def percentDecode : List Char → List UInt8
  | [] => []
  | '%' :: high :: low :: rest =>
      match hexValue high, hexValue low with
      | some h, some l => UInt8.ofNat (16 * h + l) :: percentDecode rest
      | _, _ => String.utf8EncodeChar '%' ++ percentDecode (high :: low :: rest)
  | c :: rest => String.utf8EncodeChar c ++ percentDecode rest

/-- A name or a value; `none` if its bytes are not UTF-8. -/
def decode (text : List Char) : Option String :=
  String.fromUTF8? (percentDecode (text.map plusToSpace)).toByteArray

def parameter (piece : List Char) : Option (String × String) :=
  match decode (piece.takeWhile (· ≠ '=')), decode (piece.dropWhile (· ≠ '=')).tail with
  | some name, some value => some (name, value)
  | _, _ => none

/-- The parameters of a URL's query, in their order; empty pieces are skipped. -/
def parameters (url : String) : Option (List (String × String)) :=
  (((query url.toList).splitOn '&').filter fun piece => !piece.isEmpty).mapM parameter

/-- The characters that a form query does not take literally in a value. -/
def reserved (c : Char) : Bool :=
  c = '#' || c = '&' || c = '+' || c = '%'

theorem percentDecode_cons {c : Char} (hc : c ≠ '%') (rest : List Char) :
    percentDecode (c :: rest) = String.utf8EncodeChar c ++ percentDecode rest := by
  rw [percentDecode]
  rintro high low rest' hc'
  exact absurd hc' hc

theorem percentDecode_plain {text : List Char} (h : '%' ∉ text) :
    percentDecode text = text.flatMap String.utf8EncodeChar := by
  induction text with
  | nil => rfl
  | cons c text ih =>
      have hc : c ≠ '%' := fun heq => h (by simp [heq])
      have htail := ih fun hmem => h (List.mem_cons_of_mem c hmem)
      rw [percentDecode_cons hc, htail, List.flatMap_cons]

theorem map_plusToSpace {text : List Char} (h : '+' ∉ text) : text.map plusToSpace = text := by
  have hid : ∀ c ∈ text, plusToSpace c = c := by
    intro c hc
    have hne : c ≠ '+' := fun heq => h (heq ▸ hc)
    simp [plusToSpace, hne]
  simpa using List.map_congr_left hid

theorem decode_eq_some {text : List Char} {value : String} :
    decode text = some value ↔
      percentDecode (text.map plusToSpace) = value.toList.flatMap String.utf8EncodeChar := by
  have hbytes : (value.toList.flatMap String.utf8EncodeChar).toByteArray = value.toByteArray := by
    rw [← String.utf8Encode_toList, List.utf8Encode]
  unfold decode String.fromUTF8?
  constructor
  · intro h
    split at h
    · next hvalid =>
      have heq := congrArg String.toByteArray (Option.some.inj h)
      exact List.toByteArray_inj.mp (heq.trans hbytes.symm)
    · cases h
  · intro h
    rw [h, hbytes, dif_pos value.isValidUTF8]
    rfl

theorem decode_plain {text : List Char} (hplus : '+' ∉ text) (hescape : '%' ∉ text) :
    decode text = some (String.ofList text) := by
  rw [decode_eq_some, map_plusToSpace hplus, percentDecode_plain hescape, String.toList_ofList]

theorem query_append {base : List Char} (hfragment : '#' ∉ base) (hquery : '?' ∉ base)
    (rest : List Char) : query (base ++ '?' :: rest) = rest.takeWhile (· ≠ '#') := by
  have hbase : ∀ c ∈ base, c ≠ '#' := fun c hc heq => hfragment (heq ▸ hc)
  have hbase' : ∀ c ∈ base, c ≠ '?' := fun c hc heq => hquery (heq ▸ hc)
  unfold query
  rw [List.takeWhile_append_of_pos (by simpa using hbase), List.takeWhile_cons,
    if_pos (by decide), List.dropWhile_append_of_pos (by simpa using hbase')]
  simp

theorem exists_splitOn_eq_cons (text : List Char) :
    ∃ pieces, text.splitOn '&' = text.takeWhile (· ≠ '&') :: pieces := by
  induction text with
  | nil => exact ⟨[], by simp⟩
  | cons c text ih =>
      obtain ⟨pieces, hpieces⟩ := ih
      rw [List.splitOn_cons_eq_if_modifyHead, hpieces]
      by_cases hc : c = '&' <;> simp [hc]

section

variable {name value : List Char}

private theorem ne_of_notMem {c : Char} {text : List Char} (h : c ∉ text) :
    ∀ d ∈ text, decide (d ≠ c) = true := by
  intro d hd
  have hne : d ≠ c := fun heq => h (heq ▸ hd)
  simpa using hne

theorem parameter_eq_some (hequals : '=' ∉ name) (hplus : '+' ∉ name) (hescape : '%' ∉ name)
    {n v : String} : parameter (name ++ '=' :: value) = some (n, v) ↔
      String.ofList name = n ∧ decode value = some v := by
  have hname := ne_of_notMem hequals
  have htake : (name ++ '=' :: value).takeWhile (· ≠ '=') = name := by
    rw [List.takeWhile_append_of_pos hname]
    simp
  have hdrop : ((name ++ '=' :: value).dropWhile (· ≠ '=')).tail = value := by
    rw [List.dropWhile_append_of_pos hname]
    simp
  rw [parameter, htake, hdrop, decode_plain hplus hescape]
  cases decode value <;> simp

end

theorem length_percentDecode_le {text : List Char} (h : ∀ c ∈ text, c.utf8Size = 1) :
    (percentDecode text).length ≤ text.length := by
  fun_induction percentDecode text with
  | case1 => simp
  | case2 high low rest hv lv hhigh hlow ih =>
      have hrest := ih fun c hc => h c (by simp [hc])
      simp only [List.length_cons]
      omega
  | case3 high low rest hnot ih =>
      have hrest := ih fun c hc => h c (List.mem_cons_of_mem _ hc)
      have hpercent : '%'.utf8Size = 1 := by decide
      simp only [List.length_append, String.length_utf8EncodeChar, List.length_cons] at hrest ⊢
      omega
  | case4 c rest hnot ih =>
      have hrest := ih fun c hc => h c (List.mem_cons_of_mem _ hc)
      have hc := h c List.mem_cons_self
      simp only [List.length_append, String.length_utf8EncodeChar, List.length_cons]
      omega

theorem plusToSpace_hex {c : Char} (h : (hexValue c).isSome = true) : plusToSpace c = c := by
  unfold plusToSpace
  split
  · next hc =>
    rw [hc] at h
    cases h
  · rfl

theorem utf8Size_plusToSpace (c : Char) : (plusToSpace c).utf8Size = c.utf8Size := by
  by_cases hc : c = '+'
  · rw [hc]
    decide
  · rw [plusToSpace, if_neg hc]

theorem plusToSpace_ne_plus (c : Char) : plusToSpace c ≠ '+' := by
  by_cases hc : c = '+' <;> simp [plusToSpace, hc]

theorem plusToSpace_eq_percent {c : Char} : plusToSpace c = '%' ↔ c = '%' := by
  by_cases hc : c = '+' <;> simp [plusToSpace, hc]

theorem length_percentDecode {text : List Char} (h : wellEscaped text = true) :
    (percentDecode (text.map plusToSpace)).length + 2 * text.count '%' = text.length := by
  induction text using wellEscaped.induct with
  | case1 => simp [percentDecode]
  | case2 high low rest ih =>
      simp only [wellEscaped, Bool.and_eq_true] at h
      obtain ⟨hv, hhigh⟩ := Option.isSome_iff_exists.mp h.1.1
      obtain ⟨lv, hlow⟩ := Option.isSome_iff_exists.mp h.1.2
      have hrest := ih h.2
      have hhigh' : high ≠ '%' := by
        rintro rfl
        cases hhigh
      have hlow' : low ≠ '%' := by
        rintro rfl
        cases hlow
      have hplus : plusToSpace '%' = '%' := by decide
      simp only [List.map_cons, plusToSpace_hex h.1.1, plusToSpace_hex h.1.2, hplus, percentDecode,
        hhigh, hlow, List.length_cons, List.count_cons_self, List.count_cons_of_ne hhigh',
        List.count_cons_of_ne hlow']
      omega
  | case3 c rest hne ih =>
      rw [wellEscaped.eq_3 _ _ hne, Bool.and_eq_true] at h
      have hrest := ih h.2
      have hc : c ≠ '%' := by
        rintro rfl
        exact absurd h.1 (by decide)
      have hplus : plusToSpace c ≠ '%' := fun heq => hc (plusToSpace_eq_percent.mp heq)
      have hsize := utf8Size_of_le_tilde (le_tilde_of_legalCharacter h.1)
      rw [List.map_cons, percentDecode_cons hplus, List.length_append,
        String.length_utf8EncodeChar, utf8Size_plusToSpace, hsize, List.count_cons_of_ne hc,
        List.length_cons]
      omega

private theorem length_flatMap_utf8 {text : List Char} (h : ∀ c ∈ text, c.utf8Size = 1) :
    (text.flatMap String.utf8EncodeChar).length = text.length := by
  induction text with
  | nil => rfl
  | cons c text ih =>
      have hc := h c List.mem_cons_self
      have htext := ih fun d hd => h d (List.mem_cons_of_mem c hd)
      simp only [List.flatMap_cons, List.length_append, String.length_utf8EncodeChar,
        List.length_cons, hc, htext]
      omega

private theorem flatMap_utf8_inj {text text' : List Char}
    (h : text.flatMap String.utf8EncodeChar = text'.flatMap String.utf8EncodeChar) :
    text = text' := by
  have hbytes : (String.ofList text).toByteArray = (String.ofList text').toByteArray := by
    rw [String.toByteArray_ofList, String.toByteArray_ofList, List.utf8Encode, List.utf8Encode, h]
  exact String.ofList_injective (String.toByteArray_inj.mp hbytes)

/-- What was decoded from the beginning of a text is the text only when nothing was lost. -/
theorem plain_of_decode {text front : List Char} (hescaped : wellEscaped text = true)
    (hfront : front <+: text) (hdecode : decode front = some (String.ofList text)) :
    front = text ∧ '+' ∉ text ∧ '%' ∉ text := by
  have hsize := utf8Size_of_wellEscaped hescaped
  rw [decode_eq_some, String.toList_ofList] at hdecode
  have hlength := congrArg List.length hdecode
  rw [length_flatMap_utf8 hsize] at hlength
  have hwhole : front = text := by
    have hle : (percentDecode (front.map plusToSpace)).length ≤ (front.map plusToSpace).length := by
      apply length_percentDecode_le
      intro c hc
      obtain ⟨d, hd, rfl⟩ := List.mem_map.mp hc
      rw [utf8Size_plusToSpace]
      exact hsize d (hfront.subset hd)
    rw [List.length_map] at hle
    exact hfront.eq_of_length_le (by omega)
  subst hwhole
  have hcount := length_percentDecode hescaped
  have hescape : '%' ∉ front := by
    rw [← List.count_eq_zero]
    omega
  refine ⟨rfl, ?_, hescape⟩
  intro hplus
  have hescape' : '%' ∉ front.map plusToSpace := by
    intro hmem
    obtain ⟨c, hc, heq⟩ := List.mem_map.mp hmem
    exact hescape (plusToSpace_eq_percent.mp heq ▸ hc)
  rw [percentDecode_plain hescape'] at hdecode
  have hsame := flatMap_utf8_inj hdecode
  rw [← hsame] at hplus
  obtain ⟨c, -, heq⟩ := List.mem_map.mp hplus
  exact plusToSpace_ne_plus c heq

private theorem not_reserved {c : Char} :
    ¬ reserved c ↔ c ≠ '#' ∧ c ≠ '&' ∧ c ≠ '+' ∧ c ≠ '%' := by
  simp [reserved, and_assoc]

private theorem parameter_of_mapM {first : List Char} {pieces : List (List Char)}
    {p : String × String} {ps : List (String × String)} (hne : first ≠ [])
    (h : ((first :: pieces).filter fun piece => !piece.isEmpty).mapM parameter = some (p :: ps)) :
    parameter first = some p := by
  rw [List.filter_cons_of_pos (by simpa using hne), List.mapM_cons] at h
  obtain ⟨q, hfirst, hrest⟩ := Option.bind_eq_some_iff.mp h
  obtain ⟨qs, -, heq⟩ := Option.bind_eq_some_iff.mp hrest
  have hq : q = p := (List.cons.inj (Option.some.inj heq)).1
  rw [hfirst, hq]

/-- A value that stands in the query as it is, at the end of the URL, is read back as the only
parameter just if it has no reserved character. -/
theorem parameters_eq_singleton {base name text : String} (hfragment : '#' ∉ base.toList)
    (hquery : '?' ∉ base.toList) (hname : ∀ c ∈ name.toList, c ≠ '=' ∧ ¬ reserved c)
    (hescaped : wellEscaped text.toList = true) :
    parameters (base ++ "?" ++ name ++ "=" ++ text) = some [(name, text)] ↔
      ∀ c ∈ text.toList, ¬ reserved c := by
  have hurl : (base ++ "?" ++ name ++ "=" ++ text).toList =
      base.toList ++ '?' :: (name.toList ++ '=' :: text.toList) := by simp
  have hnotMem (c : Char) (hc : reserved c = true ∨ c = '=') : c ∉ name.toList := by
    intro hmem
    rcases hc with hc | hc
    · exact (hname c hmem).2 hc
    · exact (hname c hmem).1 hc
  have hparameter (value : List Char) (v : String) :
      parameter (name.toList ++ '=' :: value) = some (name, v) ↔ decode value = some v := by
    rw [parameter_eq_some (hnotMem '=' (.inr rfl)) (hnotMem '+' (.inl rfl))
      (hnotMem '%' (.inl rfl)), String.ofList_toList]
    simp
  have hcut : query (base.toList ++ '?' :: (name.toList ++ '=' :: text.toList)) =
      name.toList ++ '=' :: text.toList.takeWhile (· ≠ '#') := by
    rw [query_append hfragment hquery,
      List.takeWhile_append_of_pos (ne_of_notMem (hnotMem '#' (.inl rfl)))]
    simp
  rw [parameters, hurl, hcut]
  constructor
  · intro hread
    obtain ⟨pieces, hpieces⟩ :=
      exists_splitOn_eq_cons (name.toList ++ '=' :: text.toList.takeWhile (· ≠ '#'))
    rw [hpieces, List.takeWhile_append_of_pos (ne_of_notMem (hnotMem '&' (.inl rfl))),
      List.takeWhile_cons, if_pos (by decide)] at hread
    have hfirst := parameter_of_mapM (by simp) hread
    have hfront : (text.toList.takeWhile (· ≠ '#')).takeWhile (· ≠ '&') <+: text.toList :=
      (List.takeWhile_prefix _).trans (List.takeWhile_prefix _)
    rw [hparameter, ← String.ofList_toList (s := text)] at hfirst
    simp only [String.toList_ofList] at hfirst
    obtain ⟨hwhole, hplus, hescape⟩ := plain_of_decode hescaped hfront hfirst
    intro c hc
    rw [not_reserved]
    have hc' := hc
    rw [← hwhole] at hc'
    have hamp := List.mem_takeWhile_imp hc'
    have hhash := List.mem_takeWhile_imp ((List.takeWhile_prefix _).subset hc')
    exact ⟨by simpa using hhash, by simpa using hamp, fun h => hplus (h ▸ hc),
      fun h => hescape (h ▸ hc)⟩
  · intro hplain
    have hvalue (c : Char) (hc : reserved c = true) : c ∉ text.toList :=
      fun hmem => hplain c hmem hc
    have hwhole : text.toList.takeWhile (· ≠ '#') = text.toList :=
      List.takeWhile_eq_self_iff.mpr (ne_of_notMem (hvalue '#' rfl))
    have hpiece : (name.toList ++ '=' :: text.toList).splitOn '&' =
        [name.toList ++ '=' :: text.toList] := by
      rw [List.splitOn_eq_splitOnP]
      apply List.splitOnP_eq_singleton
      intro c hc
      rw [beq_eq_false_iff_ne]
      rintro rfl
      simp [hnotMem '&' (.inl rfl), hvalue '&' rfl] at hc
    have hdecode := decode_plain (hvalue '+' rfl) (hvalue '%' rfl)
    rw [String.ofList_toList] at hdecode
    rw [hwhole, hpiece]
    simp [(hparameter _ _).mpr hdecode]

end FormQuery
