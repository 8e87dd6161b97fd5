import TableQuery.Proofs.Result
import TableQuery.Text.Cut
import TableQuery.Url

/-!
# URLs are read back

A URL is read from the left: its path ends at the first question mark, its pairs are the pieces
between `&`, and a name ends at the first equals sign. Encoded values have none of these, so a URL
gives back its path and its parameters when the path and the names are without them.
-/

namespace TableQuery

/-! ## Percent-encoding -/

namespace Text.Percent

def hexValue? (c : Char) : Option Nat :=
  if '0' ≤ c && c ≤ '9' then some (c.toNat - 0x30)
  else if 'A' ≤ c && c ≤ 'F' then some (c.toNat - 0x41 + 10)
  else if 'a' ≤ c && c ≤ 'f' then some (c.toNat - 0x61 + 10)
  else none

/-- The bytes that the characters stand for; a percent sign without two digits is one itself. -/
def decodeBytes : List Char → List UInt8
  | '%' :: high :: low :: rest =>
    match hexValue? high, hexValue? low with
    | some h, some l => UInt8.ofNat (16 * h + l) :: decodeBytes rest
    | _, _ => 0x25 :: decodeBytes (high :: low :: rest)
  | c :: rest => String.utf8EncodeChar c ++ decodeBytes rest
  | [] => []

/-- The text that percent-encoded text stands for, when its bytes are UTF-8. -/
def decode? (s : String) : Option String := String.fromUTF8? (decodeBytes s.toList).toByteArray

theorem hexValue?_hexDigit {n : Nat} (h : n < 16) : hexValue? (hexDigit n) = some n := by
  decide +revert

theorem decodeBytes_cons {c : Char} (h : c ≠ '%') (rest : List Char) :
    decodeBytes (c :: rest) = String.utf8EncodeChar c ++ decodeBytes rest := by
  rw [decodeBytes]
  intro high low after hpercent _
  exact h hpercent

/-- Letters, digits and the four signs that stand for themselves. -/
def isPlain (c : Char) : Bool := c.isAlphanum || ['-', '.', '_', '~'].contains c

theorem ne_percent_of_isPlain {c : Char} (h : isPlain c = true) : c ≠ '%' := by
  rintro rfl
  cases h

theorem unreserved_spec (n : Fin 128) (h : isUnreserved (UInt8.ofNat n) = true) :
    isPlain (Char.ofNat n) = true ∧ String.utf8EncodeChar (Char.ofNat n) = [UInt8.ofNat n] := by
  decide +kernel +revert

theorem lt_of_isUnreserved {b : UInt8} (h : isUnreserved b = true) : b.toNat < 128 := by
  simp only [isUnreserved, Bool.or_eq_true, Bool.and_eq_true, decide_eq_true_eq, beq_iff_eq,
    UInt8.le_iff_toNat_le, ← UInt8.toNat_inj, UInt8.reduceToNat] at h
  omega

theorem isPlain_of_isUnreserved {b : UInt8} (h : isUnreserved b = true) :
    isPlain (Char.ofNat b.toNat) = true ∧ String.utf8EncodeChar (Char.ofNat b.toNat) = [b] := by
  have hb : UInt8.ofNat b.toNat = b := UInt8.ofNat_toNat
  have hspec := unreserved_spec ⟨b.toNat, lt_of_isUnreserved h⟩ (by rwa [hb])
  rwa [hb] at hspec

theorem isPlain_hexDigit : ∀ n < 16, isPlain (hexDigit n) = true := by decide

theorem decodeBytes_encodeByte (b : UInt8) (rest : List Char) :
    decodeBytes (encodeByte b ++ rest) = b :: decodeBytes rest := by
  have hb : UInt8.ofNat b.toNat = b := UInt8.ofNat_toNat
  have hlt : b.toNat < 256 := b.toNat_lt
  unfold encodeByte
  split
  next h =>
    obtain ⟨hplain, hbytes⟩ := isPlain_of_isUnreserved h
    rw [List.singleton_append, decodeBytes_cons (ne_percent_of_isPlain hplain), hbytes]
    rfl
  next h =>
    have hhigh : hexValue? (hexDigit (b.toNat / 16)) = some (b.toNat / 16) :=
      hexValue?_hexDigit (by omega)
    have hlow : hexValue? (hexDigit (b.toNat % 16)) = some (b.toNat % 16) :=
      hexValue?_hexDigit (by omega)
    have hjoin : 16 * (b.toNat / 16) + b.toNat % 16 = b.toNat := Nat.div_add_mod ..
    simp only [List.cons_append, List.nil_append, decodeBytes, hhigh, hlow, hjoin, hb]

theorem decodeBytes_encode (bytes : List UInt8) : decodeBytes (bytes.flatMap encodeByte) = bytes := by
  induction bytes with
  | nil => rfl
  | cons b bytes ih => rw [List.flatMap_cons, decodeBytes_encodeByte, ih]

theorem decode?_encode (s : String) : decode? (encode s) = some s := by
  have hbytes : (s.toList.flatMap String.utf8EncodeChar).toByteArray = s.toByteArray :=
    String.utf8Encode_toList
  unfold decode? encode encodeChars
  rw [String.toList_ofList, decodeBytes_encode, hbytes]
  exact dif_pos s.isValidUTF8

theorem isPlain_of_mem_encodeByte {b : UInt8} {c : Char} (h : c ∈ encodeByte b) :
    c = '%' ∨ isPlain c = true := by
  have hlt : b.toNat < 256 := b.toNat_lt
  unfold encodeByte at h
  split at h
  next hb =>
    rw [List.mem_singleton.mp h]
    exact .inr (isPlain_of_isUnreserved hb).1
  next hb =>
    simp only [List.mem_cons, List.not_mem_nil, or_false] at h
    rcases h with rfl | rfl | rfl
    · exact .inl rfl
    · exact .inr (isPlain_hexDigit _ (by omega))
    · exact .inr (isPlain_hexDigit _ (by omega))

theorem isPlain_of_mem_encode {s : String} {c : Char} (h : c ∈ (encode s).toList) :
    c = '%' ∨ isPlain c = true := by
  unfold encode encodeChars at h
  rw [String.toList_ofList] at h
  obtain ⟨b, -, hb⟩ := List.mem_flatMap.mp h
  exact isPlain_of_mem_encodeByte hb

theorem not_mem_encode {c : Char} (h : c ≠ '%' ∧ isPlain c = false) (s : String) :
    c ∉ (encode s).toList := by
  intro hmem
  rcases isPlain_of_mem_encode hmem with hc | hc
  · exact h.1 hc
  · rw [h.2] at hc
    cases hc

end Text.Percent

/-! ## Queries and URLs -/

namespace Url

open Text

def readPair? (piece : String) : Option (String × String) := do
  let (key, value) ← cut? '=' piece
  let value ← Percent.decode? value
  some (key, value)

/-- The pairs of a query; empty text has none. -/
def readQuery? (query : String) : Option (List (String × String)) :=
  if query.isEmpty then some [] else (pieces '&' query).mapM readPair?

/-- The path of a URL and the pairs of its query. -/
def read? (url : String) : Option (String × List (String × String)) :=
  match cut? '?' url with
  | none => some (url, [])
  | some (path, query) => (readQuery? query).map (path, ·)

/-- No name has a character at which a query is cut. -/
def PlainNames (params : RequestParams) : Prop :=
  ∀ e ∈ params.entries, '&' ∉ e.1.toList ∧ '=' ∉ e.1.toList

def pair (e : String × String) : String := e.1 ++ "=" ++ Percent.encode e.2

theorem readPair?_pair {e : String × String} (h : '=' ∉ e.1.toList) :
    readPair? (pair e) = some e := by
  have hcut : cut? '=' (pair e) = some (e.1, Percent.encode e.2) :=
    cut?_eq_some_iff.mpr ⟨rfl, h⟩
  simp [readPair?, hcut, Percent.decode?_encode]

theorem not_mem_pair {e : String × String} (h : '&' ∉ e.1.toList) : '&' ∉ (pair e).toList := by
  have hvalue : '&' ∉ (Percent.encode e.2).toList := Percent.not_mem_encode (by decide) e.2
  simp [pair, h, hvalue]

theorem mapM_readPair? {es : List (String × String)} (h : ∀ e ∈ es, '=' ∉ e.1.toList) :
    (es.map pair).mapM readPair? = some es := by
  induction es with
  | nil => rfl
  | cons e es ih =>
    obtain ⟨he, hes⟩ := List.forall_mem_cons.mp h
    rw [List.map_cons, List.mapM_cons, readPair?_pair he, ih hes]
    rfl

theorem pair_ne_empty (e : String × String) : pair e ≠ "" := by
  intro h
  have hchars := congrArg String.toList h
  simp [pair] at hchars

theorem readQuery?_query {params : RequestParams} (h : PlainNames params) :
    readQuery? (query params) = some params.entries := by
  have hquery : query params = (String.singleton '&').intercalate (params.entries.map pair) := rfl
  unfold readQuery?
  cases hentries : params.entries with
  | nil => rw [hquery, hentries]; rfl
  | cons e es =>
    have hplain : ∀ x ∈ (e :: es).map pair, '&' ∉ x.toList :=
      List.forall_mem_map.mpr fun x hx => not_mem_pair (h x (hentries ▸ hx)).1
    have hpieces : pieces '&' (query params) = (e :: es).map pair := by
      rw [hquery, hentries]
      exact pieces_intercalate (List.cons_ne_nil _ _) hplain
    have hne : (query params).isEmpty = false := by
      rw [Bool.eq_false_iff, ne_eq, String.isEmpty_iff]
      intro hempty
      rw [hempty] at hpieces
      exact pair_ne_empty e (List.cons.inj hpieces).1.symm
    rw [if_neg (Bool.eq_false_iff.mp hne), hpieces,
      mapM_readPair? fun x hx => (h x (hentries ▸ hx)).2]

theorem read?_withQuery {path : String} {params : RequestParams} (hpath : '?' ∉ path.toList)
    (h : PlainNames params) : read? (withQuery path params) = some (path, params.entries) := by
  unfold withQuery
  by_cases hempty : params.isEmpty = true
  · have hcut : cut? '?' path = none := cut?_eq_none_iff.mpr hpath
    rw [if_pos hempty, read?, hcut, List.isEmpty_iff.mp hempty]
  · have hcut : cut? '?' (path ++ "?" ++ query params) = some (path, query params) :=
      cut?_eq_some_iff.mpr ⟨rfl, hpath⟩
    rw [if_neg hempty, read?, hcut]
    simp only [readQuery?_query h, Option.map_some]

example : read? "t/places?limit=5&q=caf%C3%A9%20%26%20bar" =
    some ("t/places", [("limit", "5"), ("q", "caf\u00e9 & bar")]) := by decide +kernel

end Url

end TableQuery
