import TableQuery.Proofs.Client.Names

/-!
# Queries are told apart by their text

An encoded value has no character that means something in a URL, whatever the value is. So the text
of a query gives back the pairs it was made from, and two queries have the same text only when they
send the same parameters.
-/

namespace TableQuery

/-! ## What encoded values are made of -/

namespace Text.Percent

def isUpperHex (c : Char) : Bool := ('0' ≤ c && c ≤ '9') || ('A' ≤ c && c ≤ 'F')

/-- Plain characters, and percent signs with two upper-case digits after each. -/
def isEncoded : List Char → Bool
  | '%' :: high :: low :: rest => isUpperHex high && isUpperHex low && isEncoded rest
  | c :: rest => isPlain c && isEncoded rest
  | [] => true

theorem isUpperHex_hexDigit : ∀ n < 16, isUpperHex (hexDigit n) = true := by decide

theorem isEncoded_cons {c : Char} (h : c ≠ '%') (rest : List Char) :
    isEncoded (c :: rest) = (isPlain c && isEncoded rest) := by
  rw [isEncoded]
  intro high low after hpercent _
  exact h hpercent

theorem isEncoded_encodeByte (b : UInt8) (rest : List Char) :
    isEncoded (encodeByte b ++ rest) = isEncoded rest := by
  have hlt : b.toNat < 256 := b.toNat_lt
  unfold encodeByte
  split
  next h =>
    obtain ⟨hplain, -⟩ := isPlain_of_isUnreserved h
    rw [List.singleton_append, isEncoded_cons (ne_percent_of_isPlain hplain), hplain,
      Bool.true_and]
  next h =>
    have hhigh := isUpperHex_hexDigit (b.toNat / 16) (by omega)
    have hlow := isUpperHex_hexDigit (b.toNat % 16) (by omega)
    simp only [List.cons_append, List.nil_append, isEncoded, hhigh, hlow, Bool.true_and]

theorem isEncoded_encode (s : String) : isEncoded (encode s).toList = true := by
  unfold encode encodeChars
  rw [String.toList_ofList]
  induction s.toList.flatMap String.utf8EncodeChar with
  | nil => rfl
  | cons b bytes ih => rw [List.flatMap_cons, isEncoded_encodeByte, ih]

/-- The characters that separate the parts of a URL, and those that stand for a blank. -/
def separators : List Char := ['&', '=', '?', '#', '/', '+', ' ']

/-- Printable ASCII without the blank: no control character is among these. -/
def isVisible (c : Char) : Bool := 0x20 < c.toNat && c.toNat < 0x7F

theorem isVisible_encodeByte (n : Fin 256) :
    (encodeByte (UInt8.ofNat n)).all isVisible = true := by
  decide +kernel +revert

theorem isVisible_of_mem_encode {s : String} {c : Char} (h : c ∈ (encode s).toList) :
    isVisible c = true := by
  unfold encode encodeChars at h
  rw [String.toList_ofList] at h
  obtain ⟨b, -, hb⟩ := List.mem_flatMap.mp h
  have hall := isVisible_encodeByte ⟨b.toNat, b.toNat_lt⟩
  rw [UInt8.ofNat_toNat] at hall
  exact List.all_eq_true.mp hall c hb

theorem not_mem_separators {s : String} {c : Char} (h : c ∈ (encode s).toList) :
    c ∉ separators := by
  have hspecial : ∀ sep ∈ separators, sep ≠ '%' ∧ isPlain sep = false := by
    simp [separators, isPlain]
  exact fun hc => not_mem_encode (hspecial c hc) s h

end Text.Percent

/-! ## Texts of queries -/

namespace Url

open Text

theorem equals_mem_query {params : RequestParams} (h : params.entries ≠ []) :
    '=' ∈ (query params).toList := by
  have hquery : query params = (String.singleton '&').intercalate (params.entries.map pair) := rfl
  rw [hquery, String.toList_intercalate]
  match params.entries, h with
  | [e], _ => simp [pair]
  | e :: f :: es, _ => simp [pair, List.intercalate_cons_cons]

/-- Every pair has an equals sign, so only a query without pairs has no text. -/
theorem query_eq_empty_iff (params : RequestParams) : query params = "" ↔ params.entries = [] := by
  constructor
  · intro h
    by_contra hne
    have hmem := equals_mem_query hne
    rw [h] at hmem
    cases hmem
  · intro h
    unfold query joinPairs
    rw [h]
    rfl

theorem query_eq_iff {params params' : RequestParams} (h : PlainNames params)
    (h' : PlainNames params') : query params = query params' ↔ params = params' := by
  constructor
  · intro heq
    have hread : some params.entries = some params'.entries := by
      rw [← readQuery?_query h, ← readQuery?_query h', heq]
    obtain ⟨entries, hascending⟩ := params
    obtain ⟨entries', hascending'⟩ := params'
    cases Option.some.inj hread
    rfl
  · rintro rfl
    rfl

/-- The pairs of a query are read back from its text when no name has a character at which a query
is cut. An encoded value consists of plain characters and of percent signs with two upper-case
digits, so it has no separator, no blank and no control character. And of queries that calls have
built, of one kind or of two, the texts are equal exactly when the parameters are. -/
theorem url_query_is_read_back {Name : Type} [DecidableEq Name] :
    (∀ params : RequestParams, PlainNames params →
      readQuery? (query params) = some params.entries ∧ Ascending params.entries ∧
      (query params = "" ↔ params.entries = [])) ∧
    (∀ value : String, Percent.isEncoded (Percent.encode value).toList = true ∧
      ∀ c ∈ (Percent.encode value).toList, c ∉ Percent.separators ∧ Percent.isVisible c = true) ∧
    (∀ (calls calls' : List (QueriesCall Name QueryCall)) (name name' : Name),
      let q := Builder.run (fun _ => Query.empty) calls name
      let q' := Builder.run (fun _ => Query.empty) calls' name'
      q.urlQuery = q'.urlQuery ↔ q.requestParams = q'.requestParams) ∧
    (∀ (fields fields' : Name → List String) (calls calls' : List (QueriesCall Name FacetCall))
      (name name' : Name),
      let q := Builder.run (fun n => FacetQuery.ofFields (fields n)) calls name
      let q' := Builder.run (fun n => FacetQuery.ofFields (fields' n)) calls' name'
      q.urlQuery = q'.urlQuery ↔ q.requestParams = q'.requestParams) ∧
    ∀ (calls : List (QueriesCall Name QueryCall)) (fields : Name → List String)
      (calls' : List (QueriesCall Name FacetCall)) (name name' : Name),
      let q := Builder.run (fun _ => Query.empty) calls name
      let q' := Builder.run (fun n => FacetQuery.ofFields (fields n)) calls' name'
      q.urlQuery = q'.urlQuery ↔ q.requestParams = q'.requestParams := by
  refine ⟨fun params h => ⟨?_, params.ascending, query_eq_empty_iff params⟩, fun value => ⟨?_, ?_⟩,
    fun calls calls' name name' => ?_, fun fields fields' calls calls' name name' => ?_,
    fun calls fields calls' name name' => ?_⟩
  · exact readQuery?_query h
  · exact Percent.isEncoded_encode value
  · exact fun c hc => ⟨Percent.not_mem_separators hc, Percent.isVisible_of_mem_encode hc⟩
  · exact query_eq_iff (QueryCall.plainNames_run calls name) (QueryCall.plainNames_run calls' name')
  · exact query_eq_iff (FacetCall.plainNames_run fields calls name)
      (FacetCall.plainNames_run fields' calls' name')
  · exact query_eq_iff (QueryCall.plainNames_run calls name)
      (FacetCall.plainNames_run fields calls' name')

/-- One name is empty, one value is, and the other has a percent sign and characters of one to three
bytes. -/
theorem url_query_is_read_back_empty_name :
    let value := "50% of a+b=\u00e9 & \u20ac"
    PlainNames (.ofList [("q", ""), ("", value)]) ∧
    readQuery? (query (.ofList [("q", ""), ("", value)])) = some [("", value), ("q", "")] := by
  intro value
  have hnames : PlainNames (.ofList [("q", ""), ("", value)]) := by
    unfold PlainNames
    decide
  exact ⟨hnames, ((@url_query_is_read_back Nat _).1 _ hnames).1⟩

end Url

end TableQuery
