import TableQuery.Client.Config
import TableQuery.Client.Lookup
import TableQuery.Proofs.Json.Number

/-!
# Where a lookup goes

Sent on its own, a lookup goes to its path joined to the root of the server; in a batch it is there
as its URL. The join drops slashes at the start of the path, and the URL keeps them: the two are the
same address just when there are none.
-/

namespace TableQuery

def isSlash (c : Char) : Bool := c = '/'

namespace Config

/-- The root of the server without slashes at its end. -/
def root (c : Config) : String :=
  String.ofList (c.baseUrl.toList.reverse.dropWhile isSlash).reverse

theorem toList_urlFor (c : Config) (path : String) :
    (c.urlFor path).toList = c.root.toList ++ '/' :: path.toList.dropWhile isSlash := by
  simp only [urlFor, root, String.toList_ofList]
  rfl

end Config

namespace Url

theorem toList_withQuery (params : RequestParams) : ∃ rest,
    (∀ c ∈ rest.head?, isSlash c = false) ∧
      ∀ path, (withQuery path params).toList = path.toList ++ rest := by
  by_cases hparams : params.isEmpty = true
  · exact ⟨[], by simp, fun path => by simp [withQuery, hparams]⟩
  · refine ⟨'?' :: (query params).toList, ?_, fun path => ?_⟩
    · rintro _ ⟨⟩
      rfl
    · rw [withQuery, if_neg hparams, String.toList_append, String.toList_append, List.append_assoc]
      rfl

end Url

namespace Lookup

/-- The lookup of the path without slashes at its start. -/
def relative (l : Lookup) : Lookup :=
  { l with path := String.ofList (l.path.toList.dropWhile isSlash) }

theorem toList_url (l : Lookup) :
    l.url.toList = '/' :: (Url.withQuery l.path l.params).toList := by
  rw [url, String.toList_append]
  rfl

theorem urlFor_withQuery (c : Config) (l : Lookup) :
    c.urlFor (Url.withQuery l.path l.params) = c.root ++ l.relative.url := by
  obtain ⟨rest, hrest, hurl⟩ := Url.toList_withQuery l.params
  have hrelative : l.relative.url.toList = '/' :: (l.path.toList.dropWhile isSlash ++ rest) := by
    rw [toList_url]
    exact congrArg ('/' :: ·) ((hurl _).trans (by rw [relative, String.toList_ofList]))
  apply String.toList_injective
  rw [Config.toList_urlFor, hurl, Text.dropWhile_append_of_head hrest, String.toList_append,
    hrelative]

theorem relative_url_eq_iff (l : Lookup) :
    l.relative.url = l.url ↔ l.path.toList.head? ≠ some '/' := by
  obtain ⟨rest, -, hurl⟩ := Url.toList_withQuery l.params
  have hpath : l.relative.url = l.url ↔ l.path.toList.dropWhile isSlash = l.path.toList := by
    rw [← String.toList_inj, toList_url, toList_url, List.cons_inj_right, hurl, relative, hurl,
      List.append_left_inj, String.toList_ofList]
  rw [hpath, List.dropWhile_eq_self_iff]
  cases l.path.toList <;> simp [isSlash]

theorem takeWhile_url (l : Lookup) :
    l.url.toList.takeWhile isSlash = '/' :: l.path.toList.takeWhile isSlash := by
  obtain ⟨rest, hrest, hurl⟩ := Url.toList_withQuery l.params
  rw [toList_url, List.takeWhile_cons_of_pos rfl, hurl, Text.takeWhile_append_of_head hrest]

end Lookup

/-- A lookup that is sent on its own goes to its path without the slashes at its start. Its URL in a
batch leads to the same place just when there are none: it has one slash more than the path. -/
theorem direct_address_is_relative (c : Config) (l : Lookup) :
    c.urlFor (Url.withQuery l.path l.params) = c.root ++ l.relative.url ∧
      (c.urlFor (Url.withQuery l.path l.params) = c.root ++ l.url ↔
        l.path.toList.head? ≠ some '/') ∧
      l.url.toList.takeWhile isSlash = '/' :: l.path.toList.takeWhile isSlash := by
  refine ⟨l.urlFor_withQuery c, ?_, l.takeWhile_url⟩
  rw [l.urlFor_withQuery, ← l.relative_url_eq_iff, ← String.toList_inj, String.toList_append,
    String.toList_append, List.append_cancel_left_eq, String.toList_inj]

/-- With a slash at its start, a path is one address on its own and another one in a batch. -/
theorem embedded_address_keeps_slashes :
    ({} : Config).urlFor (Url.withQuery "/multi" ∅) = "http://api.v3.factual.com/multi" ∧
      ({} : Config).root ++ (Lookup.raw "/multi" ∅).url = "http://api.v3.factual.com//multi" ∧
      ¬ ∀ (c : Config) (l : Lookup), c.urlFor (Url.withQuery l.path l.params) = c.root ++ l.url := by
  have hdirect : ({} : Config).urlFor (Url.withQuery "/multi" ∅) =
      "http://api.v3.factual.com/multi" := by decide +kernel
  have hembedded : ({} : Config).root ++ (Lookup.raw "/multi" ∅).url =
      "http://api.v3.factual.com//multi" := by decide +kernel
  refine ⟨hdirect, hembedded, fun hall => ?_⟩
  have heq := hall {} (Lookup.raw "/multi" ∅)
  rw [hembedded] at heq
  exact absurd (hdirect.symm.trans heq) (by decide)

end TableQuery
