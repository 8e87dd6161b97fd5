import Mathlib.Data.List.Nodup
import TableQuery.Client.Queue
import TableQuery.Proofs.Client.Names
import TableQuery.Proofs.Json.Depth
import TableQuery.Proofs.Url.Decoding

/-!
# A batch is read back from what is sent

The one parameter of a batch is an object with a URL under each key. However many lookups there are,
the object has one member for each, and its URL gives back the path and the parameters.
-/

namespace TableQuery

/-! ## Objects of texts -/

namespace Json

def IsText : Json → Prop
  | .string _ => True
  | _ => False

theorem parse_render_texts {members : List (String × Json)} (hascending : Ascending members)
    (htexts : ∀ e ∈ members, e.2.IsText) : parse (object members).render = .ok (.object members) := by
  refine parse_render_object ⟨hascending, ?_⟩ ?_
  · rintro ⟨key, v⟩ he
    have hv := htexts _ he
    cases v with
    | string s => exact ⟨trivial, show 0 + 1 ≤ maxNesting by decide⟩
    | _ => cases hv
  · rintro ⟨key, v⟩ he
    have hv := htexts _ he
    cases v with
    | string s => exact nofun
    | _ => cases hv

end Json

/-! ## Keys -/

namespace Batch

theorem key_injective : Function.Injective key := by
  intro i j h
  have hdigits : i.repr = j.repr := (String.append_right_inj "q").mp h
  have hchars : Nat.toDigits 10 i = Nat.toDigits 10 j := by
    rw [← Nat.toList_repr, ← Nat.toList_repr, hdigits]
  rw [← Json.digitsValue_toDigits i, ← Json.digitsValue_toDigits j, hchars]

theorem keys_nodup (n : Nat) : ((List.range n).map key).Nodup :=
  List.nodup_range.map key_injective

variable (lookups : List Lookup)

theorem getElem?_entries (i : Nat) :
    (ofLookups lookups).entries[i]? = lookups[i]?.map (key i, ·) := by
  unfold ofLookups
  exact List.getElem?_mapIdx

theorem getElem?_kinds (i : Nat) :
    (ofLookups lookups).kinds[i]? = lookups[i]?.map fun l => (key i, l.kind) := by
  rw [kinds, List.getElem?_map, getElem?_entries, Option.map_map]
  rfl

theorem kinds_ofLookups :
    (ofLookups lookups).kinds = lookups.mapIdx fun i l => (key i, l.kind) := by
  refine List.ext_getElem? fun i => ?_
  rw [getElem?_kinds, List.getElem?_mapIdx]

theorem length_kinds : (ofLookups lookups).kinds.length = lookups.length := by
  rw [kinds_ofLookups, List.length_mapIdx]

theorem getElem_kinds {i : Nat} (hi : i < lookups.length)
    (hlt : i < (ofLookups lookups).kinds.length) :
    (ofLookups lookups).kinds[i] = (key i, lookups[i].kind) := by
  simp [kinds_ofLookups]

theorem forall_mem_kinds {P : String × ResponseKind → Prop}
    (h : ∀ i (hi : i < lookups.length), P (key i, lookups[i].kind)) :
    ∀ request ∈ (ofLookups lookups).kinds, P request := by
  intro request hrequest
  obtain ⟨i, hlt, rfl⟩ := List.mem_iff_getElem.mp hrequest
  have hi : i < lookups.length := length_kinds lookups ▸ hlt
  exact getElem_kinds lookups hi hlt ▸ h i hi

theorem keys_entries :
    (ofLookups lookups).entries.map (·.1) = (List.range lookups.length).map key := by
  refine List.ext_getElem? fun i => ?_
  rw [List.getElem?_map, getElem?_entries, List.getElem?_map]
  by_cases h : i < lookups.length
  · simp [h]
  · simp [h]

theorem pending_foldl_push (q : Queue) :
    (lookups.foldl Queue.push q).pending = q.pending ++ lookups := by
  induction lookups generalizing q with
  | nil => simp
  | cons l lookups ih =>
    rw [List.foldl_cons, ih, Queue.push, List.append_assoc]
    rfl

/-- The members of the object that a batch sends, before they are put in order. -/
def urls : List (String × Json) :=
  (ofLookups lookups).entries.map fun (key, l) => (key, .string l.url)

theorem keys_urls : (urls lookups).map (·.1) = (List.range lookups.length).map key := by
  rw [← keys_entries, urls, List.map_map]
  rfl

theorem urls_perm : (Entries.ofList (urls lookups)).Perm (urls lookups) :=
  Entries.ofList_perm (keys_urls lookups ▸ keys_nodup lookups.length)

theorem keys_perm : ((Entries.ofList (urls lookups)).map (·.1)).Perm
    ((List.range lookups.length).map key) :=
  keys_urls lookups ▸ (urls_perm lookups).map (·.1)

theorem parse_queries : Json.parse (ofLookups lookups).queries.render =
    .ok (.object (Entries.ofList (urls lookups))) := by
  refine Json.parse_render_texts (Entries.ascending_ofList _) fun e he => ?_
  have hmem : e ∈ urls lookups := (urls_perm lookups).mem_iff.mp he
  obtain ⟨entry, -, rfl⟩ := List.mem_map.mp hmem
  trivial

theorem get?_urls {i : Nat} (h : i < lookups.length) :
    Entries.get? (key i) (Entries.ofList (urls lookups)) = some (.string lookups[i].url) := by
  refine Entries.get?_of_mem (Entries.ascending_ofList _) ((urls_perm lookups).mem_iff.mpr ?_)
  refine List.mem_map.mpr ⟨(key i, lookups[i]), List.mem_of_getElem? (i := i) ?_, rfl⟩
  rw [getElem?_entries, List.getElem?_eq_getElem h]
  rfl

end Batch

/-- The lookups of a batch are read back from the one text it sends: from the URL under each key the
path and the parameters, and the kind from the table of kinds. Lookups that are made from queries have
only names that can be told apart in a URL. -/
theorem batch_is_read_back :
    (∀ l : Lookup, l.OfQuery → Url.PlainNames l.params) ∧
    ∀ lookups : List Lookup, (∀ l ∈ lookups, '?' ∉ l.path.toList) →
    (∀ l ∈ lookups, Url.PlainNames l.params) →
    let batch := (lookups.foldl Queue.push ∅).drain.1
    ∃ text members, batch.requestParams.entries = [("queries", text)] ∧
      Json.parse text = .ok (.object members) ∧
      (members.map (·.1)).Perm ((List.range lookups.length).map Batch.key) ∧
      (members.map (·.1)).Nodup ∧ batch.kinds.length = lookups.length ∧
      ∀ i (h : i < lookups.length),
        (∃ url, Entries.get? (Batch.key i) members = some (.string ("/" ++ url)) ∧
          Url.read? url = some (lookups[i].path, lookups[i].params.entries)) ∧
        batch.kinds[i]? = some (Batch.key i, lookups[i].kind) := by
  refine ⟨fun l hl => hl.plainNames, fun lookups hpaths hnames => ?_⟩
  intro batch
  have hbatch : batch = .ofLookups lookups := by
    change Batch.ofLookups (lookups.foldl Queue.push ∅).pending = _
    rw [Batch.pending_foldl_push]
    rfl
  have hkeys := Batch.keys_perm lookups
  rw [hbatch]
  refine ⟨(Batch.ofLookups lookups).queries.render, Entries.ofList (Batch.urls lookups), rfl,
    Batch.parse_queries lookups, hkeys, hkeys.nodup_iff.mpr (Batch.keys_nodup _), ?_, ?_⟩
  · simp [Batch.kinds, Batch.ofLookups]
  · intro i h
    refine ⟨⟨Url.withQuery lookups[i].path lookups[i].params, Batch.get?_urls lookups h, ?_⟩, ?_⟩
    · exact Url.read?_withQuery (hpaths _ (List.getElem_mem h)) (hnames _ (List.getElem_mem h))
    · rw [Batch.getElem?_kinds, List.getElem?_eq_getElem h]
      rfl

theorem batch_is_read_back_twelfth :
    let params : RequestParams := .ofList [("limit", "5"), ("q", "caf\u00e9 & bar=1?")]
    let lookups := List.replicate 11 (Lookup.schema "places") ++ [.raw "t/places" params]
    let batch := (lookups.foldl Queue.push ∅).drain.1
    ((∀ l ∈ lookups, '?' ∉ l.path.toList) ∧ ∀ l ∈ lookups, Url.PlainNames l.params) ∧
    ∃ text members url, batch.requestParams.entries = [("queries", text)] ∧
      Json.parse text = .ok (.object members) ∧
      Entries.get? "q11" members = some (.string ("/" ++ url)) ∧
      Url.read? url = some ("t/places", [("limit", "5"), ("q", "caf\u00e9 & bar=1?")]) := by
  intro params lookups batch
  have hpaths : ∀ l ∈ lookups, '?' ∉ l.path.toList := by decide
  have hnames : ∀ l ∈ lookups, Url.PlainNames l.params := by
    unfold Url.PlainNames
    decide
  obtain ⟨text, members, htext, hparse, -, -, -, hread⟩ :=
    batch_is_read_back.2 lookups hpaths hnames
  obtain ⟨⟨url, hmember, hurl⟩, -⟩ := hread 11 (by decide)
  exact ⟨⟨hpaths, hnames⟩, text, members, url, htext, hparse, hmember, hurl⟩

end TableQuery
