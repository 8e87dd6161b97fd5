import TableQuery.Proofs.Json.Reading
import TableQuery.Proofs.Json.RoundTrip

/-!
# How deep a text may nest

Main statement: the text of a value is read just when the value nests no deeper than a reader
allows. In the text of a value that nests deeper, the reader goes wrong where the first container
too many begins.
-/

namespace TableQuery.Json

namespace Reader

theorem run_open_of_full {outer : List Frame} (hfull : ¬ outer.length < maxNesting) {t : Token}
    (ht : t = .openArray ∨ t = .openObject) (rest : List Token) :
    run (.value outer) (t :: rest) = .error .malformed := by
  rcases ht with rfl | rfl <;> simp [run_cons, step, beginValue, hfull, Except.bind]

-- The reader gets through every container that is not too deep, so by induction on the value it
-- comes to one that is. The bound on the frames says that no container too many is open yet.
mutual

theorem run_tokens_of_deep (v : Json) (outer : List Frame) (rest : List Token) (hv : v.Ordered)
    (houter : outer.length ≤ maxNesting) (hdeep : maxNesting < v.nesting + outer.length) :
    run (.value outer) (tokens v rest) = .error .malformed := by
  by_cases hopen : outer.length < maxNesting
  · match v with
    | .null | .bool _ | .number _ | .string _ => simp only [nesting] at hdeep; omega
    | .array [] => simp only [nesting, nestingItems] at hdeep; omega
    | .array (item :: items) =>
      obtain ⟨hitem, hitems⟩ := hv
      simp only [nesting, nestingItems] at hdeep
      have hstep : run (.value outer) (tokens (.array (item :: items)) rest) =
          run (.value (.items [] :: outer)) (tokens item (itemTokens items (.closeArray :: rest))) := by
        rw [← run_firstItem]
        simp [tokens, run_cons, step, beginValue, hopen, Except.bind]
      rw [hstep]
      by_cases hfits : item.nesting + (outer.length + 1) ≤ maxNesting
      · rw [run_tokens item (.items [] :: outer) _ hitem hfits]
        exact run_itemTokens_of_deep items outer [] item _ hitems hopen (by omega)
      · exact run_tokens_of_deep item _ _ hitem hopen (by simp only [List.length_cons]; omega)
    | .object [] => simp only [nesting, nestingMembers] at hdeep; omega
    | .object ((key, w) :: members) =>
      obtain ⟨-, hw, hmembers⟩ := hv
      simp only [nesting, nestingMembers] at hdeep
      have hstep : run (.value outer) (tokens (.object ((key, w) :: members)) rest) =
          run (.value (.members [] key :: outer))
            (tokens w (memberTokens members (.closeObject :: rest))) := by
        simp [tokens, run_cons, step, beginValue, beginKey, hopen, Except.bind]
      rw [hstep]
      by_cases hfits : w.nesting + (outer.length + 1) ≤ maxNesting
      · rw [run_tokens w (.members [] key :: outer) _ hw hfits]
        exact run_memberTokens_of_deep members outer [] key w _ hmembers hopen (by omega)
      · exact run_tokens_of_deep w _ _ hw hopen (by simp only [List.length_cons]; omega)
  · match v with
    | .null | .bool _ | .number _ | .string _ => simp only [nesting] at hdeep; omega
    | .array [] | .array (_ :: _) => exact run_open_of_full hopen (.inl rfl) _
    | .object [] | .object (_ :: _) => exact run_open_of_full hopen (.inr rfl) _

theorem run_itemTokens_of_deep (items : List Json) (outer : List Frame) (read : List Json) (v : Json)
    (rest : List Token) (hitems : OrderedItems items) (hopen : outer.length < maxNesting)
    (hdeep : maxNesting < nestingItems items + 1 + outer.length) :
    run (.after (.items read :: outer) v) (itemTokens items rest) = .error .malformed := by
  match items with
  | [] => simp only [nestingItems] at hdeep; omega
  | item :: items =>
    obtain ⟨hitem, hitems⟩ := hitems
    simp only [nestingItems] at hdeep
    change run (.value (.items (v :: read) :: outer)) (tokens item (itemTokens items rest)) = _
    by_cases hfits : item.nesting + (outer.length + 1) ≤ maxNesting
    · rw [run_tokens item (.items (v :: read) :: outer) _ hitem hfits]
      exact run_itemTokens_of_deep items outer (v :: read) item rest hitems hopen (by omega)
    · exact run_tokens_of_deep item _ _ hitem hopen (by simp only [List.length_cons]; omega)

theorem run_memberTokens_of_deep (members : List (String × Json)) (outer : List Frame)
    (read : List (String × Json)) (key : String) (w : Json) (rest : List Token)
    (hmembers : OrderedMembers members) (hopen : outer.length < maxNesting)
    (hdeep : maxNesting < nestingMembers members + 1 + outer.length) :
    run (.after (.members read key :: outer) w) (memberTokens members rest) =
      .error .malformed := by
  match members with
  | [] => simp only [nestingMembers] at hdeep; omega
  | (k, v) :: members =>
    obtain ⟨hv, hmembers⟩ := hmembers
    simp only [nestingMembers] at hdeep
    change run (.value (.members (Entries.insert key w read) k :: outer))
      (tokens v (memberTokens members rest)) = _
    by_cases hfits : v.nesting + (outer.length + 1) ≤ maxNesting
    · rw [run_tokens v (.members (Entries.insert key w read) k :: outer) _ hv hfits]
      exact run_memberTokens_of_deep members outer _ k v rest hmembers hopen (by omega)
    · exact run_tokens_of_deep v _ _ hv hopen (by simp only [List.length_cons]; omega)

end

end Reader

theorem parse_render_of_deep {v : Json} (hordered : v.Ordered) (hdeep : maxNesting < v.nesting) :
    parse v.render = .error .malformed := by
  have hrun := Reader.run_tokens_of_deep v.reread [] [] (ordered_reread v hordered)
    (Nat.zero_le _) (by simpa [nesting_reread] using hdeep)
  rw [parse, tokenize_render, ofTokens, hrun]
  rfl

theorem exists_parse_render_iff {v : Json} (hordered : v.Ordered) :
    (∃ w, parse v.render = .ok w) ↔ v.nesting ≤ maxNesting := by
  constructor
  · rintro ⟨w, hw⟩
    refine Nat.not_lt.mp fun hdeep => ?_
    rw [parse_render_of_deep hordered hdeep] at hw
    cases hw
  · intro hdeep
    exact ⟨v.reread, parse_render_eq hordered hdeep⟩

theorem parse_render_object {members : List (String × Json)} (h : MembersFit 1 members)
    (hdoubles : ∀ e ∈ members, e.2.DoublesReadBack) :
    parse (Json.object members).render = .ok (.object members) := by
  obtain ⟨hordered, hdeep⟩ := fits_object (by decide) h
  exact parse_render hordered hdeep (doublesReadBack_object hdoubles)

end TableQuery.Json
