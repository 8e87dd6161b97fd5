import TableQuery.Proofs.Json.Lexeme
import TableQuery.Proofs.Json.Reread

/-!
# Values are read back from their text

Main statement: a value whose members are in order and that nests no deeper than a reader allows is
read from its text, with each double as its own text is read. When the doubles are read back, so is
the value.
-/

namespace TableQuery.Json

/-! ## The tokens of a value -/

mutual

theorem map_reread_tokens (v : Json) (rest : List Token) :
    (tokens v rest).map Token.reread = tokens v.reread (rest.map Token.reread) := by
  match v with
  | .null => rfl
  | .bool _ => rfl
  | .number _ => rfl
  | .string _ => rfl
  | .array [] => rfl
  | .array (item :: items) =>
    simp only [tokens, List.map_cons, map_reread_tokens item, map_reread_itemTokens items]
    rfl
  | .object [] => rfl
  | .object ((key, value) :: members) =>
    simp only [tokens, List.map_cons, map_reread_tokens value, map_reread_memberTokens members]
    rfl

theorem map_reread_itemTokens (items : List Json) (rest : List Token) :
    (itemTokens items rest).map Token.reread =
      itemTokens (rereadItems items) (rest.map Token.reread) := by
  match items with
  | [] => rfl
  | item :: items =>
    simp only [itemTokens, List.map_cons, map_reread_tokens item, map_reread_itemTokens items]
    rfl

theorem map_reread_memberTokens (members : List (String × Json)) (rest : List Token) :
    (memberTokens members rest).map Token.reread =
      memberTokens (rereadMembers members) (rest.map Token.reread) := by
  match members with
  | [] => rfl
  | (key, value) :: members =>
    simp only [memberTokens, List.map_cons, map_reread_tokens value, map_reread_memberTokens members]
    rfl

end

/-! ## The text of a value is legible -/

theorem startsApart_itemTokens (items : List Json) {rest : List Token} (h : StartsApart rest) :
    StartsApart (itemTokens items rest) := by
  cases items with
  | nil => exact h
  | cons item items => rintro t ht; cases ht; rfl

theorem startsApart_memberTokens (members : List (String × Json)) {rest : List Token}
    (h : StartsApart rest) : StartsApart (memberTokens members rest) := by
  cases members with
  | nil => exact h
  | cons member members => rintro t ht; cases ht; rfl

theorem startsApart_cons {t : Token} (h : t.isNumber = false) (ts : List Token) :
    StartsApart (t :: ts) := by
  rintro u hu
  cases hu
  exact h

theorem allLegible_cons {t : Token} {ts : List Token} (hb : t.isBroken = false)
    (hn : t.isNumber = false) (hts : AllLegible ts) : AllLegible (t :: ts) :=
  ⟨hb, fun h => (Bool.eq_false_iff.mp hn h).elim, hts⟩

theorem allLegible_key (key : String) {ts : List Token} (hts : AllLegible ts) :
    AllLegible (.string key :: .colon :: ts) :=
  allLegible_cons rfl rfl (allLegible_cons rfl rfl hts)

mutual

theorem allLegible_tokens (v : Json) {rest : List Token} (hrest : AllLegible rest)
    (hapart : StartsApart rest) : AllLegible (tokens v rest) := by
  match v with
  | .null => exact allLegible_cons rfl rfl hrest
  | .bool b => exact allLegible_cons rfl rfl hrest
  | .number n => exact ⟨rfl, fun _ => hapart, hrest⟩
  | .string s => exact allLegible_cons rfl rfl hrest
  | .array [] => exact allLegible_cons rfl rfl (allLegible_cons rfl rfl hrest)
  | .array (item :: items) =>
    have hclose : AllLegible (.closeArray :: rest) := allLegible_cons rfl rfl hrest
    have hitems := allLegible_itemTokens items hclose (startsApart_cons rfl _)
    refine allLegible_cons rfl rfl ?_
    exact allLegible_tokens item hitems (startsApart_itemTokens items (startsApart_cons rfl _))
  | .object [] => exact allLegible_cons rfl rfl (allLegible_cons rfl rfl hrest)
  | .object ((key, value) :: members) =>
    have hclose : AllLegible (.closeObject :: rest) := allLegible_cons rfl rfl hrest
    have hmembers := allLegible_memberTokens members hclose (startsApart_cons rfl _)
    refine allLegible_cons rfl rfl (allLegible_key key ?_)
    exact allLegible_tokens value hmembers (startsApart_memberTokens members (startsApart_cons rfl _))

theorem allLegible_itemTokens (items : List Json) {rest : List Token} (hrest : AllLegible rest)
    (hapart : StartsApart rest) : AllLegible (itemTokens items rest) := by
  match items with
  | [] => exact hrest
  | item :: items =>
    have hitems := allLegible_itemTokens items hrest hapart
    refine allLegible_cons rfl rfl ?_
    exact allLegible_tokens item hitems (startsApart_itemTokens items hapart)

theorem allLegible_memberTokens (members : List (String × Json)) {rest : List Token}
    (hrest : AllLegible rest) (hapart : StartsApart rest) :
    AllLegible (memberTokens members rest) := by
  match members with
  | [] => exact hrest
  | (key, value) :: members =>
    have hmembers := allLegible_memberTokens members hrest hapart
    refine allLegible_cons rfl rfl (allLegible_key key ?_)
    exact allLegible_tokens value hmembers (startsApart_memberTokens members hapart)

end

/-! ## The reader goes over the tokens of a value -/

namespace Reader

theorem run_cons (reader : Reader) (t : Token) (ts : List Token) :
    run reader (t :: ts) = (reader.step t).bind fun next => run next ts := rfl

theorem run_firstItem (outer : List Frame) (v : Json) (rest : List Token) :
    run (.firstItem outer) (tokens v rest) = run (.value (.items [] :: outer)) (tokens v rest) := by
  match v with
  | .null => rfl
  | .bool _ => rfl
  | .number _ => rfl
  | .string _ => rfl
  | .array [] => rfl
  | .array (_ :: _) => rfl
  | .object [] => rfl
  | .object (_ :: _) => rfl

theorem ascending_middle {read members : List (String × Json)} {key : String} {value : Json}
    (h : Ascending (read ++ (key, value) :: members)) :
    Entries.insert key value read = read ++ [(key, value)] :=
  Entries.insert_of_last fun e he => (List.pairwise_append.mp h).2.2 e he _ List.mem_cons_self

mutual

theorem run_tokens (v : Json) (outer : List Frame) (rest : List Token) (hv : v.Ordered)
    (hdeep : v.nesting + outer.length ≤ maxNesting) :
    run (.value outer) (tokens v rest) = run (.after outer v) rest := by
  match v with
  | .null => rfl
  | .bool _ => rfl
  | .number _ => rfl
  | .string _ => rfl
  | .array [] =>
    rw [nesting] at hdeep
    have hopen : outer.length < maxNesting := by omega
    simp [tokens, run_cons, step, beginValue, hopen, Except.bind]
  | .array (item :: items) =>
    obtain ⟨hitem, hitems⟩ := hv
    simp only [nesting, nestingItems] at hdeep
    have hopen : outer.length < maxNesting := by omega
    calc run (.value outer) (tokens (.array (item :: items)) rest)
        = run (.firstItem outer) (tokens item (itemTokens items (.closeArray :: rest))) := by
          simp [tokens, run_cons, step, beginValue, hopen, Except.bind]
      _ = run (.after (.items [] :: outer) item) (itemTokens items (.closeArray :: rest)) := by
          rw [run_firstItem, run_tokens item _ _ hitem (by simp only [List.length_cons]; omega)]
      _ = run (.after outer (.array (item :: items))) rest :=
          run_itemTokens items outer [] item rest hitems (by omega)
  | .object [] =>
    rw [nesting] at hdeep
    have hopen : outer.length < maxNesting := by omega
    simp [tokens, run_cons, step, beginValue, hopen, Except.bind]
  | .object ((key, w) :: members) =>
    obtain ⟨hascending, hw, hmembers⟩ := hv
    simp only [nesting, nestingMembers] at hdeep
    have hopen : outer.length < maxNesting := by omega
    calc run (.value outer) (tokens (.object ((key, w) :: members)) rest)
        = run (.value (.members [] key :: outer))
            (tokens w (memberTokens members (.closeObject :: rest))) := by
          simp [tokens, run_cons, step, beginValue, beginKey, hopen, Except.bind]
      _ = run (.after (.members [] key :: outer) w)
            (memberTokens members (.closeObject :: rest)) :=
          run_tokens w _ _ hw (by simp only [List.length_cons]; omega)
      _ = run (.after outer (.object ((key, w) :: members))) rest :=
          run_memberTokens members outer [] key w rest hascending hmembers (by omega)

theorem run_itemTokens (items : List Json) (outer : List Frame) (read : List Json) (v : Json)
    (rest : List Token) (hitems : OrderedItems items)
    (hdeep : nestingItems items + 1 + outer.length ≤ maxNesting) :
    run (.after (.items read :: outer) v) (itemTokens items (.closeArray :: rest)) =
      run (.after outer (.array ((v :: read).reverse ++ items))) rest := by
  match items with
  | [] => simp [itemTokens, run_cons, step, Except.bind]
  | item :: items =>
    obtain ⟨hitem, hitems⟩ := hitems
    simp only [nestingItems] at hdeep
    calc run (.after (.items read :: outer) v) (itemTokens (item :: items) (.closeArray :: rest))
        = run (.value (.items (v :: read) :: outer))
            (tokens item (itemTokens items (.closeArray :: rest))) := rfl
      _ = run (.after (.items (v :: read) :: outer) item) (itemTokens items (.closeArray :: rest)) :=
          run_tokens item _ _ hitem (by simp only [List.length_cons]; omega)
      _ = run (.after outer (.array ((item :: v :: read).reverse ++ items))) rest :=
          run_itemTokens items outer (v :: read) item rest hitems (by omega)
      _ = run (.after outer (.array ((v :: read).reverse ++ item :: items))) rest := by simp

theorem run_memberTokens (members : List (String × Json)) (outer : List Frame)
    (read : List (String × Json)) (key : String) (w : Json) (rest : List Token)
    (hascending : Ascending (read ++ (key, w) :: members)) (hmembers : OrderedMembers members)
    (hdeep : nestingMembers members + 1 + outer.length ≤ maxNesting) :
    run (.after (.members read key :: outer) w) (memberTokens members (.closeObject :: rest)) =
      run (.after outer (.object (read ++ (key, w) :: members))) rest := by
  have hinsert := ascending_middle hascending
  match members with
  | [] => simp [memberTokens, run_cons, step, Except.bind, hinsert]
  | (k, v) :: members =>
    obtain ⟨hv, hmembers⟩ := hmembers
    simp only [nestingMembers] at hdeep
    have hsplit : read ++ (key, w) :: (k, v) :: members =
        (read ++ [(key, w)]) ++ (k, v) :: members := by simp
    calc run (.after (.members read key :: outer) w)
            (memberTokens ((k, v) :: members) (.closeObject :: rest))
        = run (.value (.members (Entries.insert key w read) k :: outer))
            (tokens v (memberTokens members (.closeObject :: rest))) := rfl
      _ = run (.after (.members (read ++ [(key, w)]) k :: outer) v)
            (memberTokens members (.closeObject :: rest)) := by
          rw [hinsert, run_tokens v _ _ hv (by simp only [List.length_cons]; omega)]
      _ = run (.after outer (.object ((read ++ [(key, w)]) ++ (k, v) :: members))) rest :=
          run_memberTokens members outer _ k v rest (hsplit ▸ hascending) hmembers (by omega)
      _ = run (.after outer (.object (read ++ (key, w) :: (k, v) :: members))) rest := by
          rw [hsplit]

end

end Reader

theorem tokenize_render (v : Json) : tokenize v.render.toList = tokens v.reread [] := by
  have hlegible : AllLegible (tokens v []) :=
    allLegible_tokens v trivial fun t ht => nomatch ht
  rw [render, String.toList_ofList, tokenize_flatMap hlegible, map_reread_tokens, List.map_nil]

/-- A value that nests no deeper than a reader allows is read from its text, but for the doubles that
are read as another double. -/
theorem parse_render_eq {v : Json} (hordered : v.Ordered) (hdeep : v.nesting ≤ maxNesting) :
    parse v.render = .ok v.reread := by
  have hrun := Reader.run_tokens v.reread [] [] (ordered_reread v hordered)
    ((nesting_reread v).symm ▸ hdeep)
  rw [parse, tokenize_render, ofTokens, hrun]
  rfl

theorem parse_render {v : Json} (hordered : v.Ordered) (hdeep : v.nesting ≤ maxNesting)
    (hdoubles : v.DoublesReadBack) : parse v.render = .ok v := by
  rw [parse_render_eq hordered hdeep, reread_eq_self v hdoubles]

end TableQuery.Json
