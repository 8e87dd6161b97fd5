import TableQuery.Proofs.Yaml.Plain
import TableQuery.Proofs.Yaml.Quoted
import TableQuery.Proofs.Yaml.Scalar
import TableQuery.Yaml.Layout

/-!
# The tokens of written entries

Between two entries of a written mapping the layout is at the first column, in the one block
collection that was begun by the first entry, and no key is pending. One entry leads from there to
the same situation after it.
-/

namespace TableQuery.Yaml

namespace Layout

/-! ## Places -/

theorem moveTo_of_append {l : Layout} {front rest : List Char} (h : l.rest = front ++ rest) :
    l.moveTo rest = { l with rest, place := front.foldl Place.after l.place } := by
  have htake : (front ++ rest).take ((front ++ rest).length - rest.length) = front := by
    rw [List.length_append, Nat.add_sub_cancel, List.take_left]
  rw [moveTo, h, htake]

theorem column_after_break {b : Char} (hb : isBreak b = true) (front : List Char) (p : Place) :
    ((front ++ [b]).foldl Place.after p).column = 0 := by
  rw [List.foldl_append]
  simp [Place.after, hb]

/-! ## Getting to a token -/

theorem dropStale?_of_fresh {l : Layout} (houter : l.outer = [])
    (hcandidate : l.candidate.any (·.isStale l.place) = false) : l.dropStale? = some l := by
  obtain ⟨rest, place, tokens, columns, admitsKey, candidate, outer⟩ := l
  subst houter
  simp [dropStale?, hcandidate]

theorem dedentWhile_of_head {l : Layout} {p : Nat → Bool}
    (h : ∀ column ∈ l.columns.head?, p column = false) : l.dedentWhile p = l := by
  have htake := @Text.takeWhile_span _ p [] l.columns (by simp) h
  have hdrop := @Text.dropWhile_span _ p [] l.columns (by simp) h
  rw [List.nil_append] at htake hdrop
  unfold dedentWhile
  split
  · rfl
  · simp [htake, hdrop]

section

variable {l : Layout} {spaces rest : List Char} (hrest : l.rest = spaces ++ rest)
  (hspaces : ∀ c ∈ spaces, c = ' ') (hbegins : BeginsToken rest)
include hrest hspaces hbegins

theorem skipMark_spaces : l.skipMark = l := by
  have hmark : l.rest.head? ≠ some '\ufeff' := by
    rw [hrest]
    cases spaces with
    | nil => exact fun h => (hbegins _ h).2.2 rfl
    | cons c spaces => simp [hspaces c List.mem_cons_self]
  simp [skipMark, hmark]

theorem skipVoid_spaces (fuel : Nat) : skipVoid (fuel + 1) l = l.moveTo rest := by
  have hpassed : ∀ c ∈ spaces, l.isPassed c = true := fun c hc => by simp [isPassed, hspaces c hc]
  have hstop : ∀ c ∈ rest.head?, l.isPassed c = false := by
    intro c hc
    have hgap := (hbegins c hc).1
    simp only [isGap, isBlank, Bool.or_eq_false_iff, decide_eq_false_iff_not] at hgap
    simp [isPassed, hgap]
  have hcomment : rest.head? ≠ some '#' := fun h => (hbegins _ h).2.1 rfl
  rw [skipVoid, skipMark_spaces hrest hspaces hbegins, hrest, Text.dropWhile_span hpassed hstop]
  simp only [hcomment]
  cases rest with
  | nil => rfl
  | cons c rest => simp [not_isBreak (hbegins c rfl).1]

/-- No key goes stale and no block ends on the way to the next token. -/
theorem approach?_spaces (houter : l.outer = [])
    (hcandidate : l.candidate.any (·.isStale (l.moveTo rest).place) = false)
    (hcolumns : ∀ column ∈ l.columns.head?, column ≤ (l.moveTo rest).place.column) :
    l.approach? = some (l.moveTo rest) := by
  have hstale : (l.moveTo rest).dropStale? = some (l.moveTo rest) :=
    dropStale?_of_fresh houter hcandidate
  have hdedent : (l.moveTo rest).dedentWhile ((l.moveTo rest).place.column < ·) = l.moveTo rest :=
    dedentWhile_of_head fun column hcolumn => by simpa using hcolumns column hcolumn
  rw [approach?, skipVoid_spaces hrest hspaces hbegins, hstale, Option.map_some, hdedent]

end

theorem moveTo_self (l : Layout) : l.moveTo l.rest = l := by
  rw [@moveTo_of_append l [] l.rest rfl]
  rfl

theorem approach?_self {l : Layout} (hbegins : BeginsToken l.rest) (houter : l.outer = [])
    (hcandidate : l.candidate.any (·.isStale l.place) = false)
    (hcolumns : ∀ column ∈ l.columns.head?, column ≤ l.place.column) : l.approach? = some l := by
  have happroach := @approach?_spaces l [] l.rest rfl (by simp) hbegins houter
  rw [moveTo_self] at happroach
  exact happroach hcandidate hcolumns

theorem approach?_break {l : Layout} {rest : List Char} (hrest : l.rest = '\n' :: rest)
    (houter : l.outer = []) :
    l.approach? = approach? { l.moveTo rest with admitsKey := true } := by
  have hmark : l.skipMark = l := by simp [skipMark, hrest]
  have hpassed : l.isPassed '\n' = false := by simp [isPassed]
  have hflow : l.inFlow = false := by simp [inFlow, houter]
  have hskip (fuel : Nat) : skipVoid (fuel + 1) l =
      skipVoid fuel { l.moveTo rest with admitsKey := true } := by
    rw [skipVoid, hmark, hrest]
    simp [hpassed, isBreak_lineFeed, hflow]
  rw [approach?, approach?, hskip, hrest]
  rfl

theorem run?_congr {l₁ l₂ : Layout} (h : l₁.approach? = l₂.approach?) (fuel : Nat) :
    run? fuel l₁ = run? fuel l₂ := by
  cases fuel with
  | zero => rfl
  | succ fuel => rw [run?, run?, h]

theorem run?_succ {l l' : Layout} (happroach : l.approach? = some l') (hne : l'.rest ≠ [])
    (fuel : Nat) : run? (fuel + 1) l = l'.next?.bind (run? fuel) := by
  rw [run?, happroach]
  simp [hne]

/-! ## The next token -/

section

variable {l : Layout} {c : Char} {more : List Char} (hrest : l.rest = c :: more)
include hrest

theorem isMarker_eq_false {mark : Char} (hc : c ≠ mark) : isMarker mark l.rest = false := by
  rw [hrest]
  cases more with
  | nil => simp [isMarker]
  | cons d more => cases more <;> simp [isMarker, hc]

theorem next?_quote (hquote : isQuote c = true) : l.next? = l.quoted? c := by
  have hc : c = '"' ∨ c = '\'' := by simpa [isQuote] using hquote
  rcases hc with rfl | rfl
  all_goals
    have hstart := isMarker_eq_false hrest (by decide : _ ≠ '-')
    have hend := isMarker_eq_false hrest (by decide : _ ≠ '.')
    rw [hrest] at hstart hend
    rw [next?.eq_def, hrest]
    simp [hstart, hend, hquote]

theorem next?_literal (hc : c = '|') (houter : l.outer = []) : l.next? = l.block? .literal := by
  subst hc
  have hstart := isMarker_eq_false hrest (by decide : _ ≠ '-')
  have hend := isMarker_eq_false hrest (by decide : _ ≠ '.')
  rw [hrest] at hstart hend
  rw [next?.eq_def, hrest]
  simp [hstart, hend, inFlow, houter]

theorem next?_colon (hc : c = ':') (hword : endsWord more = true) : l.next? = l.value? := by
  subst hc
  have hstart := isMarker_eq_false hrest (by decide : _ ≠ '-')
  have hend := isMarker_eq_false hrest (by decide : _ ≠ '.')
  rw [hrest] at hstart hend
  rw [next?.eq_def, hrest]
  simp [hstart, hend, hword]

theorem next?_plain (houter : l.outer = []) (hgap : isGap c = false)
    (hindicator : isIndicator c = false)
    (hword : endsWord more = true → c ≠ '-' ∧ c ≠ '?' ∧ c ≠ ':')
    (hstart : isMarker '-' l.rest = false) (hend : isMarker '.' l.rest = false) :
    l.next? = l.plain? := by
  rw [hrest] at hstart hend
  have hother (d : Char) (hd : isIndicator d = true) : c ≠ d := (ne_of_test hd hindicator).symm
  have hquote : isQuote c = false := by
    simp [isQuote, hother '"' (by decide), hother '\'' (by decide)]
  rw [next?.eq_def, hrest]
  simp [hstart, hend, inFlow, houter, hgap, hindicator, hquote, hother '%' (by decide),
    hother '[' (by decide), hother ']' (by decide), hother '\x7b' (by decide),
    hother '\x7d' (by decide), hother ',' (by decide), hother '*' (by decide),
    hother '&' (by decide), hother '!' (by decide), hother '|' (by decide), hother '>' (by decide)]
  rw [if_neg fun h => (hword h.2).1 h.1, if_neg fun h => (hword h.2).2.1 h.1,
    if_neg fun h => (hword h.2).2.2 h.1]

end

end Layout

/-! ## Keys -/

def keyChars : List Char := "abcdefghijklmnopqrstuvwxyz_".toList

/-- A name that is written as a key just as it is. -/
structure IsKey (name : List Char) : Prop where
  ne_nil : name ≠ []
  letters : name ⊆ keyChars
  short : name.length ≤ maxKeyLength

theorem keyChars_spec {c : Char} (h : c ∈ keyChars) : isPrintable c = true ∧
    isGap c = false ∧ isIndicator c = false ∧ c.utf8Size = 1 ∧
      c ≠ ':' ∧ c ≠ '-' ∧ c ≠ '?' ∧ c ≠ '.' ∧ c ≠ '\ufeff' := by
  have hall : keyChars.all (fun c => decide (isPrintable c = true ∧ isGap c = false ∧
      isIndicator c = false ∧ c.utf8Size = 1 ∧ c ≠ ':' ∧ c ≠ '-' ∧ c ≠ '?' ∧ c ≠ '.' ∧
        c ≠ '\ufeff')) = true := by
    decide +kernel
  exact of_decide_eq_true (List.all_eq_true.mp hall c h)

theorem IsKey.beginsToken {name : List Char} (h : IsKey name) (after : List Char) :
    BeginsToken (name ++ after) := by
  obtain ⟨c, more, rfl⟩ := List.exists_cons_of_ne_nil h.ne_nil
  obtain ⟨-, hgap, hindicator, -, -, -, -, -, hmark⟩ := keyChars_spec (h.letters List.mem_cons_self)
  rintro _ ⟨⟩
  exact ⟨hgap, (ne_of_test (by decide) hindicator).symm, hmark⟩

theorem foldl_place_of_isKey {name : List Char} (h : name ⊆ keyChars) (p : Place) :
    name.foldl Place.after p = ⟨p.offset + name.length, p.line, p.column + name.length⟩ := by
  induction name generalizing p with
  | nil => rfl
  | cons c name ih =>
    obtain ⟨hc, hname⟩ := List.cons_subset.mp h
    obtain ⟨-, hgap, -, hsize, -⟩ := keyChars_spec hc
    rw [List.foldl_cons, ih hname, Place.after, hsize, not_isBreak hgap]
    simp only [Bool.false_eq_true, if_false, List.length_cons, Place.mk.injEq, true_and]
    omega

theorem takeWord?_of_isKey {name : List Char} (h : name ⊆ keyChars)
    (more : List Char) :
    takeWord? false (name ++ ':' :: ' ' :: more) = some (name, ':' :: ' ' :: more) := by
  have hword : endsWord (' ' :: more) = true := rfl
  induction name with
  | nil => simp [takeWord?, hword]
  | cons c name ih =>
    obtain ⟨hc, hname⟩ := List.cons_subset.mp h
    obtain ⟨-, hgap, -, -, hcolon, -⟩ := keyChars_spec hc
    simp [takeWord?, hgap, hcolon, ih hname]

theorem plain?_of_isKey {name : List Char} (h : name ⊆ keyChars) (margin : Nat)
    (more : List Char) :
    plain? false margin (name ++ ':' :: ' ' :: more) = some ⟨name, false, ':' :: ' ' :: more⟩ := by
  have hgap : takeGap (':' :: ' ' :: more) = ([], ':' :: ' ' :: more) :=
    @takeGap_append [] (':' :: ' ' :: more) (by simp) (by simp [isGap, isBlank, isBreak])
  simp [plain?, readPlain?, takeWord?_of_isKey h, hgap, hasEarlyTab]

namespace Layout

variable (name more rest : List Char) (place : Place) (tokens : List Token) (columns : List Nat)

/-- A block collection is begun where none is open. -/
def begun : List Token := if columns.isEmpty then [.indent .mapping] else []

/-- The layout in front of an entry. -/
def atEntry : Layout := { rest, place, tokens, columns }

/-- The layout behind the name that an entry begins with, if the entry begins at `place`. -/
def atColon (isRequired : Bool) : Layout where
  rest := ':' :: ' ' :: more
  place := name.foldl Place.after place
  tokens := .scalar .plain (String.ofList name) :: tokens
  columns
  admitsKey := false
  candidate := some ⟨place, isRequired, tokens.length⟩

/-- The layout behind the colon of an entry. -/
def atValue : Layout where
  rest
  place
  tokens
  columns := [0]
  admitsKey := false

variable {name more rest place tokens columns}

theorem plain?_atEntry (hname : name ⊆ keyChars) : ∃ isRequired,
    (atEntry (name ++ ':' :: ' ' :: more) place tokens columns).plain? =
      some (atColon name more place tokens columns isRequired) := by
  refine ⟨columns.head? = some place.column, ?_⟩
  rw [Layout.plain?, atEntry]
  simp only [saveCandidate?, dropCandidate?, release?, if_true, Option.map_some, Option.bind_some,
    inFlow, List.isEmpty_nil, Bool.not_true, Bool.not_false, Bool.true_and]
  rw [plain?_of_isKey hname, Option.map_some, @moveTo_of_append _ name (':' :: ' ' :: more) rfl]
  rfl

theorem insertToken_append {l : Layout} {later earlier : List Token}
    (h : l.tokens = later ++ earlier) (token : Token) :
    l.insertToken earlier.length token = { l with tokens := later ++ token :: earlier } := by
  simp [insertToken, h]

theorem value?_atColon (hcolumn : place.column = 0) (hcolumns : columns = [] ∨ columns = [0])
    (isRequired : Bool) : (atColon name more place tokens columns isRequired).value? =
      some (atValue (' ' :: more) ((name ++ [':']).foldl Place.after place)
        (.value :: .scalar .plain (String.ofList name) :: .key :: (begun columns ++ tokens))) := by
  simp only [value?, atColon]
  rw [@insertToken_append _ [.scalar .plain (String.ofList name)] tokens rfl]
  rcases hcolumns with rfl | rfl
  · simp only [indentTo, inFlow, List.isEmpty_nil, Bool.not_true, Bool.not_false, List.head?_nil,
      Option.all_none, Bool.and_self, if_true]
    rw [@insertToken_append _ [.scalar .plain (String.ofList name), .key] tokens rfl]
    simp [hcolumn, take, push, moveTo, begun, atValue]
  · simp [indentTo, inFlow, hcolumn, take, push, moveTo, begun, atValue]

/-- The name takes as many bytes as it has characters, so it can still be a key at the colon. -/
theorem approach?_atColon (hkey : IsKey name)
    (hcolumns : ∀ column ∈ columns.head?, column ≤ (name.foldl Place.after place).column)
    (isRequired : Bool) : (atColon name more place tokens columns isRequired).approach? =
      some (atColon name more place tokens columns isRequired) := by
  have hbegins : BeginsToken (':' :: ' ' :: more) := by
    rintro _ ⟨⟩
    decide
  have hfresh : Candidate.isStale ⟨place, isRequired, tokens.length⟩
      (name.foldl Place.after place) = false := by
    have := hkey.short
    simp only [foldl_place_of_isKey hkey.letters, Candidate.isStale, Bool.or_eq_false_iff,
      decide_eq_false_iff_not]
    omega
  exact approach?_self hbegins rfl hfresh hcolumns

/-- A key is the plain text in front of a colon, and it begins the mapping if none is open. -/
theorem run?_key (hkey : IsKey name) (hcolumn : place.column = 0)
    (hcolumns : columns = [] ∨ columns = [0]) (fuel : Nat) :
    run? (fuel + 2) (atEntry (name ++ ':' :: ' ' :: more) place tokens columns) =
      run? fuel (atValue (' ' :: more) ((name ++ [':']).foldl Place.after place)
        (.value :: .scalar .plain (String.ofList name) :: .key :: (begun columns ++ tokens))) := by
  obtain ⟨c, rest, hname⟩ := List.exists_cons_of_ne_nil hkey.ne_nil
  obtain ⟨-, hgap, hindicator, -, hcolon, hdash, hmark, hdot, -⟩ :=
    keyChars_spec (hkey.letters (hname ▸ List.mem_cons_self))
  have hle (column : Nat) : ∀ first ∈ columns.head?, first ≤ column := by
    rcases hcolumns with rfl | rfl <;> simp
  obtain ⟨isRequired, hplain⟩ := @plain?_atEntry name more place tokens columns hkey.letters
  have hnext : (atEntry (name ++ ':' :: ' ' :: more) place tokens columns).next? =
      some (atColon name more place tokens columns isRequired) := by
    rw [← hplain, hname]
    exact next?_plain rfl rfl hgap hindicator (fun _ => ⟨hdash, hmark, hcolon⟩)
      (isMarker_eq_false rfl hdash) (isMarker_eq_false rfl hdot)
  have hentry : (atEntry (name ++ ':' :: ' ' :: more) place tokens columns).approach? =
      some (atEntry (name ++ ':' :: ' ' :: more) place tokens columns) :=
    approach?_self (hkey.beginsToken _) rfl rfl (hle _)
  -- The name is one token, and the colon that makes it a key is the other.
  rw [run?_succ hentry (by simp [atEntry]), hnext, Option.bind_some,
    run?_succ (approach?_atColon hkey (hle _) isRequired) (by simp [atColon]),
    next?_colon rfl rfl rfl, value?_atColon hcolumn hcolumns, Option.bind_some]

/-! ## Values -/

@[simp] theorem rest_atValue : (atValue rest place tokens).rest = rest := rfl

@[simp] theorem inFlow_atValue : (atValue rest place tokens).inFlow = false := rfl

@[simp] theorem margin_atValue : (atValue rest place tokens).margin = 1 := rfl

@[simp] theorem saveCandidate?_atValue :
    (atValue rest place tokens).saveCandidate? = some (atValue rest place tokens) := rfl

@[simp] theorem dropCandidate?_atValue :
    (atValue rest place tokens).dropCandidate? = some (atValue rest place tokens) := rfl

theorem moveTo_atValue {front : List Char} (h : rest = front ++ more) :
    (atValue rest place tokens).moveTo more =
      atValue more (front.foldl Place.after place) tokens := by
  rw [@moveTo_of_append (atValue rest place tokens) front more h]
  rfl

theorem approach?_atValue (hbegins : BeginsToken rest) :
    (atValue (' ' :: rest) place tokens).approach? =
      some (atValue rest (place.after ' ') tokens) := by
  have happroach := @approach?_spaces (atValue (' ' :: rest) place tokens) [' '] rest rfl
    (by simp) hbegins rfl rfl (by simp [atValue])
  rw [happroach, @moveTo_atValue rest (' ' :: rest) place tokens [' '] rfl]
  rfl

variable {cs after : List Char}

theorem next?_atValue_plain (hne : cs ≠ []) (hplain : isPlain cs = true)
    (hafter : BeginsToken after) : (atValue (cs ++ '\n' :: after) place tokens).next? =
      some (atEntry after ((cs ++ ['\n']).foldl Place.after place)
        (.scalar .plain (String.ofList cs) :: tokens) [0]) := by
  have hmove := @moveTo_atValue after (cs ++ '\n' :: after) place tokens (cs ++ ['\n']) (by simp)
  have hread : (atValue (cs ++ '\n' :: after) place tokens).plain? =
      some (atEntry after ((cs ++ ['\n']).foldl Place.after place)
        (.scalar .plain (String.ofList cs) :: tokens) [0]) := by
    simp only [Layout.plain?, saveCandidate?_atValue, Option.bind_some, inFlow_atValue,
      margin_atValue, rest_atValue, plain?_of_isPlain hplain hafter, Option.map_some, hmove]
    rfl
  rw [← hread]
  obtain ⟨c, cs, rfl⟩ := List.exists_cons_of_ne_nil hne
  obtain ⟨hgap, hindicator, -, hword⟩ := head_of_isPlain hplain
  exact next?_plain rfl rfl hgap hindicator (endsWord_append_break cs after ▸ hword)
    (isMarker_of_isPlain hplain (.inl rfl) after) (isMarker_of_isPlain hplain (.inr rfl) after)

theorem next?_atValue_quoted {quote : Char} {body : List Char} (hquote : isQuote quote = true)
    (hread : Yaml.quoted? quote (body ++ after) = some (String.ofList cs, after)) :
    (atValue (quote :: (body ++ after)) place tokens).next? =
      some (atValue after ((quote :: body).foldl Place.after place)
        (.scalar .quoted (String.ofList cs) :: tokens)) := by
  have hmove := @moveTo_atValue after (quote :: (body ++ after)) place tokens (quote :: body) rfl
  simp only [next?_quote rest_atValue hquote, Layout.quoted?, word?, saveCandidate?_atValue,
    Option.bind_some, rest_atValue, List.drop_succ_cons, List.drop_zero, hread, Option.map_some,
    hmove]
  rfl

theorem next?_atValue_block {front lines : List Char}
    (hread : Block.read? true 1 lines = some (String.ofList cs, after))
    (hfront : '|' :: lines = front ++ after) :
    (atValue ('|' :: lines) place tokens).next? =
      some (atEntry after (front.foldl Place.after place)
        (.scalar .literal (String.ofList cs) :: tokens) [0]) := by
  simp only [next?_literal rest_atValue rfl rfl, block?, dropCandidate?_atValue, Option.bind_some,
    decide_true, margin_atValue, rest_atValue, List.drop_succ_cons, List.drop_zero, hread,
    Option.map_some, moveTo_atValue hfront]
  rfl

theorem run?_break (fuel : Nat) : run? fuel (atValue ('\n' :: rest) place tokens) =
    run? fuel (atEntry rest (place.after '\n') tokens [0]) := by
  refine run?_congr ?_ fuel
  rw [@approach?_break (atValue ('\n' :: rest) place tokens) rest rfl rfl,
    @moveTo_atValue rest ('\n' :: rest) place tokens ['\n'] rfl]
  rfl

theorem run?_value {style : Style} {written : List Char} (h : Written style cs written)
    (hafter : BeginsToken after) : ∃ place' : Place, place'.column = 0 ∧ ∀ fuel,
      run? (fuel + 1) (atValue (' ' :: (written ++ lineEnding written ++ after)) place tokens) =
        run? fuel (atEntry after place' (.scalar style (String.ofList cs) :: tokens) [0]) := by
  obtain ⟨front, b, hfront, hb⟩ := exists_break written
  have hbegins : BeginsToken (written ++ lineEnding written ++ after) := by
    rw [List.append_assoc]
    exact h.beginsToken _
  have hsome : written ++ lineEnding written ++ after ≠ [] := by
    rw [hfront]
    simp
  have hending := h.lineEnding_eq
  refine ⟨(written ++ lineEnding written).foldl Place.after (place.after ' '), ?_, fun fuel => ?_⟩
  · rw [hfront]
    exact column_after_break hb front _
  rw [run?_succ (approach?_atValue hbegins) hsome]
  cases h with
  | plain hne hplain =>
    rw [hending (by simp), List.append_assoc, List.singleton_append,
      next?_atValue_plain hne hplain hafter]
    rfl
  | single hsingle hfeed =>
    have hread := @quoted?_singleBody cs ('\n' :: after) hsingle hfeed (by simp)
    have hnext := @next?_atValue_quoted (place.after ' ') tokens cs ('\n' :: after) '\'' _ rfl hread
    rw [hending (by simp), singleQuoted_eq, List.append_assoc, List.cons_append,
      List.singleton_append, hnext, Option.bind_some, run?_break, List.foldl_append]
    rfl
  | double =>
    have hread := quoted?_doubleBody cs ('\n' :: after)
    have hnext := @next?_atValue_quoted (place.after ' ') tokens cs ('\n' :: after) '"' _ rfl hread
    rw [hending (by simp), doubleQuoted_eq, List.append_assoc, List.cons_append,
      List.singleton_append, hnext, Option.bind_some, run?_break, List.foldl_append]
    rfl
  | block hne hprintable =>
    obtain ⟨lines, hlines, hread⟩ := Block.read?_block hprintable hne hafter
    rw [hlines, next?_atValue_block hread hlines.symm]
    rfl

end Layout

end TableQuery.Yaml
