import TableQuery.Proofs.Yaml.Layout
import TableQuery.Yaml.Mapping

/-!
# Written mappings are read back

A text that holds written entries, one after the other, is read as these entries. The tokens, the
events and the values of the entries are found in turn, and each of these steps takes one entry
after the other.
-/

namespace TableQuery.Yaml

/-- An entry whose value is one scalar, and a form in which the scalar may be written. -/
structure Entry where
  name : String
  style : Style
  text : String
  written : List Char
  isKey : IsKey name.toList
  isWritten : Written style text.toList written

namespace Entry

def line (e : Entry) : List Char :=
  e.name.toList ++ ':' :: ' ' :: (e.written ++ lineEnding e.written)

def tokens (e : Entry) : List Token := [.key, .scalar .plain e.name, .value, .scalar e.style e.text]

/-- The key and the value. Neither has a tag. -/
def scalars (e : Entry) : List Scalar := [⟨.plain, none, e.name⟩, ⟨e.style, none, e.text⟩]

def events {α : Type} (e : Entry) : List (Event α) := e.scalars.map (.scalar none)

def pair (e : Entry) : String × Value := (e.name, .scalar ⟨e.style, none, e.text⟩)

variable (e : Entry) (entries : List Entry)

theorem toList_writeEntry : (writeEntry e.name (String.ofList e.written)).toList = e.line := by
  rw [writeEntry, line, lineEnding, String.toList_ofList]
  split <;> simp

/-! ## Characters -/

theorem isPrintable_line : ∀ c ∈ e.line, isPrintable c = true := by
  refine List.forall_mem_append.mpr ⟨fun c hc => (keyChars_spec (e.isKey.letters hc)).1, ?_⟩
  refine List.forall_mem_cons.mpr ⟨by decide, List.forall_mem_cons.mpr ⟨by decide, ?_⟩⟩
  exact List.forall_mem_append.mpr ⟨e.isWritten.isPrintable, isPrintable_lineEnding e.written⟩

theorem three_le_length_line : 3 ≤ e.line.length := by
  have := List.length_pos_iff.mpr e.isKey.ne_nil
  simp only [line, List.length_append, List.length_cons]
  omega

theorem length_lines : 3 * entries.length ≤ (entries.flatMap line).length := by
  induction entries with
  | nil => exact Nat.le_refl 0
  | cons e entries ih =>
    have := e.three_le_length_line
    rw [List.flatMap_cons, List.length_append, List.length_cons]
    omega

theorem beginsToken_lines : BeginsToken (entries.flatMap line) := by
  cases entries with
  | nil => rintro _ ⟨⟩
  | cons e entries =>
    rw [List.flatMap_cons, line, List.append_assoc]
    exact e.isKey.beginsToken _

/-! ## Tokens -/

open Layout

section

variable {place : Place} {before : List Token} {columns : List Nat}

theorem run?_entry (hcolumn : place.column = 0) (hcolumns : columns = [] ∨ columns = [0])
    {after : List Char} (hafter : BeginsToken after) : ∃ place' : Place, place'.column = 0 ∧
      ∀ fuel, run? (fuel + 3) (atEntry (e.line ++ after) place before columns) =
        run? fuel (atEntry after place' (e.tokens.reverse ++ (begun columns ++ before)) [0]) := by
  obtain ⟨place', hcolumn', hvalue⟩ := run?_value e.isWritten hafter
  refine ⟨place', hcolumn', fun fuel => ?_⟩
  have hline : e.line ++ after =
      e.name.toList ++ ':' :: ' ' :: (e.written ++ lineEnding e.written ++ after) := by
    simp [line]
  rw [hline, run?_key e.isKey hcolumn hcolumns, hvalue]
  simp [tokens]

theorem run?_end (fuel : Nat) :
    run? (fuel + 1) (atEntry [] place before [0]) = some (before.reverse ++ [.dedent]) := by
  have hself : (atEntry [] place before [0]).approach? = some (atEntry [] place before [0]) :=
    approach?_self (by rintro _ ⟨⟩) rfl rfl (by simp [atEntry])
  rw [run?, hself]
  simp [atEntry, finish?, endBlocks?, dedentAll, dedentWhile, inFlow, dropCandidate?, release?]

theorem run?_entries (hcolumn : place.column = 0) {fuel : Nat} (hfuel : 3 * entries.length < fuel) :
    run? fuel (atEntry (entries.flatMap line) place before [0]) =
      some (before.reverse ++ entries.flatMap tokens ++ [.dedent]) := by
  induction entries generalizing place before fuel with
  | nil =>
    obtain ⟨fuel, rfl⟩ := Nat.exists_eq_add_of_lt hfuel
    simpa using run?_end fuel
  | cons e entries ih =>
    rw [List.length_cons] at hfuel
    obtain ⟨fuel, rfl⟩ := Nat.exists_eq_add_of_le' (by omega : 3 ≤ fuel)
    obtain ⟨place', hcolumn', hentry⟩ :=
      @run?_entry e place before [0] hcolumn (.inr rfl) _ (beginsToken_lines entries)
    rw [List.flatMap_cons, hentry, ih hcolumn' (by omega)]
    simp [begun]

end

theorem tokens?_entries : tokens? ((e :: entries).flatMap line) =
    some (.indent .mapping :: ((e :: entries).flatMap tokens ++ [.dedent])) := by
  have hlength := length_lines (e :: entries)
  rw [List.length_cons] at hlength
  obtain ⟨fuel, hfuel⟩ := Nat.exists_eq_add_of_le'
    (by omega : 3 ≤ ((e :: entries).flatMap line).length + 1)
  -- The first entry begins the mapping; from there on the run is that of the others.
  obtain ⟨place, hcolumn, hentry⟩ :=
    @run?_entry e {} [] [] rfl (.inl rfl) _ (beginsToken_lines entries)
  rw [tokens?, hfuel, List.flatMap_cons]
  rw [atEntry] at hentry
  rw [hentry, run?_entries entries hcolumn (by omega)]
  simp [begun]

/-! ## Events -/

section

variable {spellTag? : String → String → Option String}

theorem expand?_scalar (style : Style) (text : String) (rest : List Token) :
    Goal.expand? spellTag? (.scalar style text :: rest) (.node true true) =
      some ([.scalar none ⟨style, none, text⟩], [], rest) := rfl

theorem expand?_key (style : Style) (text : String) (rest : List Token) :
    Goal.expand? spellTag? (.key :: .scalar style text :: rest) .blockKeys =
      some ([], [.node true true, .blockValue], .scalar style text :: rest) := rfl

theorem expand?_value (style : Style) (text : String) (rest : List Token) :
    Goal.expand? spellTag? (.value :: .scalar style text :: rest) .blockValue =
      some ([], [.node true true, .blockKeys], .scalar style text :: rest) := rfl

theorem meet?_entry (fuel : Nat) (rest : List Token) :
    meet? spellTag? (fuel + 4) [.blockKeys] (e.tokens ++ rest) =
      (meet? spellTag? fuel [.blockKeys] rest).map (e.events ++ ·) := by
  simp only [tokens, List.cons_append, List.nil_append, meet?, expand?_key, expand?_scalar,
    expand?_value, Option.bind_some]
  rw [Option.map_map, Option.map_map, Option.map_map]
  rfl

theorem meet?_entries {fuel : Nat} (hfuel : 4 * entries.length < fuel) :
    meet? spellTag? fuel [.blockKeys] (entries.flatMap tokens ++ [.dedent]) =
      some (entries.flatMap events ++ [.closing]) := by
  induction entries generalizing fuel with
  | nil =>
    obtain ⟨fuel, rfl⟩ := Nat.exists_eq_add_of_lt hfuel
    simp [meet?, Goal.expand?]
  | cons e entries ih =>
    rw [List.length_cons] at hfuel
    obtain ⟨fuel, rfl⟩ := Nat.exists_eq_add_of_le' (by omega : 4 ≤ fuel)
    rw [List.flatMap_cons, List.append_assoc, meet?_entry, ih (by omega)]
    simp

end

theorem length_tokens : (entries.flatMap tokens).length = 4 * entries.length := by
  induction entries with
  | nil => rfl
  | cons e entries ih =>
    rw [List.flatMap_cons, List.length_append, ih, List.length_cons]
    simp only [tokens, List.length_cons, List.length_nil]
    omega

theorem not_isBoundary : ∀ token ∈ .indent .mapping :: (entries.flatMap tokens ++ [.dedent]),
    (!token.isBoundary) = true := by
  have hentries : ∀ token ∈ entries.flatMap tokens, (!token.isBoundary) = true := by
    intro token htoken
    obtain ⟨e, -, htoken⟩ := List.mem_flatMap.mp htoken
    simp only [tokens, List.mem_cons, List.not_mem_nil, or_false] at htoken
    rcases htoken with rfl | rfl | rfl | rfl <;> rfl
  have hend : ∀ token ∈ [Token.dedent], (!token.isBoundary) = true := by decide
  exact List.forall_mem_cons.mpr ⟨rfl, List.forall_mem_append.mpr ⟨hentries, hend⟩⟩

theorem ofTokens?_entries (spellTag? : String → String → Option String) :
    Event.ofTokens? spellTag? (.indent .mapping :: (entries.flatMap tokens ++ [.dedent])) =
      some (.opening .mapping none :: (entries.flatMap events ++ [.closing])) := by
  have hlength : (.indent .mapping :: (entries.flatMap tokens ++ [Token.dedent])).length =
      4 * entries.length + 2 := by
    rw [List.length_cons, List.length_append, length_tokens]
    rfl
  have hopening (rest : List Token) :
      Goal.expand? spellTag? (.indent .mapping :: rest) (.node true false) =
        some ([.opening .mapping none], [.blockKeys], rest) := rfl
  obtain ⟨fuel, hfuel⟩ := Nat.exists_eq_add_of_le'
    (by omega : 1 ≤ 5 * (4 * entries.length + 2 + 1))
  have hentries := @meet?_entries entries spellTag? fuel (by omega)
  simp only [Event.ofTokens?, hlength, hfuel, meet?, hopening, Option.bind_some, List.append_nil,
    hentries, Option.map_some, List.singleton_append]

theorem documentEvents?_entries :
    documentEvents? (.indent .mapping :: (entries.flatMap tokens ++ [.dedent])) =
      some (.opening .mapping none :: (entries.flatMap events ++ [.closing])) := by
  have hkept := @Text.takeWhile_span _ _ _ [] (not_isBoundary entries) (by simp)
  have hrest := @Text.dropWhile_span _ _ _ [] (not_isBoundary entries) (by simp)
  rw [List.append_nil] at hkept hrest
  -- Nothing in front of the content is a directive, so all of the tokens are its.
  change contentEvents? [] false (.indent .mapping :: (entries.flatMap tokens ++ [.dedent])) = _
  rw [contentEvents?, hkept, hrest, ofTokens?_entries]
  rfl

theorem numberAnchors?_entries (names : List (String × Nat)) :
    numberAnchors? names (entries.flatMap events ++ [.closing]) =
      some (entries.flatMap events ++ [.closing]) := by
  induction entries with
  | nil => rfl
  | cons e entries ih =>
    rw [List.flatMap_cons, List.append_assoc]
    simp only [events, scalars, List.map_cons, List.map_nil, List.cons_append, List.nil_append,
      numberAnchors?] at ih ⊢
    rw [ih]
    rfl

/-! ## Values -/

theorem heads_entries : heads 0 (entries.flatMap events ++ [Event.closing]) =
    entries.flatMap (@events Nat) := by
  induction entries with
  | nil => rfl
  | cons e entries ih =>
    rw [List.flatMap_cons, List.append_assoc]
    simp only [events, scalars, List.map_cons, List.map_nil, List.cons_append, List.nil_append,
      heads, if_true] at ih ⊢
    rw [ih]

theorem mapM_resolve?_entries (all : List (Event Nat)) :
    (entries.flatMap events).mapM (resolve? all) =
      some (entries.flatMap fun e => e.scalars.map .scalar) := by
  induction entries with
  | nil => rfl
  | cons e entries ih =>
    rw [List.flatMap_cons, List.mapM_append, ih]
    rfl

theorem pairUp?_entries : pairUp? (entries.flatMap fun e => e.scalars.map .scalar) =
    some (entries.map pair) := by
  induction entries with
  | nil => rfl
  | cons e entries ih =>
    simp only [List.flatMap_cons, scalars, List.map_cons, List.map_nil, List.cons_append,
      List.nil_append, pairUp?] at ih ⊢
    rw [ih]
    rfl

end Entry

/-- A text of written entries is a mapping of just these entries. -/
theorem readMapping?_entries (entries : List Entry) {text : String}
    (htext : text.toList = entries.flatMap Entry.line) :
    readMapping? text = some (entries.map Entry.pair) := by
  have hprintable : ∀ c ∈ text.toList, isPrintable c = true := by
    rw [htext]
    intro c hc
    obtain ⟨e, -, hc⟩ := List.mem_flatMap.mp hc
    exact e.isPrintable_line c hc
  have hallowed : text.toList.all isAllowed = true :=
    List.all_eq_true.mpr fun c hc => isAllowed_of_isPrintable (hprintable c hc)
  rw [readMapping?, if_pos hallowed, unifyBreaks_of_isPrintable hprintable, htext]
  cases entries with
  | nil => rfl
  | cons e entries =>
    simp only [Entry.tokens?_entries, Entry.documentEvents?_entries, Option.bind_eq_bind,
      Option.bind_some, numberAnchors?, Entry.numberAnchors?_entries,
      Option.map_some, entries?, Entry.heads_entries, Entry.mapM_resolve?_entries,
      Entry.pairUp?_entries]

end TableQuery.Yaml
