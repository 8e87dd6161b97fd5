import TableQuery.Proofs.Command.Flags
import TableQuery.Proofs.Command.Query
import TableQuery.Proofs.Text.Trim

/-!
# Orders on the command line

What an option for an order may look like, and that the form in which orders are sent is one of these:
it is read as the order that it was made from.
-/

namespace TableQuery

namespace SortArgument

def direction (s : SortArgument) : String := if s.descending then "desc" else "asc"

def wire (s : SortArgument) : String := s.field ++ ":" ++ s.direction

/-- A field without a colon is an order of its own; otherwise a direction, in letters of either case,
is what comes after the last colon. -/
def Spells (text : String) (s : SortArgument) : Prop :=
  s.field ≠ "" ∧ ((':' ∉ text.toList ∧ s = ⟨text, false⟩) ∨
    ∃ direction, text = s.field ++ ":" ++ direction ∧ direction.map Char.toLower = s.direction)

/-- What may be written for an order once the blanks around it are gone. -/
def IsForm (text : String) : Prop :=
  text ≠ "" ∧ (':' ∉ text.toList ∨ ∃ field direction, text = field ++ ":" ++ direction ∧
    ':' ∉ direction.toList ∧ field ≠ "" ∧ direction.map Char.toLower ∈ ["asc", "desc"])

theorem direction_eq_iff (s : SortArgument) (d : String) :
    d = s.direction ↔ d = "asc" ∧ s.descending = false ∨ d = "desc" ∧ s.descending = true := by
  unfold direction
  cases s.descending <;> simp

theorem not_mem_of_map_toLower {d : String} {s : SortArgument}
    (h : d.map Char.toLower = s.direction) : ':' ∉ d.toList := by
  intro hcolon
  have hlower : ':' ∈ s.direction.toList := by
    rw [← h, String.toList_map]
    exact List.mem_map_of_mem hcolon
  unfold direction at hlower
  split at hlower <;> simp at hlower

theorem parse_of_cut {text field direction : String}
    (h : (Text.cutLast? ':' (Text.trim text)).getD (Text.trim text, "asc") = (field, direction))
    (s : SortArgument) :
    parse text = .ok s ↔ s.field = field ∧ field ≠ "" ∧ direction.map Char.toLower = s.direction := by
  obtain ⟨f, b⟩ := s
  simp only [parse, h, direction_eq_iff, String.isEmpty_iff]
  split
  next hempty => simp [hempty]
  next hne =>
    split
    next hasc => simp [hasc, hne, eq_comm]
    next hasc =>
      split
      next hdesc => simp [hdesc, hne, eq_comm]
      next hdesc => simp [hasc, hdesc]

theorem map_toLower_direction (s : SortArgument) :
    s.direction.map Char.toLower = s.direction := by
  rw [← String.toList_inj, String.toList_map]
  unfold direction
  split <;> simp

theorem parse_eq_ok_iff {text : String} {s : SortArgument} :
    parse text = .ok s ↔ Spells (Text.trim text) s := by
  cases hcut : Text.cutLast? ':' (Text.trim text) with
  | none =>
    have hcolon := Text.cutLast?_eq_none_iff.mp hcut
    have hnot : ∀ direction, Text.trim text ≠ s.field ++ ":" ++ direction := by
      rintro direction heq
      exact hcolon (by simp [heq])
    have hparse := parse_of_cut (congrArg (·.getD (Text.trim text, "asc")) hcut) s
    have hasc : "asc".map Char.toLower = "asc" := map_toLower_direction ⟨"", false⟩
    rw [hparse, hasc, direction_eq_iff]
    simp only [Spells, hcolon, hnot, not_false_iff, true_and, false_and, exists_false, or_false]
    obtain ⟨f, b⟩ := s
    simp only [mk.injEq]
    grind
  | some parts =>
    obtain ⟨field, direction⟩ := parts
    obtain ⟨heq, hlast⟩ := Text.cutLast?_eq_some_iff.mp hcut
    have hcolon : ':' ∈ (Text.trim text).toList := by simp [heq]
    rw [parse_of_cut (congrArg (·.getD (Text.trim text, "asc")) hcut)]
    constructor
    · rintro ⟨hfield, hne, hdirection⟩
      exact ⟨hfield ▸ hne, .inr ⟨direction, hfield ▸ heq, hdirection⟩⟩
    · rintro ⟨hne, ⟨hnone, -⟩ | ⟨d, hd, hdirection⟩⟩
      · exact absurd hcolon hnone
      · have hsame : Text.cutLast? ':' (Text.trim text) = some (s.field, d) :=
          Text.cutLast?_eq_some_iff.mpr ⟨hd, not_mem_of_map_toLower hdirection⟩
        cases hcut.symm.trans hsame
        exact ⟨rfl, hne, hdirection⟩

theorem exists_parse_iff (text : String) :
    (∃ s, parse text = .ok s) ↔ IsForm (Text.trim text) := by
  simp only [parse_eq_ok_iff]
  constructor
  · rintro ⟨s, hne, ⟨hcolon, rfl⟩ | ⟨d, hd, hdirection⟩⟩
    · exact ⟨hne, .inl hcolon⟩
    · refine ⟨by simp [hd], .inr ⟨s.field, d, hd, not_mem_of_map_toLower hdirection, hne, ?_⟩⟩
      rw [hdirection, direction]
      split <;> simp
  · rintro ⟨hne, hcolon | ⟨field, d, hd, -, hfield, hdirection⟩⟩
    · exact ⟨⟨Text.trim text, false⟩, hne, .inl ⟨hcolon, rfl⟩⟩
    · have hdirection : d.map Char.toLower = "asc" ∨ d.map Char.toLower = "desc" := by
        simpa using hdirection
      rcases hdirection with hasc | hdesc
      · exact ⟨⟨field, false⟩, hfield, .inr ⟨d, hd, hasc⟩⟩
      · exact ⟨⟨field, true⟩, hfield, .inr ⟨d, hd, hdesc⟩⟩

/-! ## The form that is sent -/

theorem isTrimmed_wire {s : SortArgument} (hne : s.field ≠ "")
    (hfirst : ∀ c ∈ s.field.toList.head?, Text.isBlank c = false) :
    Text.IsTrimmed s.wire.toList := by
  constructor
  · intro c hc
    obtain ⟨first, rest, hfield⟩ := List.exists_cons_of_ne_nil (mt String.toList_eq_nil_iff.mp hne)
    refine hfirst c ?_
    simpa [wire, hfield] using hc
  · intro c hc
    have hlast : s.wire.toList.getLast? = some 'c' := by
      unfold wire direction
      split <;> simp
    cases hlast.symm.trans hc
    decide

theorem parse_wire {s : SortArgument} (hne : s.field ≠ "")
    (hfirst : ∀ c ∈ s.field.toList.head?, Text.isBlank c = false) : parse s.wire = .ok s := by
  rw [parse_eq_ok_iff, Text.trim_of_isTrimmed (isTrimmed_wire hne hfirst)]
  exact ⟨hne, .inr ⟨s.direction, rfl, map_toLower_direction s⟩⟩

/-- Blanks may stand inside the field and at its end, but not at its start. -/
theorem field_of_spells {text : String} {s : SortArgument} (h : Spells (Text.trim text) s) :
    s.field ≠ "" ∧ ∀ c ∈ s.field.toList.head?, Text.isBlank c = false := by
  have hstart : s.field.toList <+: (Text.trim text).toList := by
    obtain ⟨-, ⟨-, rfl⟩ | ⟨d, hd, -⟩⟩ := h
    · exact List.prefix_rfl
    · exact ⟨':' :: d.toList, by simp [hd]⟩
  refine ⟨h.1, fun c hc => ?_⟩
  have htrimmed := Text.isTrimmed_trimChars text.toList
  rw [← Text.toList_trim] at htrimmed
  exact htrimmed.1 c (Text.head_of_prefix hstart hc)

theorem parse_wire_of_parse {text : String} {s : SortArgument} (h : parse text = .ok s) :
    parse s.wire = .ok s := by
  obtain ⟨hne, hfirst⟩ := field_of_spells (parse_eq_ok_iff.mp h)
  exact parse_wire hne hfirst

theorem not_mem_wire {s : SortArgument} (h : ',' ∉ s.field.toList) : ',' ∉ s.wire.toList := by
  unfold wire direction
  split <;> simpa using h

theorem sorts_sortCall (s : SortArgument) : (Arguments.sortCall s).sorts = [s.wire] := by
  unfold Arguments.sortCall wire direction
  split <;> simp [QueryCall.sorts, String.append_assoc]

end SortArgument

namespace Arguments

theorem sorts_setUp (args : Arguments) :
    (args.setUp ++ [QueryCall.includeRowCount args.includeCount]).flatMap QueryCall.sorts =
      args.sorts.map SortArgument.wire := by
  have hoptional {α : Type} (o : Option α) (made : α → QueryCall)
      (h : ∀ a, (made a).sorts = []) : (o.toList.map made).flatMap QueryCall.sorts = [] := by
    cases o <;> simp [h]
  have hsorts : (args.sorts.map sortCall).flatMap QueryCall.sorts =
      args.sorts.map SortArgument.wire := by
    rw [List.flatMap_map, List.map_eq_flatMap]
    simp only [SortArgument.sorts_sortCall]
  simp only [setUp, List.flatMap_append, hsorts]
  rw [hoptional _ _ fun _ => rfl, hoptional _ _ fun _ => rfl, hoptional _ _ fun _ => rfl,
    hoptional _ _ fun _ => rfl]
  simp [QueryCall.sorts]

theorem get?_sort_query (args : Arguments) : args.query.requestParams.get? "sort" =
    Edit.joined? (args.sorts.map SortArgument.wire) := by
  rw [get?_query, ← sorts_setUp]
  rfl

theorem addSort_empty (s : SortArgument) : addSort ∅ s = query { sorts := [s] } := by
  obtain ⟨field, _ | _⟩ := s <;> rfl

theorem pieces_sort {args : Arguments} (hne : args.sorts ≠ [])
    (hcommas : ∀ s ∈ args.sorts, ',' ∉ s.field.toList) :
    ∃ text, args.query.requestParams.get? "sort" = some text ∧
      Text.pieces ',' text = args.sorts.map SortArgument.wire := by
  have hwires : args.sorts.map SortArgument.wire ≠ [] := by simpa using hne
  rw [get?_sort_query, Edit.joined?_of_ne_nil hwires]
  refine ⟨_, rfl, Text.pieces_intercalate hwires ?_⟩
  exact List.forall_mem_map.mpr fun s hs => SortArgument.not_mem_wire (hcommas s hs)

theorem parse_sent_sorts {flags : List Flag} {args : Arguments} (hflags : takeAll {} flags = .ok args)
    (hne : textsOf .sort flags ≠ []) (hcommas : ∀ s ∈ args.sorts, ',' ∉ s.field.toList) :
    (textsOf .sort flags).mapM SortArgument.parse = .ok args.sorts ∧
      ∃ text, args.query.requestParams.get? "sort" = some text ∧
        (Text.pieces ',' text).mapM SortArgument.parse = .ok args.sorts := by
  have hparsed := collects_sorts.takeAll_empty rfl hflags
  have hsome : args.sorts ≠ [] := by
    intro hnil
    rw [hnil, mapM_eq_ok_iff, List.forall₂_nil_right_iff] at hparsed
    exact hne hparsed
  obtain ⟨text, htext, hpieces⟩ := pieces_sort hsome hcommas
  refine ⟨hparsed, text, htext, ?_⟩
  rw [hpieces, List.mapM_map, mapM_eq_ok_iff, List.forall₂_same]
  intro s hs
  obtain ⟨given, -, hgiven⟩ := exists_of_mapM_eq_ok hparsed s hs
  rw [Function.comp_apply, SortArgument.parse_wire_of_parse hgiven]

end Arguments

open Arguments in
/-- An order may be given as a field with or without a direction. What is sent for it is read as the
same order, and so are the orders of a whole command line when no field holds a comma, in whichever
way the words of the line spell them. -/
theorem sort_flags_invert_wire :
    (∀ text, (∃ s, SortArgument.parse text = .ok s) ↔ SortArgument.IsForm (Text.trim text)) ∧
    (∀ text s, SortArgument.parse text = .ok s →
      (addSort ∅ s).requestParams.get? "sort" = some s.wire ∧
      SortArgument.parse s.wire = .ok s) ∧
    (∀ texts : List String, (∃ sorts, texts.mapM SortArgument.parse = .ok sorts) →
      ∃ args, takeAll {} (texts.map fun text => (.sort, some text)) = .ok args ∧
        args.ReadFrom (texts.map ("--sort=" ++ ·))) ∧
    (∀ flags args, takeAll {} flags = .ok args → textsOf .sort flags ≠ [] →
      (∀ s ∈ args.sorts, ',' ∉ s.field.toList) →
      (textsOf .sort flags).mapM SortArgument.parse = .ok args.sorts ∧
      ∃ text, args.query.requestParams.get? "sort" = some text ∧
        (Text.pieces ',' text).mapM SortArgument.parse = .ok args.sorts) ∧
    ∀ line flags (args : Arguments), Spells line flags → args.ReadFrom line →
      textsOf .sort flags ≠ [] → (∀ s ∈ args.sorts, ',' ∉ s.field.toList) →
      (textsOf .sort flags).mapM SortArgument.parse = .ok args.sorts ∧
      ∃ text, args.query.requestParams.get? "sort" = some text ∧
        (Text.pieces ',' text).mapM SortArgument.parse = .ok args.sorts := by
  refine ⟨SortArgument.exists_parse_iff, fun text s h => ⟨?_, SortArgument.parse_wire_of_parse h⟩,
    fun texts htexts => ?_, fun flags args => parse_sent_sorts,
    fun line flags args hline hread => parse_sent_sorts ((readFrom_iff hline).mp hread)⟩
  · rw [addSort_empty, get?_sort_query]
    simp [Edit.joined?]
  · obtain ⟨args, hargs⟩ := collects_sorts.exists_takeAll htexts {}
    exact ⟨args, hargs, readFrom_attached (a := .sort) rfl rfl rfl hargs⟩

open Arguments in
/-- One field has a colon and a blank at its end, and a flag of another kind stands in between. -/
theorem sort_flags_invert_wire_colon_in_field :
    SortArgument.parse " name:part :DESC " = .ok ⟨"name:part ", true⟩ ∧
    SortArgument.parse "name:part :desc" = .ok ⟨"name:part ", true⟩ ∧
    (∃ args : Arguments, args.ReadFrom ["--sort= name:part :DESC ", "--sort=a"]) ∧
    ∃ args : Arguments,
      takeAll {} [(.sort, some " name:part :DESC "), (.url, none), (.sort, some "a")] = .ok args ∧
      args.ReadFrom ["--sort", " name:part :DESC ", "--url", "--sort=a"] ∧
      args.sorts = [⟨"name:part ", true⟩, ⟨"a", false⟩] ∧
      ∃ text, args.query.requestParams.get? "sort" = some text ∧
        (Text.pieces ',' text).mapM SortArgument.parse = .ok args.sorts := by
  have hparse : SortArgument.parse " name:part :DESC " = .ok ⟨"name:part ", true⟩ := by
    have htrim : Text.trim " name:part :DESC " = "name:part " ++ ":" ++ "DESC" := by
      decide +kernel
    refine SortArgument.parse_eq_ok_iff.mpr ⟨by decide, .inr ⟨"DESC", htrim, ?_⟩⟩
    decide +kernel
  have hplain : SortArgument.parse "a" = .ok ⟨"a", false⟩ := by
    have htrim : Text.trim "a" = "a" := by decide +kernel
    exact SortArgument.parse_eq_ok_iff.mpr ⟨by decide, .inl (htrim ▸ ⟨by decide, rfl⟩)⟩
  have hflags :
      takeAll {} [(.sort, some " name:part :DESC "), (.url, none), (.sort, some "a")] =
        .ok { sorts := [⟨"name:part ", true⟩, ⟨"a", false⟩], url := true } :=
    takeAll_cons_eq_ok_iff.mpr ⟨_, take_sort {} hparse, takeAll_cons_eq_ok_iff.mpr ⟨_, rfl,
      takeAll_cons_eq_ok_iff.mpr ⟨_, take_sort _ hplain, rfl⟩⟩⟩
  have htexts : [" name:part :DESC ", "a"].mapM SortArgument.parse =
      .ok [⟨"name:part ", true⟩, ⟨"a", false⟩] :=
    mapM_eq_ok_iff.mpr (.cons hparse (.cons hplain .nil))
  have hline : Spells ["--sort", " name:part :DESC ", "--url", "--sort=a"]
      [(.sort, some " name:part :DESC "), (.url, none), (.sort, some "a")] :=
    .apart (a := .sort) rfl rfl nofun (.bare (a := .url) rfl rfl
      (.attached (a := .sort) "a" rfl rfl .nil))
  have hread := (readFrom_iff hline).mpr hflags
  obtain ⟨-, hwire, haccepted, -, hsent⟩ := sort_flags_invert_wire
  obtain ⟨plainly, -, hplainly⟩ := haccepted _ ⟨_, htexts⟩
  refine ⟨hparse, (hwire _ _ hparse).2, ⟨plainly, hplainly⟩, _, hflags, hread, rfl,
    (hsent _ _ _ hline hread ?_ ?_).2⟩
  · decide
  · simp

end TableQuery
