import TableQuery.Proofs.Command.Equality
import TableQuery.Proofs.Json.Integer

/-!
# Integers in filters of the command line

An integer of the signed or of the unsigned 64-bit range is sent as it was given. A filter for any
other integer is for the double that it is read as, or for the text when the reader refuses it.
-/

namespace TableQuery

theorem Json.render_number (n : Number) : (number n).render = String.ofList (numberChars n) := by
  rw [render, tokens, List.flatMap_singleton, Token.chars]

theorem Predicate.render_toJson (p : Predicate) : p.toJson.render =
    "\x7b" ++ (Json.string p.field).render ++ ":\x7b" ++ (Json.string p.operator.token).render ++
      ":" ++ p.operand.render ++ "\x7d\x7d" := by
  rw [toJson, Json.render_object_singleton, Json.render_object_singleton, ← String.toList_inj]
  simp

namespace EqualityArgument

variable {l : Json.Literal} (hl : l.IsInteger)
include hl

theorem valueOf_of_exact (hexact : l.IsExact) : valueOf (String.ofList l.chars) =
    .number (.integer l.intValue hexact.1.1 hexact.1.2) := by
  refine valueOf_of_typed trivial ?_
  rw [hl.parse, hl.toNumber?_of_exact hexact]
  rfl

theorem valueOf_of_not_exact (hexact : ¬ l.IsExact) :
    (∃ x, l.toDouble? = some x ∧ Json.parse (String.ofList l.chars) = .ok (.double x) ∧
        valueOf (String.ofList l.chars) = .double x) ∨
      (l.toDouble? = none ∧ (∃ why, Json.parse (String.ofList l.chars) = .error why) ∧
        valueOf (String.ofList l.chars) = .string (String.ofList l.chars)) := by
  have hparse := hl.parse
  rw [hl.toNumber?_of_not_exact hexact] at hparse
  cases hdouble : l.toDouble? with
  | some x =>
    rw [hdouble] at hparse
    exact .inl ⟨x, rfl, hparse, valueOf_of_typed trivial hparse⟩
  | none =>
    rw [hdouble] at hparse
    refine .inr ⟨rfl, ⟨_, hparse⟩, valueOf_of_not_typed fun w hw => ?_⟩
    rw [hparse] at hw
    cases hw

omit hl in
/-- An integer just below the largest double, which a step on the way to it exceeds. -/
example : (Json.Literal.mk false ("17976931348623157".toList ++ List.replicate 292 '0') none
    none).toDouble? = none := by
  decide +kernel

theorem render_string_ne : (Json.string (String.ofList l.chars)).render ≠ String.ofList l.chars := by
  intro heq
  have hquote : '"' ∈ (String.ofList l.chars).toList := by
    rw [← heq]
    simp [Json.render, Json.tokens, Json.Token.chars, Json.stringChars]
  rw [String.toList_ofList] at hquote
  exact hl.not_mem_chars (by decide) (by decide) hquote

theorem render_valueOf_iff :
    (valueOf (String.ofList l.chars)).render = String.ofList l.chars ↔ l.IsExact := by
  constructor
  · intro heq
    by_contra hexact
    rcases valueOf_of_not_exact hl hexact with ⟨x, -, -, hvalue⟩ | ⟨-, -, hvalue⟩
    · rw [hvalue, Json.double, Json.render_number, String.ofList_inj] at heq
      exact hl.numberChars_double_ne x heq
    · rw [hvalue] at heq
      exact render_string_ne hl heq
  · intro hexact
    rw [valueOf_of_exact hl hexact, Json.render_number, hl.numberChars_of_exact hexact]

omit hl in
theorem valueOf_minus_zero : valueOf "-0" = .double (Binary64.zero true) := by
  have hzero : (Json.Literal.mk true ['0'] none none).WellFormed :=
    ⟨⟨by decide, List.all_eq_true.mp (by decide)⟩, fun _ => rfl, nofun, nofun⟩
  have hnumber : (Json.Literal.mk true ['0'] none none).toNumber? =
      some (.double (Binary64.zero true)) := by decide +kernel
  have hparse := hzero.parse
  rw [hnumber] at hparse
  exact valueOf_of_typed trivial hparse

end EqualityArgument

/-- What is sent for a single filter. -/
def EqualityArgument.wire (field operand : String) : String :=
  "\x7b" ++ (Json.string field).render ++ ":\x7b\"$eq\":" ++ operand ++ "\x7d\x7d"

namespace Arguments

theorem get?_filters_query {args : Arguments} {field : String} {value : Json}
    (h : args.equals = [⟨field, value⟩]) : args.query.requestParams.get? "filters" =
      some (EqualityArgument.wire field value.render) := by
  have htree : args.tree = ⟨[.predicate ⟨field, .equal, value⟩]⟩ := by rw [tree, h]; rfl
  have hsent : args.query.requestParams.get? "filters" = args.tree.render? := get?_query args _
  have htoken : (Json.string Operator.equal.token).render = "\"$eq\"" := by decide
  have hrender := Predicate.render_toJson ⟨field, .equal, value⟩
  rw [htoken] at hrender
  rw [hsent, htree]
  refine congrArg some (hrender.trans ?_)
  rw [← String.toList_inj]
  simp [EqualityArgument.wire]

theorem get?_filters_of_takeAll {flags : List Flag} {args : Arguments} {text field : String}
    {value : Json} (he : EqualityArgument.parse text = .ok ⟨field, value⟩)
    (hflags : takeAll {} flags = .ok args) (hgiven : textsOf .equal flags = [text]) :
    args.query.requestParams.get? "filters" =
      some (EqualityArgument.wire field value.render) := by
  have hequals := collects_equals.takeAll_empty rfl hflags
  rw [hgiven, mapM_eq_ok_iff, List.forall₂_cons_left_iff] at hequals
  obtain ⟨e, rest, he', hrest, hall⟩ := hequals
  rw [List.forall₂_nil_left_iff.mp hrest] at hall
  rw [← Except.ok.inj (he.symm.trans he')] at hall
  exact get?_filters_query hall

end Arguments

open Arguments in
/-- An integer is sent digit for digit exactly when it is in range and no zero with a minus. Any
other is sent as the double that the reader makes of it, or as a text when the reader refuses it. -/
theorem integer_is_sent_unchanged_iff {name : String} (hname : '=' ∉ name.toList)
    (hfield : Text.trim name ≠ "") {l : Json.Literal} (hl : l.IsInteger) :
    ∃ value, EqualityArgument.parse (name ++ "=" ++ String.ofList l.chars) =
        .ok ⟨Text.trim name, value⟩ ∧
      (∀ flags args, takeAll {} flags = .ok args →
        textsOf .equal flags = [name ++ "=" ++ String.ofList l.chars] →
        args.query.requestParams.get? "filters" =
          some (EqualityArgument.wire (Text.trim name) value.render)) ∧
      (∀ line flags (args : Arguments), Spells line flags → args.ReadFrom line →
        textsOf .equal flags = [name ++ "=" ++ String.ofList l.chars] →
        args.query.requestParams.get? "filters" =
          some (EqualityArgument.wire (Text.trim name) value.render)) ∧
      (∃ args : Arguments, args.ReadFrom ["--eq=" ++ (name ++ "=" ++ String.ofList l.chars)]) ∧
      (value.render = String.ofList l.chars ↔ l.IsExact) ∧
      (¬ l.IsExact → (∃ x, l.toDouble? = some x ∧
          Json.parse (String.ofList l.chars) = .ok (.double x) ∧ value = .double x) ∨
        (l.toDouble? = none ∧ (∃ why, Json.parse (String.ofList l.chars) = .error why) ∧
          value = .string (String.ofList l.chars))) ∧
      (String.ofList l.chars = "-0" → value = .double (Binary64.zero true)) := by
  have hparse : EqualityArgument.parse (name ++ "=" ++ String.ofList l.chars) =
      .ok ⟨Text.trim name, EqualityArgument.valueOf (String.ofList l.chars)⟩ :=
    (EqualityArgument.parse_join hname).mpr ⟨(Text.trim_ne_empty_iff name).mp hfield, rfl⟩
  refine ⟨_, hparse, fun flags args => get?_filters_of_takeAll hparse,
    fun line flags args hline hread =>
      get?_filters_of_takeAll hparse ((readFrom_iff hline).mp hread),
    ⟨_, readFrom_equal hparse⟩, EqualityArgument.render_valueOf_iff hl,
    EqualityArgument.valueOf_of_not_exact hl, ?_⟩
  intro hraw
  rw [hraw]
  exact EqualityArgument.valueOf_minus_zero

/-- The largest integer that is sent as it is. -/
theorem integer_is_sent_unchanged_iff_largest :
    '=' ∉ "id".toList ∧ Text.trim "id" ≠ "" ∧
    (Json.Literal.mk false "18446744073709551615".toList none none).IsInteger ∧
    Arguments.Spells ["--eq", "id=18446744073709551615", "--url"]
      [(.equal, some "id=18446744073709551615"), (.url, none)] ∧
    ∃ args : Arguments, args.ReadFrom ["--eq", "id=18446744073709551615", "--url"] ∧
      args.query.requestParams.get? "filters" =
        some "\x7b\"id\":\x7b\"$eq\":18446744073709551615\x7d\x7d" := by
  have hname : '=' ∉ "id".toList := by decide
  have hfield : Text.trim "id" ≠ "" := by decide +kernel
  have hl : (Json.Literal.mk false "18446744073709551615".toList none none).IsInteger :=
    ⟨⟨⟨by decide, List.all_eq_true.mp (by decide)⟩, by decide, nofun, nofun⟩, rfl, rfl⟩
  have hexact : (Json.Literal.mk false "18446744073709551615".toList none none).IsExact :=
    ⟨by decide, nofun⟩
  have htext : "id" ++ "=" ++ String.ofList
      (Json.Literal.mk false "18446744073709551615".toList none none).chars =
        "id=18446744073709551615" := by decide +kernel
  have hline : Arguments.Spells ["--eq", "id=18446744073709551615", "--url"]
      [(.equal, some "id=18446744073709551615"), (.url, none)] :=
    .apart (a := .equal) rfl rfl nofun (.bare (a := .url) rfl rfl .nil)
  obtain ⟨value, hparse, -, hsent, -, hsame, -⟩ := integer_is_sent_unchanged_iff hname hfield hl
  rw [htext] at hparse hsent
  have hread := (Arguments.readFrom_iff hline).mpr
    (Arguments.takeAll_cons_eq_ok_iff.mpr ⟨_, Arguments.take_equal {} hparse, rfl⟩)
  refine ⟨hname, hfield, hl, hline, _, hread, (hsent _ _ _ hline hread rfl).trans ?_⟩
  rw [hsame.mpr hexact]
  decide +kernel

/-! ## An integer out of range -/

namespace Binary64

open Json Literal

def twoTo64 : Binary64 := ⟨false, 4895412794951729152, by decide⟩

theorem shortest_twoTo64 : twoTo64.shortest .even = ⟨18446744073709552, 3⟩ := by
  have hlength : (Nat.toDigits 10 twoTo64.exactDecimal.digits).length = 1094 := by decide +kernel
  rw [shortest_eq (by decide), hlength]
  decide +kernel

theorem render_twoTo64 : (Json.double twoTo64).render = "1.8446744073709552e+19" := by
  rw [Json.double, render_number, numberChars_double, shortest_twoTo64]
  decide +kernel

end Binary64

/-- One more than a power of two, and no double. -/
theorem integer_beyond_range_is_rounded :
    (Json.Literal.mk false "18446744073709551617".toList none none).IsInteger ∧
    ∃ args, Arguments.takeAll {} [(.equal, some "id=18446744073709551617")] = .ok args ∧
      args.query.requestParams.get? "filters" =
        some "\x7b\"id\":\x7b\"$eq\":1.8446744073709552e+19\x7d\x7d" := by
  have hl : (Json.Literal.mk false "18446744073709551617".toList none none).IsInteger :=
    ⟨⟨⟨by decide, List.all_eq_true.mp (by decide)⟩, by decide, nofun, nofun⟩, rfl, rfl⟩
  have hread : Json.parse "18446744073709551617" = .ok (.double Binary64.twoTo64) := by
    have hnumber : (Json.Literal.mk false "18446744073709551617".toList none none).toNumber? =
        some (.double Binary64.twoTo64) := by decide +kernel
    have hparse := hl.parse
    rw [hnumber] at hparse
    exact hparse
  have hvalue : EqualityArgument.parse ("id" ++ "=" ++ "18446744073709551617") =
      .ok ⟨Text.trim "id", .double Binary64.twoTo64⟩ := by
    refine (EqualityArgument.parse_join (by decide)).mpr ⟨⟨'i', by decide, by decide⟩, ?_⟩
    have htyped : EqualityArgument.IsTyped (.double Binary64.twoTo64) := trivial
    rw [EqualityArgument.valueOf_of_typed htyped hread]
  refine ⟨hl, _, Arguments.takeAll_equal hvalue, ?_⟩
  rw [Arguments.get?_filters_query rfl, Binary64.render_twoTo64]
  decide +kernel

end TableQuery
