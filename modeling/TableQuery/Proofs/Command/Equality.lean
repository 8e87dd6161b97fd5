import TableQuery.Proofs.Command.Flags
import TableQuery.Proofs.Command.Query
import TableQuery.Proofs.Json.RoundTrip
import TableQuery.Proofs.Text.Trim

/-!
# Filters on the command line

What an option for a filter may look like and which value it stands for. Both the field and the value
survive being written out and read again.
-/

namespace TableQuery

namespace EqualityArgument

/-! ## The value -/

/-- A value that is not sent as the text that was given. -/
def IsTyped : Json → Prop
  | .number _ => True
  | .bool _ => True
  | .null => True
  | _ => False

/-- A number, a boolean or null when the whole text reads as one, and otherwise the text itself. -/
def Means (raw : String) (v : Json) : Prop :=
  (IsTyped v ∧ Json.parse raw = .ok v) ∨
    (v = .string raw ∧ ∀ w, Json.parse raw = .ok w → ¬ IsTyped w)

theorem valueOf_of_typed {raw : String} {v : Json} (hv : IsTyped v) (h : Json.parse raw = .ok v) :
    valueOf raw = v := by
  unfold valueOf
  rw [h]
  cases v <;> first | rfl | cases hv

theorem valueOf_of_not_typed {raw : String} (h : ∀ w, Json.parse raw = .ok w → ¬ IsTyped w) :
    valueOf raw = .string raw := by
  unfold valueOf
  split
  next hw => exact absurd trivial (h _ hw)
  next hw => exact absurd trivial (h _ hw)
  next hw => exact absurd trivial (h _ hw)
  next => rfl

theorem valueOf_eq_iff (raw : String) (v : Json) : valueOf raw = v ↔ Means raw v := by
  constructor
  · rintro rfl
    by_cases htyped : ∃ w, IsTyped w ∧ Json.parse raw = .ok w
    · obtain ⟨w, hw, hparse⟩ := htyped
      rw [valueOf_of_typed hw hparse]
      exact .inl ⟨hw, hparse⟩
    · have hnot : ∀ w, Json.parse raw = .ok w → ¬ IsTyped w :=
        fun w hparse hw => htyped ⟨w, hw, hparse⟩
      exact .inr ⟨valueOf_of_not_typed hnot, hnot⟩
  · rintro (⟨hv, hparse⟩ | ⟨rfl, hnot⟩)
    · exact valueOf_of_typed hv hparse
    · exact valueOf_of_not_typed hnot

theorem parse_render_of_typed {v : Json} (hv : IsTyped v) (hdoubles : v.DoublesReadBack) :
    Json.parse v.render = .ok v := by
  have hordered : v.Ordered := by cases v <;> trivial
  have hflat : v.nesting = 0 := by cases v <;> first | rfl | cases hv
  exact Json.parse_render hordered (hflat ▸ Nat.zero_le _) hdoubles

/-! ## The whole argument -/

theorem parse_join {name raw : String} (h : '=' ∉ name.toList) {e : EqualityArgument} :
    parse (name ++ "=" ++ raw) = .ok e ↔
      (∃ c ∈ name.toList, Text.isBlank c = false) ∧ e = ⟨Text.trim name, valueOf raw⟩ := by
  have hcut : Text.cut? '=' (name ++ "=" ++ raw) = some (name, raw) :=
    Text.cut?_eq_some_iff.mpr ⟨rfl, h⟩
  simp only [← Text.trim_ne_empty_iff, parse, hcut, String.isEmpty_iff]
  split
  next hempty => simp [hempty]
  next hempty => simp only [hempty, ne_eq, not_false_iff, true_and, Except.ok.injEq, eq_comm]

theorem parse_eq_ok_iff {text : String} {e : EqualityArgument} :
    parse text = .ok e ↔ ∃ name raw, text = name ++ "=" ++ raw ∧ '=' ∉ name.toList ∧
      (∃ c ∈ name.toList, Text.isBlank c = false) ∧ e = ⟨Text.trim name, valueOf raw⟩ := by
  constructor
  · intro h
    cases hcut : Text.cut? '=' text with
    | none => simp only [parse, hcut, reduceCtorEq] at h
    | some parts =>
      obtain ⟨name, raw⟩ := parts
      obtain ⟨rfl, hname⟩ := Text.cut?_eq_some_iff.mp hcut
      exact ⟨name, raw, rfl, hname, (parse_join hname).mp h⟩
  · rintro ⟨name, raw, rfl, hname, h⟩
    exact (parse_join hname).mpr h

/-- The value as it may be written: a string as it is, and any other value as JSON. -/
def plain : Json → String
  | .string s => s
  | v => v.render

def written (e : EqualityArgument) : String := e.field ++ "=" ++ plain e.value

theorem plain_of_typed {v : Json} (hv : IsTyped v) : plain v = v.render := by
  cases v <;> first | rfl | cases hv

theorem valueOf_plain {raw : String} (hdoubles : (valueOf raw).DoublesReadBack) :
    valueOf (plain (valueOf raw)) = valueOf raw := by
  rcases (valueOf_eq_iff raw _).mp rfl with ⟨htyped, -⟩ | ⟨hstring, -⟩
  · rw [plain_of_typed htyped]
    exact valueOf_of_typed htyped (parse_render_of_typed htyped hdoubles)
  · rw [hstring]
    exact hstring

theorem parse_written {text : String} {e : EqualityArgument} (h : parse text = .ok e)
    (hdoubles : e.value.DoublesReadBack) : parse e.written = .ok e := by
  obtain ⟨name, raw, -, hname, hblank, rfl⟩ := parse_eq_ok_iff.mp h
  rw [written, parse_join (Text.not_mem_trim hname)]
  constructor
  · rw [← Text.trim_ne_empty_iff, Text.trim_trim]
    exact (Text.trim_ne_empty_iff name).mpr hblank
  · rw [Text.trim_trim, valueOf_plain hdoubles]

end EqualityArgument

open Arguments in
/-- A filter may be given as a field and a value around an equality sign, and is read in the same way
when it is written out again. The filters of a command line are the top-level nodes of the query, in
whichever way the words of the line spell them. -/
theorem equality_flags_are_read_back :
    (∀ text, (∃ e, EqualityArgument.parse text = .ok e) ↔
      ∃ name raw, text = name ++ "=" ++ raw ∧ '=' ∉ name.toList ∧
        ∃ c ∈ name.toList, Text.isBlank c = false) ∧
    (∀ name raw e, '=' ∉ name.toList → EqualityArgument.parse (name ++ "=" ++ raw) = .ok e →
      e.field = Text.trim name ∧ '=' ∉ e.field.toList ∧ EqualityArgument.Means raw e.value) ∧
    (∀ text e, EqualityArgument.parse text = .ok e → e.value.DoublesReadBack →
      EqualityArgument.parse e.written = .ok e) ∧
    (∀ texts : List String, (∃ es, texts.mapM EqualityArgument.parse = .ok es) →
      ∃ args, takeAll {} (texts.map fun text => (.equal, some text)) = .ok args ∧
        args.ReadFrom (texts.map ("--eq=" ++ ·))) ∧
    (∀ flags args, takeAll {} flags = .ok args →
      (textsOf .equal flags).mapM EqualityArgument.parse = .ok args.equals ∧
      (Filtered.filters args.query).roots =
        args.equals.map fun e => .predicate ⟨e.field, .equal, e.value⟩) ∧
    ∀ line flags (args : Arguments), Spells line flags → args.ReadFrom line →
      (textsOf .equal flags).mapM EqualityArgument.parse = .ok args.equals ∧
      (Filtered.filters args.query).roots =
        args.equals.map fun e => .predicate ⟨e.field, .equal, e.value⟩ := by
  have htaken : ∀ flags args, takeAll {} flags = .ok args →
      (textsOf .equal flags).mapM EqualityArgument.parse = .ok args.equals ∧
      (Filtered.filters args.query).roots =
        args.equals.map fun e => .predicate ⟨e.field, .equal, e.value⟩ := fun flags args hflags =>
    ⟨collects_equals.takeAll_empty rfl hflags, congrArg Tree.roots (filters_query args)⟩
  refine ⟨fun text => ?_, fun name raw e hname h => ?_,
    fun text e => EqualityArgument.parse_written, fun texts htexts => ?_, htaken,
    fun line flags args hline hread => htaken flags args ((readFrom_iff hline).mp hread)⟩
  · constructor
    · rintro ⟨e, he⟩
      obtain ⟨name, raw, htext, hname, hblank, -⟩ := EqualityArgument.parse_eq_ok_iff.mp he
      exact ⟨name, raw, htext, hname, hblank⟩
    · rintro ⟨name, raw, rfl, hname, hblank⟩
      exact ⟨_, (EqualityArgument.parse_join hname).mpr ⟨hblank, rfl⟩⟩
  · obtain ⟨-, rfl⟩ := (EqualityArgument.parse_join hname).mp h
    exact ⟨rfl, Text.not_mem_trim hname, (EqualityArgument.valueOf_eq_iff raw _).mp rfl⟩
  · obtain ⟨args, hargs⟩ := collects_equals.exists_takeAll htexts {}
    exact ⟨args, hargs, readFrom_attached (a := .equal) rfl rfl rfl hargs⟩

open Arguments in
/-- One value is a double, one a boolean, and one a text with another equality sign. -/
theorem equality_flags_are_read_back_zero :
    '=' ∉ " size ".toList ∧
    EqualityArgument.parse (" size " ++ "=" ++ "-0.0") =
      .ok ⟨"size", .double (Binary64.zero true)⟩ ∧
    EqualityArgument.Means "-0.0" (.double (Binary64.zero true)) ∧
    (Json.double (Binary64.zero true)).DoublesReadBack ∧
    EqualityArgument.parse "size=-0.0" = .ok ⟨"size", .double (Binary64.zero true)⟩ ∧
    (∃ args : Arguments, args.ReadFrom ["--eq=open=true", "--eq=name=a=b"]) ∧
    ∃ args : Arguments,
      takeAll {} [(.equal, some "open=true"), (.url, none), (.equal, some "name=a=b")] = .ok args ∧
      args.ReadFrom ["--eq", "open=true", "--url", "--eq=name=a=b"] ∧
      (Filtered.filters args.query).roots =
        [.predicate ⟨"open", .equal, .bool true⟩, .predicate ⟨"name", .equal, .string "a=b"⟩] := by
  have hname : '=' ∉ " size ".toList := by simp
  have hdoubles : (Json.double (Binary64.zero true)).DoublesReadBack := by
    intro x hx
    rw [List.mem_singleton.mp hx]
    exact Binary64.readsBack_zero true
  have htyped : EqualityArgument.IsTyped (.double (Binary64.zero true)) := trivial
  have hrender : (Json.double (Binary64.zero true)).render = "-0.0" := by decide +kernel
  have hzero : Json.parse "-0.0" = .ok (.double (Binary64.zero true)) :=
    hrender ▸ EqualityArgument.parse_render_of_typed htyped hdoubles
  have hparse : EqualityArgument.parse (" size " ++ "=" ++ "-0.0") =
      .ok ⟨"size", .double (Binary64.zero true)⟩ := by
    refine (EqualityArgument.parse_join hname).mpr ⟨⟨'s', by simp, by decide⟩, ?_⟩
    have htrim : Text.trim " size " = "size" := by decide +kernel
    rw [EqualityArgument.valueOf_of_typed htyped hzero, htrim]
  have hopen : EqualityArgument.parse ("open" ++ "=" ++ "true") = .ok ⟨"open", .bool true⟩ := by
    refine (EqualityArgument.parse_join (by decide)).mpr ⟨⟨'o', by decide, by decide⟩, ?_⟩
    have htrim : Text.trim "open" = "open" := by decide +kernel
    have hread : EqualityArgument.valueOf "true" = .bool true := rfl
    rw [hread, htrim]
  have htext : EqualityArgument.parse ("name" ++ "=" ++ "a=b") = .ok ⟨"name", .string "a=b"⟩ := by
    refine (EqualityArgument.parse_join (by decide)).mpr ⟨⟨'n', by decide, by decide⟩, ?_⟩
    have htrim : Text.trim "name" = "name" := by decide +kernel
    have hread : EqualityArgument.valueOf "a=b" = .string "a=b" := rfl
    rw [hread, htrim]
  have hflags : takeAll {} [(.equal, some "open=true"), (.url, none), (.equal, some "name=a=b")] =
      .ok { equals := [⟨"open", .bool true⟩, ⟨"name", .string "a=b"⟩], url := true } :=
    takeAll_cons_eq_ok_iff.mpr ⟨_, take_equal {} hopen, takeAll_cons_eq_ok_iff.mpr ⟨_, rfl,
      takeAll_cons_eq_ok_iff.mpr ⟨_, take_equal _ htext, rfl⟩⟩⟩
  have htexts : ["open=true", "name=a=b"].mapM EqualityArgument.parse =
      .ok [⟨"open", .bool true⟩, ⟨"name", .string "a=b"⟩] :=
    mapM_eq_ok_iff.mpr (.cons hopen (.cons htext .nil))
  have hline : Spells ["--eq", "open=true", "--url", "--eq=name=a=b"]
      [(.equal, some "open=true"), (.url, none), (.equal, some "name=a=b")] :=
    .apart (a := .equal) rfl rfl nofun (.bare (a := .url) rfl rfl
      (.attached (a := .equal) "name=a=b" rfl rfl .nil))
  have hread := (readFrom_iff hline).mpr hflags
  obtain ⟨-, hmeans, hback, haccepted, -, hsent⟩ := equality_flags_are_read_back
  obtain ⟨plainly, -, hplainly⟩ := haccepted _ ⟨_, htexts⟩
  have hwritten := hback _ _ hparse hdoubles
  rw [EqualityArgument.written, EqualityArgument.plain_of_typed htyped, hrender] at hwritten
  exact ⟨hname, hparse, (hmeans _ _ _ hname hparse).2.2, hdoubles, hwritten, ⟨plainly, hplainly⟩,
    _, hflags, hread, (hsent _ _ _ hline hread).2⟩

end TableQuery
