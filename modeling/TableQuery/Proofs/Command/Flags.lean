import TableQuery.Command.Line
import TableQuery.Proofs.Result

/-!
# The flags of a command line

Flags that may be repeated collect what they are given in their order, and the others leave that
alone. Reading a line takes the flags that its words spell, one after the other, although the value
of a flag is not checked before the next one.
-/

namespace TableQuery

namespace Arguments

/-! ## Taking flags -/

/-- An option with its value, or a flag that has none. -/
abbrev Flag := Argument × Option String

def take (args : Arguments) (flag : Flag) : Except UsageError Arguments :=
  match flag.2 with
  | some text => args.accept flag.1 text
  | none => args.acceptFlag flag.1

def takeAll (args : Arguments) (flags : List Flag) : Except UsageError Arguments :=
  flags.foldlM take args

def textsOf (a : Argument) (flags : List Flag) : List String :=
  (flags.filter (·.1 = a)).filterMap (·.2)

theorem check_eq_ok_iff {α : Type} {x : Except ArgumentError α} {a : α} :
    check x = .ok a ↔ x = .ok a := mapError_eq_ok_iff

theorem take_sort (args : Arguments) {text : String} {s : SortArgument}
    (h : SortArgument.parse text = .ok s) :
    take args (.sort, some text) = .ok { args with sorts := args.sorts ++ [s] } := by
  simp only [take, accept, check_eq_ok_iff.mpr h, Except.map]

theorem take_equal (args : Arguments) {text : String} {e : EqualityArgument}
    (h : EqualityArgument.parse text = .ok e) :
    take args (.equal, some text) = .ok { args with equals := args.equals ++ [e] } := by
  simp only [take, accept, check_eq_ok_iff.mpr h, Except.map]

/-- All that taking a flag can do to the orders and the filters that were collected. -/
theorem take_eq_ok {args after : Arguments} {flag : Flag} (h : args.take flag = .ok after) :
    (∃ text s, flag = (.sort, some text) ∧ SortArgument.parse text = .ok s ∧
      after = { args with sorts := args.sorts ++ [s] }) ∨
    (∃ text e, flag = (.equal, some text) ∧ EqualityArgument.parse text = .ok e ∧
      after = { args with equals := args.equals ++ [e] }) ∨
    (flag.1 ≠ .sort ∧ flag.1 ≠ .equal ∧ after.sorts = args.sorts ∧ after.equals = args.equals) := by
  obtain ⟨a, _ | text⟩ := flag
  · have hsame : a ∉ [Argument.sort, .equal] ∧
        after.sorts = args.sorts ∧ after.equals = args.equals := by
      cases a <;> simp only [take, acceptFlag, map_eq_ok_iff, reduceCtorEq] at h
      all_goals
        obtain ⟨b, -, rfl⟩ := h
        exact ⟨by decide, rfl, rfl⟩
    simpa [and_assoc] using hsame
  · cases a <;>
      simp only [take, accept, map_eq_ok_iff, reduceCtorEq, Except.ok.injEq] at h
    case sort =>
      obtain ⟨s, hs, rfl⟩ := h
      exact .inl ⟨text, s, rfl, check_eq_ok_iff.mp hs, rfl⟩
    case equal =>
      obtain ⟨e, he, rfl⟩ := h
      exact .inr (.inl ⟨text, e, rfl, check_eq_ok_iff.mp he, rfl⟩)
    case select =>
      subst h
      exact .inr (.inr ⟨nofun, nofun, rfl, rfl⟩)
    all_goals
      obtain ⟨v, -, rfl⟩ := h
      exact .inr (.inr ⟨nofun, nofun, rfl, rfl⟩)

theorem takeAll_cons_eq_ok_iff {args after : Arguments} {flag : Flag} {flags : List Flag} :
    args.takeAll (flag :: flags) = .ok after ↔
      ∃ next, args.take flag = .ok next ∧ next.takeAll flags = .ok after := bind_eq_ok_iff

theorem takeAll_equal {text : String} {e : EqualityArgument}
    (h : EqualityArgument.parse text = .ok e) :
    takeAll {} [(.equal, some text)] = .ok { equals := [e] } :=
  takeAll_cons_eq_ok_iff.mpr ⟨_, take_equal {} h, rfl⟩

theorem takeAll_append (args : Arguments) (flags more : List Flag) :
    args.takeAll (flags ++ more) = (args.takeAll flags).bind (·.takeAll more) :=
  List.foldlM_append

theorem takeAll_append_cons (args : Arguments) (flags : List Flag) (flag : Flag)
    (more : List Flag) : args.takeAll (flags ++ flag :: more) =
      (args.takeAll (flags ++ [flag])).bind (·.takeAll more) := by
  rw [List.append_cons, takeAll_append]

theorem takeAll_singleton (args : Arguments) (flag : Flag) :
    args.takeAll [flag] = args.take flag := by
  rw [takeAll, List.foldlM_cons]
  cases args.take flag <;> rfl

section

variable {α : Type} {a : Argument} {parse : String → Except ArgumentError α}
  {get : Arguments → List α}

/-- What is read from the values of an option is collected, and no other flag changes it. A value
that can be read is always taken. -/
structure Collects (a : Argument) (parse : String → Except ArgumentError α)
    (get : Arguments → List α) : Prop where
  of_take : ∀ args flag after, take args flag = .ok after →
    (∃ text x, flag = (a, some text) ∧ parse text = .ok x ∧ get after = get args ++ [x]) ∨
      (flag.1 ≠ a ∧ get after = get args)
  exists_take : ∀ args text x, parse text = .ok x → ∃ after, take args (a, some text) = .ok after

theorem collects_sorts : Collects .sort SortArgument.parse sorts := by
  refine ⟨fun args flag after h => ?_, fun args text s hs => ⟨_, take_sort args hs⟩⟩
  rcases take_eq_ok h with ⟨text, s, rfl, hs, rfl⟩ | ⟨text, e, rfl, -, rfl⟩ | ⟨ha, -, hsorts, -⟩
  · exact .inl ⟨text, s, rfl, hs, rfl⟩
  · exact .inr ⟨nofun, rfl⟩
  · exact .inr ⟨ha, hsorts⟩

theorem collects_equals : Collects .equal EqualityArgument.parse equals := by
  refine ⟨fun args flag after h => ?_, fun args text e he => ⟨_, take_equal args he⟩⟩
  rcases take_eq_ok h with ⟨text, s, rfl, -, rfl⟩ | ⟨text, e, rfl, he, rfl⟩ | ⟨-, ha, -, hequals⟩
  · exact .inr ⟨nofun, rfl⟩
  · exact .inl ⟨text, e, rfl, he, rfl⟩
  · exact .inr ⟨ha, hequals⟩

theorem Collects.exists_takeAll (h : Collects a parse get) {texts : List String}
    (htexts : ∃ xs, texts.mapM parse = .ok xs) (args : Arguments) :
    ∃ after, args.takeAll (texts.map fun text => (a, some text)) = .ok after := by
  obtain ⟨xs, hxs⟩ := htexts
  have hall := mapM_eq_ok_iff.mp hxs
  clear hxs
  induction hall generalizing args with
  | nil => exact ⟨args, rfl⟩
  | @cons text x texts xs hx hall ih =>
    obtain ⟨next, hnext⟩ := h.exists_take args text x hx
    obtain ⟨after, hafter⟩ := ih next
    exact ⟨after, takeAll_cons_eq_ok_iff.mpr ⟨next, hnext, hafter⟩⟩

/-- However flags of other kinds come in between, all is collected in the order of the flags. -/
theorem Collects.takeAll (h : Collects a parse get) {args after : Arguments} {flags : List Flag}
    (hflags : args.takeAll flags = .ok after) :
    ∃ xs, List.Forall₂ (fun text x => parse text = .ok x) (textsOf a flags) xs ∧
      get after = get args ++ xs := by
  induction flags generalizing args with
  | nil =>
    cases hflags
    exact ⟨[], .nil, (List.append_nil _).symm⟩
  | cons flag flags ih =>
    obtain ⟨next, hnext, hrest⟩ := takeAll_cons_eq_ok_iff.mp hflags
    obtain ⟨xs, hxs, hget⟩ := ih hrest
    rcases h.of_take args flag next hnext with ⟨text, x, rfl, hx, hone⟩ | ⟨hne, hsame⟩
    · have htexts : textsOf a ((a, some text) :: flags) = text :: textsOf a flags := by
        simp [textsOf]
      rw [htexts]
      exact ⟨x :: xs, .cons hx hxs, by rw [hget, hone, List.append_assoc, List.singleton_append]⟩
    · have htexts : textsOf a (flag :: flags) = textsOf a flags := by
        rw [textsOf, List.filter_cons_of_neg (by simpa using hne)]
        rfl
      rw [htexts]
      exact ⟨xs, hxs, hget.trans (congrArg (· ++ xs) hsame)⟩

end

theorem Collects.takeAll_empty {α : Type} {a : Argument}
    {parse : String → Except ArgumentError α} {get : Arguments → List α}
    (h : Collects a parse get) (hempty : get {} = []) {args : Arguments} {flags : List Flag}
    (hflags : Arguments.takeAll {} flags = .ok args) :
    (textsOf a flags).mapM parse = .ok (get args) := by
  obtain ⟨xs, hxs, hget⟩ := h.takeAll hflags
  rw [hget, hempty]
  exact mapM_eq_ok_iff.mpr hxs

/-! ## The flags on a line -/

/-- A value that may be a word of its own: a hyphen in front makes it an option, unless the argument
takes such values. -/
def MayFollow (a : Argument) (text : String) : Prop :=
  text.toList.head? = some '-' → a.allowsHyphen = true ∨
    (a.allowsNegative = true ∧ Walk.isNumber (text.toList.drop 1) = true)

/-- The words of a line are the flags under their long names; a value is attached or is the next
word. -/
inductive Spells : List String → List Flag → Prop
  | nil : Spells [] []
  | attached {a : Argument} {name : String} (text : String) {line : List String} {flags : List Flag}
      (hname : a.long? = some name) (ha : a.takesValue = true) (h : Spells line flags) :
      Spells (("--" ++ (name ++ "=" ++ text)) :: line) ((a, some text) :: flags)
  | apart {a : Argument} {name text : String} {line : List String} {flags : List Flag}
      (hname : a.long? = some name) (ha : a.takesValue = true) (htext : MayFollow a text)
      (h : Spells line flags) :
      Spells (("--" ++ name) :: text :: line) ((a, some text) :: flags)
  | bare {a : Argument} {name : String} {line : List String} {flags : List Flag}
      (hname : a.long? = some name) (ha : a.takesValue = false) (h : Spells line flags) :
      Spells (("--" ++ name) :: line) ((a, none) :: flags)

end Arguments

namespace Argument

variable {a : Argument} {name : String} (h : a.long? = some name)
include h

theorem find?_long : queryGrammar.options.find? (·.long? = some name) = some a := by
  cases a <;> cases h <;> rfl

theorem long_ne_empty : name ≠ "" := by
  cases a <;> cases h <;> decide

theorem not_mem_long : '=' ∉ name.toList := by
  cases a <;> cases h <;> decide

end Argument

namespace Walk

open Arguments

variable {w : Walk}

/-! ## One word -/

/-- The flag that waits to be checked. -/
def due (w : Walk) : List Flag :=
  match w.pending with
  | some (a, some text) => [(a, some text)]
  | _ => []

theorem settle_eq (hawait : w.awaiting? = none) :
    w.settle = (w.args.takeAll w.due).map fun args => { w with args, pending := none } := by
  obtain ⟨args, _ | ⟨a, _ | text⟩, positionals, positionalOnly⟩ := w
  · rfl
  · cases hawait
  · change (args.accept a text).map _ = (args.takeAll [(a, some text)]).map _
    rw [takeAll_singleton]
    rfl

theorem settle_take (hawait : w.awaiting? = none) (flag : Flag) :
    (w.settle.bind fun v => (v.args.take flag).map fun args => { v with args }) =
      (w.args.takeAll (w.due ++ [flag])).map fun args => { w with args, pending := none } := by
  rw [settle_eq hawait, takeAll_append]
  cases w.args.takeAll w.due with
  | error e => rfl
  | ok args =>
    change (args.take flag).map _ = (args.takeAll [flag]).map _
    rw [takeAll_singleton]

theorem acceptAttached_eq (hawait : w.awaiting? = none) (a : Argument) (text : String) :
    w.acceptAttached a text = (w.args.takeAll (w.due ++ [(a, some text)])).map fun args =>
      { w with args, pending := none } :=
  settle_take hawait (a, some text)

theorem acceptFlag_eq (hawait : w.awaiting? = none) (a : Argument) :
    w.acceptFlag a = (w.args.takeAll (w.due ++ [(a, none)])).map fun args =>
      { w with args, pending := none } :=
  settle_take hawait (a, none)

theorem head_ne_hyphen {a : Argument} (hawait : w.awaiting? = some a) {text : String}
    (htext : MayFollow a text) (hvalue : w.isHyphenValue text.toList = false) :
    text.toList.head? ≠ some '-' := by
  intro hhead
  rw [isHyphenValue, hawait] at hvalue
  rcases htext hhead with h | ⟨hnegative, hnumber⟩
  · simp [h] at hvalue
  · rw [List.drop_one] at hnumber
    simp [hhead, hnegative, hnumber] at hvalue

section

variable (hoptions : w.positionalOnly = false)
include hoptions

theorem step_long (hawait : w.awaiting? = none) {body : String} (hne : body ≠ "") :
    w.step queryGrammar ("--" ++ body) = w.long queryGrammar body := by
  obtain ⟨c, cs, hbody⟩ := List.exists_cons_of_ne_nil (mt String.toList_eq_nil_iff.mp hne)
  have hchars : ("--" ++ body).toList = '-' :: '-' :: c :: cs := by simp [hbody]
  have hvalue : w.isHyphenValue ('-' :: '-' :: c :: cs) = false := by
    rw [isHyphenValue, hawait]
    rfl
  rw [step, if_neg (by simp [hoptions]), hchars, hvalue]
  change w.long queryGrammar (String.ofList (c :: cs)) = _
  rw [← hbody, String.ofList_toList]

theorem step_attached (hawait : w.awaiting? = none) {a : Argument} {name : String}
    (hname : a.long? = some name) (ha : a.takesValue = true) (text : String) :
    w.step queryGrammar ("--" ++ (name ++ "=" ++ text)) = w.acceptAttached a text := by
  have hcut : Text.cut? '=' (name ++ "=" ++ text) = some (name, text) :=
    Text.cut?_eq_some_iff.mpr ⟨rfl, Argument.not_mem_long hname⟩
  rw [step_long hoptions hawait (by simp), long, hcut]
  simp only [Argument.find?_long hname, ha, if_true]

theorem step_name (hawait : w.awaiting? = none) {a : Argument} {name : String}
    (hname : a.long? = some name) :
    w.step queryGrammar ("--" ++ name) = if a.takesValue then w.await a else w.acceptFlag a := by
  have hcut : Text.cut? '=' name = none :=
    Text.cut?_eq_none_iff.mpr (Argument.not_mem_long hname)
  rw [step_long hoptions hawait (Argument.long_ne_empty hname), long, hcut]
  simp only [Argument.find?_long hname]

/-- The value of an option is not checked before the next flag or the end. -/
theorem step_value {a : Argument} (hawait : w.awaiting? = some a) {text : String}
    (htext : MayFollow a text) :
    w.step queryGrammar text = .ok { w with pending := some (a, some text) } := by
  have hhead := head_ne_hyphen hawait htext
  rw [step, if_neg (by simp [hoptions]), hawait]
  split
  next hvalue hchars => exact absurd (congrArg List.head? hchars) (hhead hvalue)
  next hvalue hchars => exact absurd (congrArg List.head? hchars) (hhead hvalue)
  next hvalue hchars => exact absurd (congrArg List.head? hchars) (hhead hvalue)
  next => rfl

end

/-! ## A whole line -/

theorem run_cons (w : Walk) (text : String) (rest : List String) :
    w.run queryGrammar (text :: rest) =
      (w.step queryGrammar text).bind fun v => v.run queryGrammar rest := by
  rw [run, if_neg (by simp [queryGrammar])]

/-- Walking over words takes the flags that they spell, with the same errors. -/
theorem run_of_spells {line : List String} {flags : List Flag} (h : Spells line flags)
    (hoptions : w.positionalOnly = false) (hawait : w.awaiting? = none) :
    w.run queryGrammar line = (w.args.takeAll (w.due ++ flags)).map fun args => (args, none) := by
  induction h generalizing w with
  | nil =>
    rw [run, settle_eq hawait, List.append_nil]
    cases w.args.takeAll w.due <;> rfl
  | @attached a name text line flags hname ha _ ih =>
    rw [run_cons, step_attached hoptions hawait hname ha, acceptAttached_eq hawait,
      takeAll_append_cons w.args w.due _ flags]
    cases w.args.takeAll (w.due ++ [(a, some text)]) with
    | error e => rfl
    | ok args => exact ih (w := { w with args, pending := none }) hoptions rfl
  | @apart a name text line flags hname ha htext _ ih =>
    rw [run_cons, step_name hoptions hawait hname, if_pos ha, await, settle_eq hawait,
      takeAll_append]
    cases w.args.takeAll w.due with
    | error e => rfl
    | ok args =>
      let asked : Walk := { w with args, pending := some (a, none) }
      change asked.run queryGrammar (text :: line) = _
      rw [run_cons, step_value (w := asked) hoptions rfl htext]
      exact ih (w := { asked with pending := some (a, some text) }) hoptions rfl
  | @bare a name line flags hname ha _ ih =>
    rw [run_cons, step_name hoptions hawait hname, if_neg (by simp [ha]), acceptFlag_eq hawait,
      takeAll_append_cons w.args w.due _ flags]
    cases w.args.takeAll (w.due ++ [(a, none)]) with
    | error e => rfl
    | ok args => exact ih (w := { w with args, pending := none }) hoptions rfl

end Walk

namespace Arguments

/-- The words after `query` are read as the arguments. -/
def ReadFrom (args : Arguments) (line : List String) : Prop :=
  Invocation.ofLine ("query" :: line) = .ok ⟨args.json, some (.query args)⟩

theorem ofLine_of_spells {line : List String} {flags : List Flag} (h : Spells line flags) :
    Invocation.ofLine ("query" :: line) =
      (takeAll {} flags).map fun args => ⟨args.json, some (.query args)⟩ := by
  have hrun : Walk.run queryGrammar ⟨{}, none, [], false⟩ line =
      (takeAll {} flags).map fun args => (args, none) := Walk.run_of_spells h rfl rfl
  change (Walk.run queryGrammar ⟨{}, none, [], false⟩ line).bind _ = _
  rw [hrun]
  cases takeAll {} flags <;> rfl

theorem readFrom_iff {args : Arguments} {line : List String} {flags : List Flag}
    (h : Spells line flags) : args.ReadFrom line ↔ takeAll {} flags = .ok args := by
  rw [ReadFrom, ofLine_of_spells h, map_eq_ok_iff]
  constructor
  · rintro ⟨read, hread, heq⟩
    have hsame : read = args := Command.query.inj (Option.some.inj (Invocation.mk.inj heq).2)
    exact hsame ▸ hread
  · intro hflags
    exact ⟨args, hflags, rfl⟩

theorem spells_attached {a : Argument} {name : String} (hname : a.long? = some name)
    (ha : a.takesValue = true) (texts : List String) :
    Spells (texts.map fun text => "--" ++ (name ++ "=" ++ text))
      (texts.map fun text => (a, some text)) := by
  induction texts with
  | nil => exact .nil
  | cons text texts ih => exact .attached text hname ha ih

theorem readFrom_attached {args : Arguments} {a : Argument} {name pre : String}
    (hname : a.long? = some name) (ha : a.takesValue = true) (hpre : pre = "--" ++ name ++ "=")
    {texts : List String} (h : takeAll {} (texts.map fun text => (a, some text)) = .ok args) :
    args.ReadFrom (texts.map (pre ++ ·)) := by
  have hwords : (pre ++ ·) = fun text => "--" ++ (name ++ "=" ++ text) := by
    funext text
    rw [hpre, String.append_assoc, String.append_assoc, String.append_assoc]
  rw [hwords, readFrom_iff (spells_attached hname ha texts)]
  exact h

theorem readFrom_equal {text : String} {e : EqualityArgument}
    (h : EqualityArgument.parse text = .ok e) : ReadFrom { equals := [e] } ["--eq=" ++ text] := by
  have hflags : takeAll {} ([text].map fun text => (Argument.equal, some text)) =
      .ok { equals := [e] } := takeAll_equal h
  exact readFrom_attached (a := .equal) rfl rfl rfl hflags

end Arguments

end TableQuery
