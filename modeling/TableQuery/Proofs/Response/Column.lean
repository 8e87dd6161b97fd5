import Mathlib.Tactic.FinCases
import TableQuery.Proofs.Keyed
import TableQuery.Proofs.Response.UnknownMembers

/-!
# Columns are read exactly

A column is written as an object that leaves out what it likes of the defaults, or as a list that
leaves out the last of them. Either is read as the column, and nothing else is read as any column.
-/

namespace TableQuery

namespace Shape

def IsText (v : Json) : Prop := ∃ s, v = .string s

def IsOptionalText (v : Json) : Prop := v = .null ∨ IsText v

def IsFlag (v : Json) : Prop := ∃ b, v = .bool b

/-- A member whose name is known is of the type that belongs to the name. -/
def Typed (types : List (String × (Json → Prop))) (member : String × Json) : Prop :=
  ∀ T, (member.1, T) ∈ types → T member.2

inductive Mistyped (types : List (String × (Json → Prop))) (members : Members) : Prop
  | intro {name : String} {v : Json} {T : Json → Prop} (h : Entries.get? name members = some v)
      (hT : (name, T) ∈ types) (hv : ¬ T v)

theorem forall_typed_iff {types : List (String × (Json → Prop))} {members : Members}
    (hnodup : (members.map (·.1)).Nodup) :
    (∀ e ∈ members, Typed types e) ↔ ¬ Mistyped types members := by
  constructor
  · rintro htyped ⟨h, hT, hv⟩
    exact hv (htyped _ (Entries.mem_of_get? h) _ hT)
  · intro h e he T hT
    by_contra hv
    exact h ⟨(Entries.get?_eq_some_iff hnodup).mpr he, hT, hv⟩

theorem optional_string_injective : Function.Injective (Json.optional Json.string) := by
  intro a b h
  cases a <;> cases b <;> simp_all [Json.optional]

theorem isOptionalText_optional (s : Option String) : IsOptionalText (.optional .string s) := by
  cases s with
  | none => exact .inl rfl
  | some s => exact .inr ⟨s, rfl⟩

theorem text_eq_ok_iff {v : Json} {s : String} : text v = .ok s ↔ v = .string s := by
  cases v <;> simp [text]

theorem flag_eq_ok_iff {v : Json} {b : Bool} : flag v = .ok b ↔ v = .bool b := by
  cases v <;> simp [flag]

theorem optionalText_eq_ok_iff {v : Json} {s : Option String} :
    optionalText v = .ok s ↔ v = .optional .string s := by
  cases v <;> cases s <;> simp [optionalText, text, Json.optional, Except.map]

theorem exists_text_iff {v : Json} : (∃ s, text v = .ok s) ↔ IsText v := by
  simp only [text_eq_ok_iff, IsText]

theorem exists_flag_iff {v : Json} : (∃ b, flag v = .ok b) ↔ IsFlag v := by
  simp only [flag_eq_ok_iff, IsFlag]

theorem exists_optionalText_iff {v : Json} : (∃ s, optionalText v = .ok s) ↔ IsOptionalText v := by
  simp only [optionalText_eq_ok_iff, Option.exists, Json.optional, IsOptionalText, IsText]

theorem required_eq_ok_iff {α : Type} {name : String} {found : Option α} {a : α} :
    required name found = .ok a ↔ found = some a := by
  cases found <;> simp [required]

end Shape

namespace Column

open Shape

/-! ## What a column is written as -/

def toMembers (c : Column) : Members :=
  [("name", .string c.name), ("description", .optional .string c.description),
    ("label", .optional .string c.label), ("datatype", .optional .string c.datatype),
    ("faceted", .bool c.faceted), ("sortable", .bool c.sortable), ("searchable", .bool c.searchable)]

/-- What a member stands for that is left out. -/
def defaults : Members :=
  [("description", .null), ("label", .null), ("datatype", .null), ("faceted", .bool false),
    ("sortable", .bool false), ("searchable", .bool false)]

def memberTypes : List (String × (Json → Prop)) :=
  [("name", IsText), ("description", IsOptionalText), ("label", IsOptionalText),
    ("datatype", IsOptionalText), ("faceted", IsFlag), ("sortable", IsFlag), ("searchable", IsFlag)]

/-- Every member of the column is in the object, or has its default and is left out. -/
def SpelledBy (members : Members) (c : Column) : Prop :=
  ∀ e ∈ c.toMembers, (Entries.get? e.1 members).or (Entries.get? e.1 defaults) = some e.2

inductive Spells : Json → Column → Prop
  | object {members : Members} {c : Column} (h : SpelledBy members c) : Spells (.object members) c
  | array {items dropped : List Json} {c : Column}
      (hitems : items ++ dropped = c.toMembers.map (·.2))
      (hdropped : dropped <:+ defaults.map (·.2)) : Spells (.array items) c

inductive Malformed : Json → Prop
  | otherType {v : Json} (hobject : v.isObject = false) (harray : ∀ items, v ≠ .array items) :
      Malformed v
  | unnamed {members : Members} (h : Entries.get? "name" members = none) :
      Malformed (.object members)
  | memberType {members : Members} (h : Mistyped memberTypes members) : Malformed (.object members)
  | empty : Malformed (.array [])
  | long {items : List Json} (h : memberNames.length < items.length) : Malformed (.array items)
  | itemType {items : List Json} (h : Mistyped memberTypes (memberNames.zip items)) :
      Malformed (.array items)

/-! ## What is kept of the members -/

abbrev start : Option String × Column := (none, ⟨"", none, none, none, false, false, false⟩)

/-- What has been read of one member, or its default; the name has none. -/
def valueOf (read : Option String × Column) (name : String) : Option Json :=
  if name = "name" then read.1.map .string else Entries.get? name read.2.toMembers

theorem valueOf_readMember {read read' : Option String × Column} {e : String × Json}
    (h : readMember read e = .ok read') {name : String} (hname : name ∈ memberNames) :
    (e.1 = name → some e.2 = valueOf read' name) ∧
      (e.1 ≠ name → valueOf read' name = valueOf read name) := by
  obtain ⟨key, v⟩ := e
  obtain ⟨found, c⟩ := read
  unfold readMember at h
  dsimp only at h ⊢
  -- The name, three optional texts, three flags, and what is not known.
  split at h
  next =>
    obtain ⟨s, hs, rfl⟩ := map_eq_ok_iff.mp h
    obtain rfl := text_eq_ok_iff.mp hs
    fin_cases hname <;> simp [valueOf, toMembers, Entries.get?]
  iterate 3
    next =>
      obtain ⟨s, hs, rfl⟩ := map_eq_ok_iff.mp h
      obtain rfl := optionalText_eq_ok_iff.mp hs
      fin_cases hname <;> simp [valueOf, toMembers, Entries.get?]
  iterate 3
    next =>
      obtain ⟨b, hb, rfl⟩ := map_eq_ok_iff.mp h
      obtain rfl := flag_eq_ok_iff.mp hb
      fin_cases hname <;> simp [valueOf, toMembers, Entries.get?]
  next =>
    cases h
    fin_cases hname <;> simp_all

theorem exists_readMember_iff (e : String × Json) (read : Option String × Column) :
    (∃ read', readMember read e = .ok read') ↔ Typed memberTypes e := by
  obtain ⟨key, v⟩ := e
  unfold readMember
  dsimp only
  split
  next => exact exists_map_eq_ok_iff.trans (exists_text_iff.trans (by simp [Typed, memberTypes]))
  iterate 3
    next =>
      exact exists_map_eq_ok_iff.trans
        (exists_optionalText_iff.trans (by simp [Typed, memberTypes]))
  iterate 3
    next =>
      exact exists_map_eq_ok_iff.trans (exists_flag_iff.trans (by simp [Typed, memberTypes]))
  next => simp_all [Typed, memberTypes]

theorem eq_of_valueOf {read : Option String × Column} {c : Column}
    (h : ∀ e ∈ c.toMembers, valueOf read e.1 = some e.2) :
    read.1 = some c.name ∧ { read.2 with name := c.name } = c := by
  obtain ⟨found, d⟩ := read
  simp [toMembers, valueOf, Entries.get?, optional_string_injective.eq_iff] at h
  obtain ⟨hname, hdescription, hlabel, hdatatype, hfaceted, hsortable, hsearchable⟩ := h
  refine ⟨hname, ?_⟩
  simp only [hdescription, hlabel, hdatatype, hfaceted, hsortable, hsearchable]

theorem valueOf_of_mem_toMembers (s : String) (c : Column) :
    ∀ e ∈ { c with name := s }.toMembers, valueOf (some s, c) e.1 = some e.2 := by
  simp [toMembers, valueOf, Entries.get?]

theorem mem_memberNames_of_mem_toMembers {c : Column} {e : String × Json} (he : e ∈ c.toMembers) :
    e.1 ∈ memberNames := List.mem_map_of_mem he

theorem exists_mem_toMembers (c : Column) {name : String} {T : Json → Prop}
    (hT : (name, T) ∈ memberTypes) : ∃ v, (name, v) ∈ c.toMembers ∧ T v := by
  simp only [memberTypes, List.mem_cons, Prod.mk.injEq, List.not_mem_nil, or_false] at hT
  rcases hT with ⟨rfl, rfl⟩ | ⟨rfl, rfl⟩ | ⟨rfl, rfl⟩ | ⟨rfl, rfl⟩ | ⟨rfl, rfl⟩ | ⟨rfl, rfl⟩ |
    ⟨rfl, rfl⟩
  · exact ⟨_, by simp [toMembers], c.name, rfl⟩
  · exact ⟨_, by simp [toMembers], isOptionalText_optional c.description⟩
  · exact ⟨_, by simp [toMembers], isOptionalText_optional c.label⟩
  · exact ⟨_, by simp [toMembers], isOptionalText_optional c.datatype⟩
  · exact ⟨_, by simp [toMembers], c.faceted, rfl⟩
  · exact ⟨_, by simp [toMembers], c.sortable, rfl⟩
  · exact ⟨_, by simp [toMembers], c.searchable, rfl⟩

/-! ## Members with distinct names -/

section

variable {members : Members}

theorem not_mistyped_of_spelledBy {c : Column} (h : SpelledBy members c) :
    ¬ Mistyped memberTypes members := by
  rintro ⟨hget, hT, hv⟩
  obtain ⟨w, hw, hTw⟩ := exists_mem_toMembers c hT
  have hvalue := h _ hw
  rw [hget] at hvalue
  cases hvalue
  exact hv hTw

variable (hnodup : (members.map (·.1)).Nodup)
include hnodup

theorem valueOf_foldlM {read : Option String × Column}
    (h : members.foldlM readMember start = .ok read) {name : String} (hname : name ∈ memberNames) :
    valueOf read name = (Entries.get? name members).or (Entries.get? name defaults) := by
  have hread := Entries.foldlM_get (valueOf · name) (fun v x => some v = x)
    (fun _ _ _ hstep => valueOf_readMember hstep hname) hnodup h
  rcases hread with ⟨v, hv, hvalue⟩ | ⟨hnone, hvalue⟩
  · rw [hv, ← hvalue, Option.some_or]
  · rw [hnone, hvalue, Option.none_or]
    fin_cases hname <;> rfl

theorem exists_foldlM_iff :
    (∃ read, members.foldlM readMember start = .ok read) ↔ ¬ Mistyped memberTypes members := by
  rw [← forall_typed_iff hnodup]
  exact Entries.exists_foldlM_iff (fun e _ => exists_readMember_iff e) start

theorem ofMembers_eq_ok_iff {c : Column} : ofMembers members = .ok c ↔ SpelledBy members c := by
  constructor
  · intro h e he
    obtain ⟨⟨found, d⟩, hfold, h⟩ := bind_eq_ok_iff.mp h
    obtain ⟨s, hs, h⟩ := bind_eq_ok_iff.mp h
    cases required_eq_ok_iff.mp hs
    cases h
    rw [← valueOf_foldlM hnodup hfold (mem_memberNames_of_mem_toMembers he)]
    exact valueOf_of_mem_toMembers s d e he
  · intro h
    obtain ⟨read, hfold⟩ := (exists_foldlM_iff hnodup).mpr (not_mistyped_of_spelledBy h)
    obtain ⟨hname, hcolumn⟩ := eq_of_valueOf fun e he =>
      (valueOf_foldlM hnodup hfold (mem_memberNames_of_mem_toMembers he)).trans (h e he)
    refine bind_eq_ok_iff.mpr ⟨read, hfold, bind_eq_ok_iff.mpr ⟨c.name, ?_, ?_⟩⟩
    · exact required_eq_ok_iff.mpr hname
    · exact congrArg Except.ok hcolumn

theorem exists_ofMembers_iff : (∃ c, ofMembers members = .ok c) ↔
    ¬ Mistyped memberTypes members ∧ Entries.get? "name" members ≠ none := by
  constructor
  · rintro ⟨c, hc⟩
    have hspelled := (ofMembers_eq_ok_iff hnodup).mp hc
    refine ⟨not_mistyped_of_spelledBy hspelled, fun hnone => ?_⟩
    have hname := hspelled ("name", .string c.name) (by simp [toMembers])
    rw [hnone] at hname
    cases hname
  · rintro ⟨htyped, hname⟩
    obtain ⟨read, hfold⟩ := (exists_foldlM_iff hnodup).mpr htyped
    obtain ⟨v, hv⟩ := Option.ne_none_iff_exists'.mp hname
    have hvalue := @valueOf_foldlM members hnodup read hfold "name" (by decide)
    rw [hv] at hvalue
    obtain ⟨s, hs, -⟩ := Option.map_eq_some_iff.mp hvalue
    exact ⟨_, bind_eq_ok_iff.mpr ⟨read, hfold,
      bind_eq_ok_iff.mpr ⟨s, required_eq_ok_iff.mpr hs, rfl⟩⟩⟩

end

/-! ## Values without names -/

theorem nodup_zip (items : List Json) : ((memberNames.zip items).map (·.1)).Nodup :=
  Entries.nodup_keys_zip (by decide) items

theorem ofItems_eq_ok_iff {items : List Json} {c : Column} : ofItems items = .ok c ↔
    items.length ≤ memberNames.length ∧ ofMembers (memberNames.zip items) = .ok c := by
  cases items with
  | nil =>
    refine iff_of_false nofun ?_
    rintro ⟨-, h⟩
    cases h
  | cons first items =>
    change (ofMembers _ >>= _) = Except.ok c ↔ _
    rw [bind_eq_ok_iff]
    constructor
    · rintro ⟨d, hd, h⟩
      split at h
      next => cases h
      next hlong =>
        cases h
        exact ⟨Nat.not_lt.mp hlong, hd⟩
    · rintro ⟨hle, hc⟩
      exact ⟨c, hc, if_neg (Nat.not_lt.mpr hle)⟩

/-- The first value is the name; all others have defaults. -/
theorem spelledBy_zip_cons_iff {first : Json} {items : List Json} {c : Column} :
    SpelledBy (memberNames.zip (first :: items)) c ↔ first = .string c.name ∧
      ∀ e ∈ (defaults.map (·.1)).zip (c.toMembers.tail.map (·.2)),
        (Entries.get? e.1 ((defaults.map (·.1)).zip items)).or (Entries.get? e.1 defaults) =
          some e.2 := by
  change (∀ e ∈ ("name", Json.string c.name) ::
    (defaults.map (·.1)).zip (c.toMembers.tail.map (·.2)), _) ↔ _
  rw [List.forall_mem_cons]
  refine and_congr ?_ (forall₂_congr fun e he => ?_)
  · simp [memberNames, Entries.get?, defaults]
  · have hmem : e.1 ∈ defaults.map (·.1) := (List.of_mem_zip he).1
    have hne : e.1 ≠ "name" := by
      intro heq
      rw [heq] at hmem
      exact absurd hmem (by decide)
    rw [memberNames, List.zip_cons_cons, Entries.get?, if_neg hne]
    rfl

theorem spelledBy_zip_iff {items : List Json} {c : Column} :
    items.length ≤ memberNames.length ∧ SpelledBy (memberNames.zip items) c ↔
      ∃ dropped, items ++ dropped = c.toMembers.map (·.2) ∧ dropped <:+ defaults.map (·.2) := by
  cases items with
  | nil =>
    refine iff_of_false ?_ ?_
    · rintro ⟨-, h⟩
      cases h ("name", .string c.name) (by simp [toMembers])
    · rintro ⟨dropped, rfl, hsuffix⟩
      exact absurd hsuffix.length_le (by simp [toMembers, defaults])
  | cons first items =>
    have hrest : items.length ≤ defaults.length ∧ _ ↔ _ :=
      Entries.completes_iff (by decide) items (c.toMembers.tail.map (·.2)) rfl
    rw [spelledBy_zip_cons_iff]
    constructor
    · rintro ⟨hle, rfl, hvalues⟩
      obtain ⟨dropped, hitems, hsuffix⟩ := hrest.mp ⟨Nat.le_of_succ_le_succ hle, hvalues⟩
      exact ⟨dropped, congrArg (Json.string c.name :: ·) hitems, hsuffix⟩
    · rintro ⟨dropped, hitems, hsuffix⟩
      obtain ⟨hfirst, hitems⟩ := List.cons.inj hitems
      obtain ⟨hle, hvalues⟩ := hrest.mpr ⟨dropped, hitems, hsuffix⟩
      exact ⟨Nat.succ_le_succ hle, hfirst, hvalues⟩

theorem exists_ofItems_iff {items : List Json} : (∃ c, ofItems items = .ok c) ↔
    items ≠ [] ∧ items.length ≤ memberNames.length ∧
      ¬ Mistyped memberTypes (memberNames.zip items) := by
  simp only [ofItems_eq_ok_iff, exists_and_left, exists_ofMembers_iff (nodup_zip items)]
  cases items with
  | nil => simp [Entries.get?]
  | cons first items => simp [memberNames, Entries.get?]

/-! ## Columns of either form -/

theorem ofJson_eq_ok_iff {v : Json} (hv : v.Ordered) {c : Column} :
    ofJson v = .ok c ↔ Spells v c := by
  cases v with
  | object members =>
    refine (ofMembers_eq_ok_iff (Entries.nodup_keys hv.1)).trans ⟨.object, fun h => ?_⟩
    cases h with
    | object h => exact h
  | array items =>
    refine ofItems_eq_ok_iff.trans ?_
    rw [ofMembers_eq_ok_iff (nodup_zip items), spelledBy_zip_iff]
    constructor
    · rintro ⟨dropped, hitems, hdropped⟩
      exact .array hitems hdropped
    · intro h
      cases h with
      | array hitems hdropped => exact ⟨_, hitems, hdropped⟩
  | _ => exact iff_of_false nofun nofun

theorem exists_ofJson_iff {v : Json} (hv : v.Ordered) :
    (∃ c, ofJson v = .ok c) ↔ ¬ Malformed v := by
  cases v with
  | object members =>
    refine (exists_ofMembers_iff (Entries.nodup_keys hv.1)).trans ⟨?_, fun h => ⟨?_, ?_⟩⟩
    · rintro ⟨htyped, hname⟩ hmalformed
      cases hmalformed with
      | otherType hobject harray => cases hobject
      | unnamed h => exact hname h
      | memberType h => exact htyped h
    · exact fun hmistyped => h (.memberType hmistyped)
    · exact fun hnone => h (.unnamed hnone)
  | array items =>
    refine exists_ofItems_iff.trans ⟨?_, fun h => ⟨?_, ?_, ?_⟩⟩
    · rintro ⟨hne, hle, htyped⟩ hmalformed
      cases hmalformed with
      | otherType hobject harray => exact harray items rfl
      | empty => exact hne rfl
      | long h => exact Nat.not_lt.mpr hle h
      | itemType h => exact htyped h
    · rintro rfl
      exact h .empty
    · exact Nat.not_lt.mp fun hlong => h (.long hlong)
    · exact fun hmistyped => h (.itemType hmistyped)
  | _ => exact iff_of_false nofun fun h => h (.otherType rfl nofun)

end Column

end TableQuery
