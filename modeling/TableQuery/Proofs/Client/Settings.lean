import Mathlib.Data.List.Nodup
import TableQuery.Client.Config
import TableQuery.Proofs.Yaml.Mapping

/-!
# Saved settings are read back

A file may hold any of the settings, each once and in any order. What it holds is read, and all
other settings have their defaults; so all of the settings that are saved are read back.
-/

namespace TableQuery

inductive Setting where
  | baseUrl
  | host
  | driverTag
  | key
  | secret
  | debug
  deriving DecidableEq, Repr

namespace Setting

def name : Setting → String
  | baseUrl => "base_url"
  | host => "host"
  | driverTag => "driver_tag"
  | key => "key"
  | secret => "secret"
  | debug => "debug"

def all : List Setting := [baseUrl, host, driverTag, key, secret, debug]

theorem name_injective : Function.Injective name := by
  intro x y h
  cases x <;> cases y <;> simp_all [name]

theorem isKey (x : Setting) : Yaml.IsKey x.name.toList := by
  cases x <;> exact ⟨by decide, by decide, by decide⟩

end Setting

namespace Config

/-! ## Some of the settings -/

/-- The values of `c` for some settings, and those of `d` for all others. -/
def overlay (c d : Config) (settings : List Setting) : Config where
  baseUrl := if .baseUrl ∈ settings then c.baseUrl else d.baseUrl
  host := if .host ∈ settings then c.host else d.host
  driverTag := if .driverTag ∈ settings then c.driverTag else d.driverTag
  key := if .key ∈ settings then c.key else d.key
  secret := if .secret ∈ settings then c.secret else d.secret
  debug := if .debug ∈ settings then c.debug else d.debug

theorem overlay_nil (c d : Config) : c.overlay d [] = d := by simp [overlay]

theorem overlay_cons (c d : Config) (x : Setting) (settings : List Setting) :
    c.overlay d (x :: settings) = c.overlay (c.overlay d [x]) settings := by
  cases x <;> simp [overlay]

theorem overlay_all (c d : Config) : c.overlay d Setting.all = c := by simp [overlay, Setting.all]

/-! ## Reading -/

/-- Values that are read as what a setting is in `c`. A text may have any style and any tag, but a
secret that is plain may be taken for none, and a flag is a plain word. -/
inductive Spells (c : Config) : Setting → Yaml.Value → Prop where
  | baseUrl {s : Yaml.Scalar} : s.text = c.baseUrl → Spells c .baseUrl (.scalar s)
  | host {s : Yaml.Scalar} : s.text = c.host → Spells c .host (.scalar s)
  | driverTag {s : Yaml.Scalar} : s.text = c.driverTag → Spells c .driverTag (.scalar s)
  | key {s : Yaml.Scalar} : s.text = c.key → Spells c .key (.scalar s)
  | secret {style : Yaml.Style} {text : String} : c.secret = some text →
    (style = .plain → text ≠ "" ∧ Yaml.isNull text = false) →
    Spells c .secret (.scalar ⟨style, none, text⟩)
  | noSecret {text : String} : c.secret = none → text = "" ∨ Yaml.isNull text = true →
    Spells c .secret (.scalar ⟨.plain, none, text⟩)
  | debug {text : String} : Yaml.bool? text = some c.debug →
    Spells c .debug (.scalar ⟨.plain, none, text⟩)

def SpellsEntry (c : Config) (x : Setting) (entry : String × Yaml.Value) : Prop :=
  entry.1 = x.name ∧ c.Spells x entry.2

variable {c : Config} {settings : List Setting} {entries : List (String × Yaml.Value)}

theorem optionalText?_of_text {style : Yaml.Style} {text : String}
    (h : style = .plain → text ≠ "" ∧ Yaml.isNull text = false) :
    optionalText? (.scalar ⟨style, none, text⟩) = some (some text) := by
  cases style with
  | plain =>
    obtain ⟨hempty, hnull⟩ := h rfl
    simp [optionalText?, hempty, hnull]
  | quoted => rfl
  | literal => rfl
  | folded => rfl

theorem readEntry?_spelled {x : Setting} {entry : String × Yaml.Value} (h : c.SpellsEntry x entry)
    (d : Config) : readEntry? d entry = some (c.overlay d [x]) := by
  obtain ⟨name, value⟩ := entry
  obtain ⟨rfl, hvalue⟩ := h
  cases hvalue with
  | secret hsome hplain =>
    simp [Setting.name, readEntry?, optionalText?_of_text hplain, overlay, hsome]
  | noSecret hnone hnull => simp [Setting.name, readEntry?, optionalText?, overlay, hnone, hnull]
  | debug hbool => simp [Setting.name, readEntry?, flag?, overlay, hbool]
  | _ h => simp [Setting.name, readEntry?, text?, overlay, h]

theorem foldlM_readEntry? (h : List.Forall₂ c.SpellsEntry settings entries) (d : Config) :
    entries.foldlM readEntry? d = some (c.overlay d settings) := by
  induction h generalizing d with
  | nil => rw [overlay_nil]; rfl
  | @cons x entry settings entries hentry _ ih =>
    rw [List.foldlM_cons, readEntry?_spelled hentry, overlay_cons c d x settings]
    exact ih _

theorem areDistinct_spelled (h : List.Forall₂ c.SpellsEntry settings entries)
    (hnodup : settings.Nodup) : areDistinct entries = true := by
  have hnames : entries.map Prod.fst = settings.map Setting.name := by
    induction h with
    | nil => rfl
    | cons hentry _ ih =>
      rw [List.map_cons, List.map_cons, hentry.1, ih (List.nodup_cons.mp hnodup).2]
  rw [areDistinct, decide_eq_true_eq, hnames]
  exact (hnodup.map Setting.name_injective).filter _

theorem ofYaml_spelled {text : String} (hread : Yaml.readMapping? text = some entries)
    (hnodup : settings.Nodup) (hentries : List.Forall₂ c.SpellsEntry settings entries) :
    ofYaml text = .ok (c.overlay {} settings) := by
  rw [ofYaml, ofYaml?, hread, Option.bind_some, ofEntries?, areDistinct_spelled hentries hnodup,
    if_pos rfl, foldlM_readEntry? hentries]

/-! ## Writing -/

/-- The entry that is saved for a setting. -/
def entryText (c : Config) : Setting → String
  | .baseUrl => textEntry "base_url" c.baseUrl
  | .host => textEntry "host" c.host
  | .driverTag => textEntry "driver_tag" c.driverTag
  | .key => textEntry "key" c.key
  | .secret => c.secret.elim "" (textEntry "secret")
  | .debug => Yaml.writeEntry "debug" (if c.debug then "true" else "false")

/-- Some of the settings, in any order. -/
def yamlOf (c : Config) (settings : List Setting) : String :=
  String.join (settings.map c.entryText)

def isSaved (c : Config) (x : Setting) : Bool := x ≠ .secret || c.secret.isSome

theorem toYaml_eq (c : Config) : c.toYaml = c.yamlOf Setting.all := by
  simp [toYaml, yamlOf, Setting.all, entryText, String.join]

end Config

/-! ### What is written -/

theorem exists_textEntry (x : Setting) (text : String) : ∃ e : Yaml.Entry,
    (Config.textEntry x.name text).toList = e.line ∧
      e.pair = (x.name, .scalar ⟨e.style, none, text⟩) ∧
      (e.style = .plain → text ≠ "" ∧ Yaml.isNull text = false) := by
  obtain ⟨style, hwritten, hplain⟩ := Yaml.exists_written text.toList
  refine ⟨⟨x.name, style, text, _, x.isKey, hwritten⟩, ?_, rfl, fun hstyle => ?_⟩
  · exact Yaml.Entry.toList_writeEntry ⟨x.name, style, text, _, x.isKey, hwritten⟩
  · have hother := hplain hstyle
    rw [String.ofList_toList] at hother
    simp only [Yaml.hasOtherMeaning, Bool.or_eq_false_iff] at hother
    exact ⟨by simpa using hother.1.1.1.1.1, hother.1.1.1.1.2⟩

theorem exists_flagEntry (b : Bool) : ∃ e : Yaml.Entry, ∃ word,
    (Yaml.writeEntry "debug" (if b then "true" else "false")).toList = e.line ∧
      e.pair = ("debug", .scalar ⟨.plain, none, word⟩) ∧ Yaml.bool? word = some b := by
  obtain ⟨word, hword, hplain, hbool⟩ : ∃ word, (if b then "true" else "false") = word ∧
      Yaml.Written .plain word.toList word.toList ∧ Yaml.bool? word = some b := by
    cases b with
    | true => exact ⟨"true", rfl, .plain (by decide) (by decide), by decide⟩
    | false => exact ⟨"false", rfl, .plain (by decide) (by decide), by decide⟩
  refine ⟨⟨"debug", .plain, word, _, Setting.debug.isKey, hplain⟩, word, ?_, rfl, hbool⟩
  rw [← Yaml.Entry.toList_writeEntry, String.ofList_toList, hword]

namespace Config

theorem exists_entries (c : Config) (x : Setting) : ∃ entries : List Yaml.Entry,
    (c.entryText x).toList = entries.flatMap Yaml.Entry.line ∧
      List.Forall₂ c.SpellsEntry ([x].filter c.isSaved) (entries.map Yaml.Entry.pair) := by
  -- All settings but an absent secret have one entry.
  have hone {e : Yaml.Entry} (hline : (c.entryText x).toList = e.line)
      (hsaved : c.isSaved x = true) (hspells : c.SpellsEntry x e.pair) :
      ∃ entries : List Yaml.Entry, (c.entryText x).toList = entries.flatMap Yaml.Entry.line ∧
        List.Forall₂ c.SpellsEntry ([x].filter c.isSaved) (entries.map Yaml.Entry.pair) :=
    ⟨[e], by simpa using hline, by simpa [hsaved] using hspells⟩
  cases x with
  | baseUrl =>
    obtain ⟨e, hline, hpair, -⟩ := exists_textEntry .baseUrl c.baseUrl
    exact hone hline rfl (hpair ▸ ⟨rfl, .baseUrl rfl⟩)
  | host =>
    obtain ⟨e, hline, hpair, -⟩ := exists_textEntry .host c.host
    exact hone hline rfl (hpair ▸ ⟨rfl, .host rfl⟩)
  | driverTag =>
    obtain ⟨e, hline, hpair, -⟩ := exists_textEntry .driverTag c.driverTag
    exact hone hline rfl (hpair ▸ ⟨rfl, .driverTag rfl⟩)
  | key =>
    obtain ⟨e, hline, hpair, -⟩ := exists_textEntry .key c.key
    exact hone hline rfl (hpair ▸ ⟨rfl, .key rfl⟩)
  | secret =>
    cases hsecret : c.secret with
    | none => exact ⟨[], by simp [entryText, hsecret], by simp [isSaved, hsecret]⟩
    | some text =>
      obtain ⟨e, hline, hpair, hplain⟩ := exists_textEntry .secret text
      have hspells : c.SpellsEntry .secret e.pair := hpair ▸ ⟨rfl, .secret hsecret hplain⟩
      have htext : c.entryText .secret = textEntry Setting.secret.name text := by
        rw [entryText, hsecret]
        rfl
      exact hone (htext ▸ hline) (by simp [isSaved, hsecret]) hspells
  | debug =>
    obtain ⟨e, word, hline, hpair, hbool⟩ := exists_flagEntry c.debug
    exact hone hline rfl (hpair ▸ ⟨rfl, .debug hbool⟩)

theorem exists_entries_yamlOf (c : Config) (settings : List Setting) :
    ∃ entries : List Yaml.Entry, (c.yamlOf settings).toList = entries.flatMap Yaml.Entry.line ∧
      List.Forall₂ c.SpellsEntry (settings.filter c.isSaved) (entries.map Yaml.Entry.pair) := by
  induction settings with
  | nil => exact ⟨[], rfl, .nil⟩
  | cons x settings ih =>
    obtain ⟨first, hline, hfirst⟩ := c.exists_entries x
    obtain ⟨entries, hlines, hentries⟩ := ih
    refine ⟨first ++ entries, ?_, ?_⟩
    · simp only [yamlOf, String.toList_join, List.map_cons, List.flatMap_cons, List.flatMap_append]
        at hlines ⊢
      rw [hline, hlines]
    · rw [← List.singleton_append, List.filter_append, List.map_append]
      exact List.rel_append hfirst hentries

theorem overlay_saved (c : Config) (settings : List Setting) :
    c.overlay {} (settings.filter c.isSaved) = c.overlay {} settings := by
  cases hsecret : c.secret <;> simp [overlay, isSaved, hsecret]

theorem ofYaml_yamlOf (c : Config) {settings : List Setting} (hnodup : settings.Nodup) :
    ofYaml (c.yamlOf settings) = .ok (c.overlay {} settings) := by
  obtain ⟨entries, hlines, hentries⟩ := c.exists_entries_yamlOf settings
  have hread := Yaml.readMapping?_entries entries hlines
  rw [ofYaml_spelled hread (hnodup.filter _) hentries, overlay_saved]

end Config

/-! ### Both ways -/

/-- The settings that are saved are all read back, and no secret stays apart from an empty one. Of a
file with only some of the settings, in whatever order and form, these are read, and the others have
their defaults. -/
theorem saved_settings_load_back (c : Config) : Config.ofYaml c.toYaml = .ok c ∧
    (∀ settings : List Setting, settings.Nodup →
      Config.ofYaml (c.yamlOf settings) = .ok (c.overlay {} settings)) ∧
    ∀ (settings : List Setting) (text : String) (entries : List (String × Yaml.Value)),
      settings.Nodup → Yaml.readMapping? text = some entries →
        List.Forall₂ c.SpellsEntry settings entries →
          Config.ofYaml text = .ok (c.overlay {} settings) := by
  refine ⟨?_, fun settings => c.ofYaml_yamlOf, fun settings text entries hnodup hread => ?_⟩
  · rw [c.toYaml_eq, c.ofYaml_yamlOf (by decide), c.overlay_all]
  · exact Config.ofYaml_spelled hread hnodup

/-- A file by hand: an empty secret in quotes, and a key that looks like a number. -/
theorem saved_settings_load_back_by_hand :
    Config.ofYaml "secret: ''\n# in base sixteen\nkey: 0x1F\ndebug: TRUE\n" =
        .ok { key := "0x1F", secret := some "", debug := true } ∧
      Config.ofYaml (Config.yamlOf { host := "# a\n b: ~\n\n", secret := some "null" }
        [.secret, .host]) = .ok { host := "# a\n b: ~\n\n", secret := some "null" } := by
  refine ⟨?_, ?_⟩
  · exact (saved_settings_load_back { key := "0x1F", secret := some "", debug := true }).2.2
      [.secret, .key, .debug] _ [("secret", .scalar ⟨.quoted, none, ""⟩),
        ("key", .scalar ⟨.plain, none, "0x1F"⟩), ("debug", .scalar ⟨.plain, none, "TRUE"⟩)]
      (by decide) (by decide +kernel)
      (.cons ⟨rfl, .secret rfl (by decide)⟩ (.cons ⟨rfl, .key rfl⟩ (.cons ⟨rfl, .debug rfl⟩ .nil)))
  · exact (saved_settings_load_back { host := "# a\n b: ~\n\n", secret := some "null" }).2.1
      [.secret, .host] (by decide)

end TableQuery
