import TableQuery.Client.Error
import TableQuery.Yaml.Mapping
import TableQuery.Yaml.Printer

/-! # Client settings

Settings are kept as a YAML mapping. A setting that is not there has its default.
-/

namespace TableQuery

structure Config where
  /-- The root that request paths are joined to. -/
  baseUrl : String := "http://api.v3.factual.com/"
  host : String := "api.v3.factual.com"
  driverTag : String := "tabula-rs-v0.1.0"
  key : String := ""
  secret : Option String := none
  /-- Whether each call is logged. -/
  debug : Bool := false
  deriving DecidableEq, Repr

namespace Config

instance : Inhabited Config := ⟨{}⟩

/-- Joins a path to the root with one slash between them. -/
def urlFor (c : Config) (path : String) : String :=
  let root := (c.baseUrl.toList.reverse.dropWhile (· = '/')).reverse
  String.ofList (root ++ '/' :: path.toList.dropWhile (· = '/'))

/-! ## Reading -/

def text? : Yaml.Value → Option String
  | .scalar s => some s.text
  | .collection => none

/-- A plain null, or nothing at all, is no text; with a tag only that of null makes it so, and then
nothing but null may stand there. -/
def optionalText? : Yaml.Value → Option (Option String)
  | .scalar ⟨.plain, none, text⟩ =>
    if text.isEmpty || Yaml.isNull text then some none else some (some text)
  | .scalar ⟨.plain, some tag, text⟩ =>
    if tag ≠ Yaml.nullTag then some (some text)
    else if Yaml.isNull text then some none
    else none
  | .scalar s => some (some s.text)
  | .collection => none

/-- A flag is a plain word, or a literal block with the tag of booleans. -/
def flag? : Yaml.Value → Option Bool
  | .scalar ⟨.plain, _, text⟩ => Yaml.bool? text
  | .scalar ⟨.literal, some tag, text⟩ => if tag = Yaml.boolTag then Yaml.bool? text else none
  | _ => none

/-- Reads one entry; an unknown one is passed over. -/
def readEntry? (c : Config) (entry : String × Yaml.Value) : Option Config :=
  match entry.1 with
  | "base_url" => (text? entry.2).map fun s => { c with baseUrl := s }
  | "host" => (text? entry.2).map fun s => { c with host := s }
  | "driver_tag" => (text? entry.2).map fun s => { c with driverTag := s }
  | "key" => (text? entry.2).map fun s => { c with key := s }
  | "secret" => (optionalText? entry.2).map fun s => { c with secret := s }
  | "debug" => (flag? entry.2).map fun b => { c with debug := b }
  | _ => some c

def settingNames : List String := ["base_url", "host", "driver_tag", "key", "secret", "debug"]

/-- Every setting comes at most once. -/
def areDistinct (entries : List (String × Yaml.Value)) : Bool :=
  decide ((entries.map Prod.fst).filter settingNames.contains).Nodup

def ofEntries? (entries : List (String × Yaml.Value)) : Option Config :=
  if areDistinct entries then entries.foldlM readEntry? {} else none

def ofYaml? (text : String) : Option Config := (Yaml.readMapping? text).bind ofEntries?

def ofYaml (text : String) : Except ClientError Config :=
  match ofYaml? text with
  | some c => .ok c
  | none => .error (.config "the settings are not a mapping of the known types")

/-- Reads the settings from what a file holds. -/
def ofFile (content : Except FileFailure String) : Except ClientError Config :=
  (content.mapError .file).bind ofYaml

/-! ## Writing -/

def textEntry (name value : String) : String := Yaml.writeEntry name (Yaml.write value)

/-- All settings in a fixed order; no secret has no entry. -/
def toYaml (c : Config) : String :=
  textEntry "base_url" c.baseUrl ++
  textEntry "host" c.host ++
  textEntry "driver_tag" c.driverTag ++
  textEntry "key" c.key ++
  c.secret.elim "" (textEntry "secret") ++
  Yaml.writeEntry "debug" (if c.debug then "true" else "false")

end Config

end TableQuery
