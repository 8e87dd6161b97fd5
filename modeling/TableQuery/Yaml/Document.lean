import TableQuery.Yaml.Event
import TableQuery.Yaml.Layout

/-! # YAML documents

A text holds one document or none. Directives stand in front of the marker that begins it.
-/

namespace TableQuery.Yaml

/-- Handles that are known without a directive. -/
def knownHandles : List (String × String) := [("!", "!"), ("!!", "tag:yaml.org,2002:")]

/-- A tag in full. Without a handle it is already. -/
def spellTag? (handles : List (String × String)) (handle suffix : String) : Option String :=
  if handle.isEmpty then some suffix
  else ((handles ++ knownHandles).lookup handle).map (· ++ suffix)

/-- The handles that the directives give, and the tokens after them. The version is given once at
most and is a known one, and no handle is given twice. -/
def readDirectives? (hasVersion : Bool) (handles : List (String × String)) :
    List Token → Option (List (String × String) × List Token)
  | .version major minor :: rest =>
    if hasVersion || major ≠ 1 || (minor ≠ 1 && minor ≠ 2) then none
    else readDirectives? true handles rest
  | .handle name expansion :: rest =>
    if (handles.lookup name).isSome then none
    else readDirectives? hasVersion ((name, expansion) :: handles) rest
  | tokens => some (handles, tokens)

/-- The events of a document, after which nothing comes but marks of its end. -/
def contentEvents? (handles : List (String × String)) (mayBeVoid : Bool) (tokens : List Token) :
    Option (List (Event String)) :=
  let content := tokens.takeWhile fun token => !token.isBoundary
  let rest := tokens.dropWhile fun token => !token.isBoundary
  if !rest.all (· = .documentEnd) then none
  else if content.isEmpty && mayBeVoid then some [.void]
  else Event.ofTokens? (spellTag? handles) content

/-- The events of the only document; none at all if there is no document. -/
def documentEvents? (tokens : List Token) : Option (List (Event String)) :=
  if tokens.isEmpty then some []
  else
    match readDirectives? false [] tokens with
    | some (handles, .documentStart :: rest) => contentEvents? handles true rest
    | _ => contentEvents? [] false tokens

end TableQuery.Yaml
