import TableQuery.Yaml.Character

/-! # Plain YAML scalars -/

namespace TableQuery.Yaml

/-- What has been read of plain text. -/
structure Plain where
  text : List Char
  /-- The text ends in front of a gap with a line break. -/
  endsLine : Bool
  /-- The text after that gap. -/
  rest : List Char

/-- The first word, which goes up to a gap or to the colon of an entry, and the text after it. In a
flow collection it must not end in a colon that touches one of the brackets and marks. -/
def takeWord? (inFlow : Bool) : List Char → Option (List Char × List Char)
  | [] => some ([], [])
  | c :: rest =>
    if inFlow && c = ':' && rest.head?.any (fun d => isFlowIndicator d || d = '?') then none
    else if isGap c || (c = ':' && endsWord rest) || (inFlow && isFlowIndicator c) then
      some ([], c :: rest)
    else (takeWord? inFlow rest).map fun (word, after) => (c :: word, after)

/-- A line that the gap begins is indented by a tab where a space is required. -/
def hasEarlyTab (margin : Nat) : Option Nat → List Char → Bool
  | _, [] => false
  | column?, c :: rest =>
    if isBreak c then hasEarlyTab margin (some 0) rest
    else
      (c = '\t' && column?.any (· < margin)) || hasEarlyTab margin (column?.map (· + 1)) rest

/-- Plain text ends at the gap in front of `after`: a comment or a marker comes, or the next line of
a block is not indented up to `margin`. -/
def stopsAt (inFlow : Bool) (margin : Nat) (gap after : List Char) : Bool :=
  after.head? = some '#' || reachesMarker gap after ||
    (!inFlow && gap.any isBreak && (lastLine gap).length < margin)

/-- Reads words and folds the gaps between them. -/
def readPlain? (inFlow : Bool) (margin : Nat) : Nat → List Char → Option Plain
  | 0, _ => none
  | fuel + 1, cs =>
    (takeWord? inFlow cs).bind fun (word, rest) =>
      let (gap, after) := takeGap rest
      if hasEarlyTab margin none gap then none
      else if gap.isEmpty || stopsAt inFlow margin gap after then
        some ⟨word, gap.any isBreak, after⟩
      else
        (readPlain? inFlow margin fuel after).map fun more =>
          if more.text.isEmpty then ⟨word, gap.any isBreak, after⟩
          else { more with text := word ++ foldGap gap ++ more.text }

/-- The plain text at the front. -/
def plain? (inFlow : Bool) (margin : Nat) (cs : List Char) : Option Plain :=
  readPlain? inFlow margin (cs.length + 1) cs

end TableQuery.Yaml
