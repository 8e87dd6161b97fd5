import TableQuery.Geo
import TableQuery.Json.Reader
import TableQuery.Text.Blank
import TableQuery.Text.Cut

/-! # Values of command-line options -/

namespace TableQuery

/-- `field:asc` or `field:desc`. -/
structure SortArgument where
  field : String
  descending : Bool
  deriving DecidableEq, Repr

/-- `field=value`. -/
structure EqualityArgument where
  field : String
  value : Json

inductive ArgumentError where
  | emptySortField (text : String)
  | unknownDirection (direction : String)
  | noEquals (text : String)
  | emptyFilterField (text : String)
  | circleForm (text : String)
  | latitude (text : String)
  | longitude (text : String)
  | radius (text : String)
  | latitudeRange (value : Double)
  | longitudeRange (value : Double)

def ArgumentError.message : ArgumentError → String
  | .emptySortField text => "Invalid sort '" ++ text ++ "': field name cannot be empty"
  | .unknownDirection direction =>
    "Invalid sort direction '" ++ direction ++ "'. Expected 'asc' or 'desc'"
  | .noEquals text => "Invalid filter '" ++ text ++ "'. Expected format: field=value"
  | .emptyFilterField text => "Invalid filter '" ++ text ++ "': field name cannot be empty"
  | .circleForm text => "Invalid circle '" ++ text ++ "'. Expected format: lat,lon,meters"
  | .latitude text => "Invalid latitude '" ++ text ++ "'"
  | .longitude text => "Invalid longitude '" ++ text ++ "'"
  | .radius text => "Invalid radius '" ++ text ++ "': expected whole meters"
  | .latitudeRange value => "Latitude " ++ value.toText ++ " is out of range [-90, 90]"
  | .longitudeRange value => "Longitude " ++ value.toText ++ " is out of range [-180, 180]"

/-! ## Whole numbers -/

def int64? (text : String) : Option Int64 :=
  (Text.integer? text.toList).bind fun n =>
    if -0x8000000000000000 ≤ n ∧ n < 0x8000000000000000 then some (Int64.ofInt n) else none

/-- A minus is refused, also in front of zero. -/
def uint32? (text : String) : Option UInt32 :=
  if text.toList.head? = some '-' then none
  else
    (Text.integer? text.toList).bind fun n =>
      if n < 0x100000000 then some (UInt32.ofNat n.toNat) else none

/-! ## Options -/

/-- Blanks around the text are dropped; without a colon the order is ascending. -/
def SortArgument.parse (text : String) : Except ArgumentError SortArgument :=
  let text := Text.trim text
  let (field, direction) := (Text.cutLast? ':' text).getD (text, "asc")
  if field.isEmpty then .error (.emptySortField text)
  else
    let direction := direction.map Char.toLower
    if direction = "asc" then .ok ⟨field, false⟩
    else if direction = "desc" then .ok ⟨field, true⟩
    else .error (.unknownDirection direction)

/-- A number, a boolean or null; any other text is a string. -/
def EqualityArgument.valueOf (text : String) : Json :=
  match Json.parse text with
  | .ok (.number n) => .number n
  | .ok (.bool b) => .bool b
  | .ok .null => .null
  | _ => .string text

/-- Blanks around the field are dropped, those around the value are not. -/
def EqualityArgument.parse (text : String) : Except ArgumentError EqualityArgument :=
  match Text.cut? '=' text with
  | none => .error (.noEquals text)
  | some (field, value) =>
    let field := Text.trim field
    if field.isEmpty then .error (.emptyFilterField text) else .ok ⟨field, valueOf value⟩

/-- All three parts are read before any is checked against its range. -/
def Circle.parse (text : String) : Except ArgumentError Circle :=
  match (Text.pieces ',' text).map Text.trim with
  | [lat, lon, meters] => do
    let latitude ← (Double.ofText? lat).elim (.error (.latitude lat)) .ok
    let longitude ← (Double.ofText? lon).elim (.error (.longitude lon)) .ok
    let meters ← (uint32? meters).elim (.error (.radius meters)) .ok
    if !latitude.isWithin 90 then .error (.latitudeRange latitude)
    else if !longitude.isWithin 180 then .error (.longitudeRange longitude)
    else .ok ⟨latitude, longitude, meters⟩
  | _ => .error (.circleForm text)

end TableQuery
