import TableQuery.Number.Double
import TableQuery.Yaml.Quoted

/-! # Plain YAML text that means something else

Null, booleans and numbers are written plain, so a text that looks like one is not.
-/

namespace TableQuery.Yaml

def nullTag : String := "tag:yaml.org,2002:null"

def boolTag : String := "tag:yaml.org,2002:bool"

def isNull (s : String) : Bool := ["~", "null", "Null", "NULL"].contains s

def bool? (s : String) : Option Bool :=
  if ["true", "True", "TRUE"].contains s then some true
  else if ["false", "False", "FALSE"].contains s then some false
  else none

/-- A number in base sixteen, eight or two, with its mark, that fits 128 bits. -/
def isMarkedInteger (cs : List Char) : Bool :=
  let (negative, body) := Text.takeSign cs
  let numeral :=
    match body with
    | '0' :: 'x' :: digits => numeral? 16 digits
    | '0' :: 'o' :: digits => numeral? 8 digits
    | '0' :: 'b' :: digits => numeral? 2 digits
    | _ => none
  numeral.any fun n => if negative then n ≤ 1 <<< 127 else n < 1 <<< 128

def isDecimalNumber (s : String) : Bool :=
  match Double.ofText? s with
  | some (.finite _) => true
  | _ => false

def isPointWord (s : String) : Bool :=
  [".inf", ".Inf", ".INF", "+.inf", "+.Inf", "+.INF", "-.inf", "-.Inf", "-.INF", ".nan", ".NaN",
   ".NAN"].contains s

/-- Whether the plain text would be null, a boolean or a number. -/
def hasOtherMeaning (s : String) : Bool :=
  s.isEmpty || isNull s || (bool? s).isSome || isMarkedInteger s.toList || isDecimalNumber s ||
    isPointWord s

end TableQuery.Yaml
