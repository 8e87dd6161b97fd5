import TableQuery.Json.Token

/-! # Reading JSON text

A reader walks over the tokens with a stack of the containers that are open. It goes wrong at the
first token that cannot stand where it does.
-/

namespace TableQuery.Json

/-- How many containers may be open at once. -/
def maxNesting : Nat := 127

/-- An open container: the items read, the last one first, or the members read and the key whose
value comes next. -/
inductive Frame where
  | items (read : List Json)
  | members (read : List (String × Json)) (key : String)

/-- What may come next. -/
inductive Reader where
  | value (outer : List Frame)
  | firstItem (outer : List Frame)
  | firstKey (outer : List Frame)
  | nextKey (outer : List Frame) (read : List (String × Json))
  | colon (outer : List Frame) (read : List (String × Json)) (key : String)
  | after (outer : List Frame) (value : Json)

namespace Reader

/-- Begins a value with a token. -/
def beginValue (outer : List Frame) : Token → Except Failure Reader
  | .null => .ok (.after outer .null)
  | .bool b => .ok (.after outer (.bool b))
  | .number n => .ok (.after outer (.number n))
  | .string s => .ok (.after outer (.string s))
  | .openArray => if outer.length < maxNesting then .ok (.firstItem outer) else .error .malformed
  | .openObject => if outer.length < maxNesting then .ok (.firstKey outer) else .error .malformed
  | .broken _ why => .error why
  | _ => .error .malformed

def beginKey (outer : List Frame) (read : List (String × Json)) : Token → Except Failure Reader
  | .string s => .ok (.colon outer read s)
  | .broken true why => .error why
  | _ => .error .malformed

def step : Reader → Token → Except Failure Reader
  | .value outer, token => beginValue outer token
  | .firstItem outer, .closeArray => .ok (.after outer (.array []))
  | .firstItem outer, token => beginValue (.items [] :: outer) token
  | .firstKey outer, .closeObject => .ok (.after outer (.object []))
  | .firstKey outer, token => beginKey outer [] token
  | .nextKey outer read, token => beginKey outer read token
  | .colon outer read key, .colon => .ok (.value (.members read key :: outer))
  | .after (.items read :: outer) v, .comma => .ok (.value (.items (v :: read) :: outer))
  | .after (.items read :: outer) v, .closeArray => .ok (.after outer (.array (v :: read).reverse))
  | .after (.members read key :: outer) v, .comma =>
    .ok (.nextKey outer (Entries.insert key v read))
  | .after (.members read key :: outer) v, .closeObject =>
    .ok (.after outer (.object (Entries.insert key v read)))
  | _, _ => .error .malformed

def run (reader : Reader) : List Token → Except Failure Reader
  | [] => .ok reader
  | token :: tokens => (reader.step token).bind fun next => run next tokens

end Reader

def ofTokens (tokens : List Token) : Except Failure Json :=
  (Reader.run (.value []) tokens).bind fun
    | .after [] v => .ok v
    | _ => .error .incomplete

/-- Reads a text that holds one value and blanks around it. -/
def parse (text : String) : Except Failure Json := ofTokens (tokenize text.toList)

end TableQuery.Json
