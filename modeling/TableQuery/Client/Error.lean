import TableQuery.Response.Error

/-! # What can go wrong in a client -/

namespace TableQuery

inductive Method where
  | get
  | post
  deriving DecidableEq, Repr

def Method.name : Method → String
  | .get => "GET"
  | .post => "POST"

/-- Why text could not be read from a file or from the input. -/
inductive FileFailure where
  | notFound
  /-- The bytes are not UTF-8. -/
  | invalidData
  | other (text : String)
  deriving DecidableEq, Repr

def FileFailure.message : FileFailure → String
  | .notFound => "No such file or directory (os error 2)"
  | .invalidData => "stream did not contain valid UTF-8"
  | .other text => text

inductive ClientError where
  | file (why : FileFailure)
  | config (text : String)
  | response (why : ResponseError)
  /-- The server refused the request. -/
  | rejected (url : String) (method : Method) (status : UInt16) (message : String)
  | transport (text : String)
  | emptyBatch

namespace ClientError

def message : ClientError → String
  | .file why => "IO error: " ++ why.message
  | .config text => "Configuration error: " ++ text
  | .response why => why.message
  | .rejected url method status message =>
    method.name ++ " " ++ url ++ " failed with status " ++ toString status.toNat ++ ": " ++ message
  | .transport text => "Transport error: " ++ text
  | .emptyBatch => "No requests queued"

end ClientError

end TableQuery
