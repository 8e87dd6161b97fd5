import TableQuery.Client.Error
import TableQuery.Url

/-! # Calls and transports -/

namespace TableQuery

structure Call where
  method : Method
  path : String
  params : RequestParams
  deriving DecidableEq

/-- Answers a call with a body or an error; the answer may depend on the calls before it. -/
abbrev Transport := (earlier : List Call) → Call → Except ClientError String

/-- An answer that is given to every call of a path. -/
inductive Canned where
  | body (text : String)
  | rejection (status : UInt16) (message : String)

/-- Answers from a list; a path that is not in it is not found. -/
def Transport.canned (replies : Keyed Canned) : Transport := fun _ call =>
  let reject (status : UInt16) (message : String) : Except ClientError String :=
    .error (.rejected (Url.withQuery call.path call.params) call.method status message)
  match replies.get? call.path with
  | some (.body text) => .ok text
  | some (.rejection status message) => reject status message
  | none => reject 404 "no canned response"

end TableQuery
