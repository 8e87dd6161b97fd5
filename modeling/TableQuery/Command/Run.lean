import TableQuery.Client.Error
import TableQuery.Command.Line
import TableQuery.Filter.Field
import TableQuery.Query.Read

/-! # Running a command -/

namespace TableQuery

/-- Where the text of a response comes from. -/
inductive Source where
  | input
  | file (path : String)
  deriving DecidableEq, Repr

inductive CommandError where
  | unreadable (source : Source) (why : FileFailure)
  | malformed (kind : ResponseKind) (why : ResponseError)

def CommandError.message : CommandError → String
  | .unreadable .input _ => "Failed to read stdin"
  | .unreadable (.file path) _ => "Failed to read " ++ path
  | .malformed kind _ => "Malformed " ++ kind.name ++ " response"

namespace Arguments

def addSort (q : Query) (s : SortArgument) : Query :=
  if s.descending then q.sortDescending s.field else q.sortAscending s.field

def addEquality (q : Query) (e : EqualityArgument) : Query :=
  Filtered.addFilter q (.predicate ((Field.mk e.field).equal e.value))

/-- The query that the arguments describe; its filters are in the order of the arguments. -/
def query (args : Arguments) : Query :=
  let q := args.search.elim ∅ (Query.search ∅)
  let q := args.limit.elim q q.limit
  let q := args.offset.elim q q.offset
  let q := q.only args.select
  let q := args.sorts.foldl addSort q
  let q := args.within.elim q q.within
  let q := args.equals.foldl addEquality q
  q.includeRowCount args.includeCount

end Arguments

namespace Command

def unlines (lines : List String) : String := String.join (lines.map (· ++ "\n"))

def showQuery (json : Bool) (args : Arguments) : String :=
  let q := args.query
  if args.url then unlines [q.urlQuery]
  else if json then unlines [(Json.ofKeyed (q.requestParams.mapValues .string)).renderIndented]
  else unlines (q.requestParams.entries.map fun (key, value) => key ++ "=" ++ value)

mutual

/-- A value for people to read: nothing is `undefined`, strings have no quotes, and the parts of a
collection are joined. -/
def plainText : Json → String
  | .null => "undefined"
  | .string s => s
  | .array items => String.intercalate ", " (plainItems items)
  | .object members => String.intercalate ", " (plainMembers members)
  | .bool b => (Json.bool b).render
  | .number n => (Json.number n).render

def plainItems : List Json → List String
  | [] => []
  | item :: items => plainText item :: plainItems items

def plainMembers : List (String × Json) → List String
  | [] => []
  | (key, value) :: members => (key ++ "=" ++ plainText value) :: plainMembers members

end

def showSummary (json : Bool) (summary : Members) : String :=
  if json then unlines [(Json.object summary).renderIndented]
  else unlines (summary.map fun (key, value) => key ++ ": " ++ plainText value)

end Command

namespace Invocation

/-- The path names `-`; slashes and single dots after it change nothing. -/
def isInputPath (path : String) : Bool :=
  match Text.pieces '/' path with
  | "-" :: more => more.all fun part => part = "" || part = "."
  | _ => false

/-- A file named `-` is the input. -/
def sourceOf (file : Option String) : Source :=
  match file with
  | some path => if isInputPath path then .input else .file path
  | none => .input

/-- What the command will read. -/
def source? (i : Invocation) : Option Source :=
  match i.command with
  | some (.parse _ file) => some (sourceOf file)
  | _ => none

/-- What the command prints. -/
def run (read : Source → Except FileFailure String) (i : Invocation) : Except CommandError String :=
  match i.command with
  | none => .ok "No command given. Run 'tabula --help' for usage.\n"
  | some (.query args) => .ok (Command.showQuery i.json args)
  | some (.parse kind file) => do
    let source := sourceOf file
    let text ← (read source).mapError (.unreadable source)
    let response ← (kind.parse text).mapError (.malformed kind)
    .ok (Command.showSummary i.json response.summary)

end Invocation

end TableQuery
