import TableQuery.Command.Argument
import TableQuery.Response.Basic

/-! # The command line

An option's value may follow it, or be attached to it. A value that follows is checked when the
next argument is placed, so of two faults the one that is met first wins.
-/

namespace TableQuery

/-- Why the arguments are refused, or that only help or the version is asked for. -/
inductive UsageError where
  /-- A value that its option does not take. -/
  | valueValidation
  /-- A missing value, or one that is not among the listed ones. -/
  | invalidValue
  | unknownArgument
  /-- An option for one use comes twice. -/
  | argumentConflict
  /-- A value for an option that takes none. -/
  | tooManyValues
  | missingRequiredArgument
  | invalidSubcommand
  | displayHelp
  | displayVersion
  deriving DecidableEq, Repr

/-! ## Arguments -/

inductive Argument where
  | search
  | limit
  | offset
  | select
  | sort
  | equal
  | within
  | includeCount
  | url
  | json
  | help
  | version
  /-- Positional: the kind of a response. -/
  | kind
  /-- Positional: the file of a response. -/
  | file
  deriving DecidableEq, Repr

namespace Argument

def long? : Argument → Option String
  | .search => some "search"
  | .limit => some "limit"
  | .offset => some "offset"
  | .select => some "select"
  | .sort => some "sort"
  | .equal => some "eq"
  | .within => some "within"
  | .includeCount => some "include-count"
  | .url => some "url"
  | .json => some "json"
  | .help => some "help"
  | .version => some "version"
  | .kind => none
  | .file => none

def short? : Argument → Option Char
  | .search => some 'q'
  | .limit => some 'l'
  | .offset => some 'o'
  | .select => some 's'
  | .help => some 'h'
  | .version => some 'V'
  | _ => none

def takesValue : Argument → Bool
  | .includeCount => false
  | .url => false
  | .json => false
  | .help => false
  | .version => false
  | _ => true

/-- A value that follows may begin with a hyphen, whatever comes after it. -/
def allowsHyphen (a : Argument) : Bool := a = .within

/-- A value that follows may be a negative number. -/
def allowsNegative (a : Argument) : Bool := a = .limit || a = .offset

end Argument

/-- What the arguments of a command line say. -/
structure Arguments where
  search : Option String := none
  limit : Option Int64 := none
  offset : Option Int64 := none
  select : List String := []
  sorts : List SortArgument := []
  equals : List EqualityArgument := []
  within : Option Circle := none
  includeCount : Bool := false
  url : Bool := false
  json : Bool := false
  kind : Option ResponseKind := none
  file : Option String := none

namespace Arguments

def check {α : Type} : Except ArgumentError α → Except UsageError α :=
  Except.mapError fun _ => .valueValidation

/-- Sets an argument for one use. -/
def once {α : Type} (old : Option α) (value : Except UsageError α) : Except UsageError (Option α) :=
  if old.isSome then .error .argumentConflict else value.map some

def raise (old : Bool) : Except UsageError Bool :=
  if old then .error .argumentConflict else .ok true

def number (text : String) : Except UsageError Int64 :=
  (int64? text).elim (.error .valueValidation) .ok

def kindNamed (text : String) : Except UsageError ResponseKind :=
  (ResponseKind.ofName? text).elim (.error .invalidValue) .ok

/-- Takes note of an argument with its value. -/
def accept (args : Arguments) (a : Argument) (value : String) : Except UsageError Arguments :=
  match a with
  | .search => (once args.search (.ok value)).map fun v => { args with search := v }
  | .limit => (once args.limit (number value)).map fun v => { args with limit := v }
  | .offset => (once args.offset (number value)).map fun v => { args with offset := v }
  | .select => .ok { args with select := args.select ++ Text.pieces ',' value }
  | .sort =>
    (check (SortArgument.parse value)).map fun v => { args with sorts := args.sorts ++ [v] }
  | .equal =>
    (check (EqualityArgument.parse value)).map fun v => { args with equals := args.equals ++ [v] }
  | .within =>
    (once args.within (check (Circle.parse value))).map fun v => { args with within := v }
  | .kind => (once args.kind (kindNamed value)).map fun v => { args with kind := v }
  | .file =>
    (once args.file (if value.isEmpty then .error .invalidValue else .ok value)).map
      fun v => { args with file := v }
  | _ => .error .tooManyValues

/-- Takes note of an argument without a value. -/
def acceptFlag (args : Arguments) (a : Argument) : Except UsageError Arguments :=
  match a with
  | .includeCount => (raise args.includeCount).map fun b => { args with includeCount := b }
  | .url => (raise args.url).map fun b => { args with url := b }
  | .json => (raise args.json).map fun b => { args with json := b }
  | .help => .error .displayHelp
  | .version => .error .displayVersion
  | _ => .error .invalidValue

end Arguments

/-! ## Walking over the arguments -/

/-- What a command understands. -/
structure Grammar where
  options : List Argument
  positionals : List Argument
  subcommands : List String

structure Walk where
  args : Arguments
  /-- An argument whose value, if it came, is not checked yet. -/
  pending : Option (Argument × Option String) := none
  positionals : List Argument
  /-- After `--` no argument is an option. -/
  positionalOnly : Bool := false

namespace Walk

/-- Checks what is pending. -/
def settle (w : Walk) : Except UsageError Walk :=
  match w.pending with
  | none => .ok w
  | some (_, none) => .error .invalidValue
  | some (a, some value) => (w.args.accept a value).map fun args => { w with args, pending := none }

/-- The option that waits for its value. -/
def awaiting? (w : Walk) : Option Argument :=
  match w.pending with
  | some (a, none) => some a
  | _ => none

def acceptFlag (w : Walk) (a : Argument) : Except UsageError Walk := do
  let w ← w.settle
  (w.args.acceptFlag a).map fun args => { w with args }

def acceptAttached (w : Walk) (a : Argument) (value : String) : Except UsageError Walk := do
  let w ← w.settle
  (w.args.accept a value).map fun args => { w with args }

def await (w : Walk) (a : Argument) : Except UsageError Walk :=
  w.settle.map fun w => { w with pending := some (a, none) }

/-- `--name` or `--name=value`, without the hyphens. -/
def long (g : Grammar) (w : Walk) (body : String) : Except UsageError Walk :=
  let (name, value?) :=
    match Text.cut? '=' body with
    | some (name, value) => (name, some value)
    | none => (body, none)
  match g.options.find? (·.long? = some name), value? with
  | none, _ => .error .unknownArgument
  | some a, some value => if a.takesValue then w.acceptAttached a value else .error .tooManyValues
  | some a, none => if a.takesValue then w.await a else w.acceptFlag a

/-- Options of one letter in one argument: flags, and at the end an option that takes the rest. -/
def short (g : Grammar) (w : Walk) : List Char → Except UsageError Walk
  | [] => .ok w
  | c :: rest =>
    match g.options.find? (·.short? = some c) with
    | none => .error .unknownArgument
    | some a =>
      if a.takesValue then
        match rest with
        | [] => w.await a
        | '=' :: value => w.acceptAttached a (String.ofList value)
        | value => w.acceptAttached a (String.ofList value)
      else (w.acceptFlag a).bind fun w => short g w rest

/-- Digits with at most one point and one exponent, neither of them first. -/
def isNumber (cs : List Char) : Bool :=
  let whole := cs.takeWhile Char.isDigit
  let rest := cs.dropWhile Char.isDigit
  let (hasPoint, rest) :=
    match rest with
    | '.' :: more => (true, more.dropWhile Char.isDigit)
    | _ => (false, rest)
  let isExponent :=
    match rest with
    | [] => true
    | c :: digits => (c = 'e' || c = 'E') && !digits.isEmpty && digits.all Char.isDigit
  isExponent && (!whole.isEmpty || (!hasPoint && rest.isEmpty))

/-- A positional argument, or one too many. -/
def positional (g : Grammar) (w : Walk) (text : String) : Except UsageError Walk :=
  match w.positionals with
  | a :: more =>
    w.settle.map fun w => { w with pending := some (a, some text), positionals := more }
  | [] =>
    if g.subcommands.isEmpty || (w.positionalOnly && g.subcommands.contains text) then
      .error .unknownArgument
    else .error .invalidSubcommand

def isHyphenValue (w : Walk) (cs : List Char) : Bool :=
  w.awaiting?.any fun a =>
    a.allowsHyphen || (a.allowsNegative && cs.head? = some '-' && isNumber (cs.drop 1))

def step (g : Grammar) (w : Walk) (text : String) : Except UsageError Walk :=
  if w.positionalOnly then w.positional g text
  else
    match w.isHyphenValue text.toList, text.toList with
    | false, ['-', '-'] => .ok { w with positionalOnly := true }
    | false, '-' :: '-' :: body => w.long g (String.ofList body)
    | false, '-' :: c :: body => w.short g (c :: body)
    | _, _ =>
      match w.awaiting? with
      | some a => .ok { w with pending := some (a, some text) }
      | none => w.positional g text

/-- Walks up to a subcommand, and gives its name and the arguments after it. -/
def run (g : Grammar) (w : Walk) :
    List String → Except UsageError (Arguments × Option (String × List String))
  | [] => w.settle.map fun w => (w.args, none)
  | text :: rest =>
    if !w.positionalOnly && g.subcommands.contains text then
      w.settle.map fun w => (w.args, some (text, rest))
    else (w.step g text).bind fun w => run g w rest

end Walk

def Grammar.read (g : Grammar) (args : Arguments) (line : List String) :
    Except UsageError (Arguments × Option (String × List String)) :=
  Walk.run g ⟨args, none, g.positionals, false⟩ line

/-! ## Commands -/

def mainGrammar : Grammar := ⟨[.json, .help, .version], [], ["query", "parse", "help"]⟩

def queryGrammar : Grammar :=
  ⟨[.search, .limit, .offset, .select, .sort, .equal, .within, .includeCount, .url, .json, .help,
    .version], [], []⟩

def parseGrammar : Grammar := ⟨[.json, .help, .version], [.kind, .file], []⟩

inductive Command where
  /-- Shows the parameters of a query. -/
  | query (args : Arguments)
  /-- Shows what a response holds; without a file the response is read from the input. -/
  | parse (kind : ResponseKind) (file : Option String)

structure Invocation where
  json : Bool
  command : Option Command

namespace Invocation

/-- Help names at most one command. -/
def help (names : List String) : UsageError :=
  match names with
  | [] => .displayHelp
  | [name] => if mainGrammar.subcommands.contains name then .displayHelp else .invalidSubcommand
  | _ => .invalidSubcommand

/-- Reads a command line; `json` may stand in front of the command and after it. -/
def ofLine (line : List String) : Except UsageError Invocation := do
  match ← mainGrammar.read {} line with
  | (args, none) => .ok ⟨args.json, none⟩
  | (outer, some ("query", rest)) =>
    let (args, _) ← queryGrammar.read {} rest
    .ok ⟨outer.json || args.json, some (.query args)⟩
  | (outer, some ("parse", rest)) =>
    let (args, _) ← parseGrammar.read {} rest
    match args.kind with
    | some kind => .ok ⟨outer.json || args.json, some (.parse kind args.file)⟩
    | none => .error .missingRequiredArgument
  | (_, some (_, rest)) => .error (help rest)

end Invocation

end TableQuery
