import Lox.Text.Digit
import Lox.Text.Quoted

/-!
# Options of the command line

The command line takes options and one file. A long option may be abbreviated to any beginning
that no other option shares; options may stand before and after the file; two hyphens alone end
the options, and whatever follows them counts as a file. One hyphen alone, a negative number, and
text with a space are files and no options.
-/

namespace Lox.CommandLine

/-- The options. -/
inductive Flag where
  | help | tokens | trees | polish
  deriving DecidableEq

namespace Flag

/-- All options. -/
def all : List Flag := [help, tokens, trees, polish]

/-- The long name of an option. -/
def name : Flag → String
  | help => "--help"
  | tokens => "--tokens"
  | trees => "--ast"
  | polish => "--rpn"

/-- The names of an option in messages. -/
def label : Flag → String
  | help => "-h/--help"
  | f => f.name

end Flag

/-- What an argument is on its own. -/
inductive Argument where
  /-- A file, if there is none yet. -/
  | file (text : String)
  | flag (f : Flag)
  /-- An option that takes no value but has one attached. -/
  | valued (f : Flag) (value : String)
  /-- Looks like an option and is none. -/
  | unknown (text : String)
  deriving DecidableEq

/-- What is wrong with a command line. -/
inductive Misuse where
  | ambiguous (text : String) (flags : List Flag)
  | attached (f : Flag) (value : String)
  | unrecognized (arguments : List String)
  deriving DecidableEq

/-- The message for a misuse. -/
def Misuse.message : Misuse → String
  | ambiguous text flags =>
    "ambiguous option: " ++ text ++ " could match " ++ ", ".intercalate (flags.map Flag.name)
  | attached f value =>
    "argument " ++ f.label ++ ": ignored explicit argument " ++ Text.quoted value
  | unrecognized arguments => "unrecognized arguments: " ++ " ".intercalate arguments

/-- Splits at the first equals sign, if there is one. -/
def splitValue (cs : List Char) : List Char × Option String :=
  match cs.dropWhile (· ≠ '=') with
  | [] => (cs, none)
  | _ :: value => (cs.takeWhile (· ≠ '='), some (String.ofList value))

/-- The short option for help once more for each leading `h`. What is left is a value. -/
def repeatedHelp (cs : List Char) : Argument :=
  match cs.dropWhile (· == 'h') with
  | [] => .flag .help
  | value => .valued .help (String.ofList value)

/-- What follows the short option for help in its argument. One equals sign directly after it is
skipped; if nothing follows that sign, the value is empty. -/
def afterShortHelp : List Char → Argument
  | ['='] => .valued .help ""
  | '=' :: rest => repeatedHelp rest
  | rest => repeatedHelp rest

/-- Whether the characters after a hyphen make it a negative number. A newline at the end does not
count. -/
def isNumeral (cs : List Char) : Bool :=
  let cs := if cs.getLast? = some '\n' then cs.dropLast else cs
  match cs.dropWhile Text.isDecimal with
  | [] => cs ≠ []
  | '.' :: fraction => fraction ≠ [] && fraction.all Text.isDecimal
  | _ => false

/-- An argument that starts with a hyphen and names no option. -/
def unnamed (text : List Char) : Argument :=
  if isNumeral (text.drop 1) || ' ' ∈ text then .file (String.ofList text)
  else .unknown (String.ofList text)

/-- Classifies an argument that stands before two hyphens alone. -/
def classify (argument : String) : Except Misuse Argument :=
  match argument.toList with
  | '-' :: '-' :: rest =>
    let (name, value) := splitValue ('-' :: '-' :: rest)
    match Flag.all.filter (name.isPrefixOf ·.name.toList) with
    | [] => .ok (unnamed ('-' :: '-' :: rest))
    | [f] => .ok (match value with
      | none => .flag f
      | some v => .valued f v)
    | flags => .error (.ambiguous argument flags)
  | '-' :: 'h' :: rest => .ok (afterShortHelp rest)
  | '-' :: c :: rest => .ok (unnamed ('-' :: c :: rest))
  | _ => .ok (.file argument)

/-- What a program is asked to show. -/
structure Request where
  tokens : Bool := false
  trees : Bool := false
  polish : Bool := false
  file : Option String := none
  deriving DecidableEq

/-- What a command line asks for. -/
inductive Invocation where
  | help
  | misuse (m : Misuse)
  | request (r : Request)
  deriving DecidableEq

/-- The path of the file that is needed, if one is. -/
def Invocation.path? : Invocation → Option String
  | .request r => r.file
  | _ => none

/-- The state while arguments are taken one by one: the request so far, whether the file's place
is taken, and the arguments that have no place. -/
structure Taken where
  request : Request := {}
  fileTaken : Bool := false
  extras : List String := []
  deriving DecidableEq

namespace Taken

/-- Takes a file, if its place is free. -/
def file (t : Taken) (text : String) : Taken :=
  if t.fileTaken then { t with extras := t.extras ++ [text] }
  else { t with request := { t.request with file := some text }, fileTaken := true }

/-- Sets an option other than help. -/
def set (t : Taken) : Flag → Taken
  | .tokens => { t with request := { t.request with tokens := true } }
  | .trees => { t with request := { t.request with trees := true } }
  | .polish => { t with request := { t.request with polish := true } }
  | .help => t

/-- Takes what follows two hyphens alone. They are dropped if they stand beside the file, on
either side; `afterFile` says that the file was the argument before. -/
def afterHyphens (t : Taken) (afterFile : Bool) (rest : List String) : Taken :=
  if t.fileTaken then
    { t with extras := t.extras ++ (if afterFile then [] else ["--"]) ++ rest }
  else match rest with
    | [] => { t with fileTaken := true }
    | text :: rest => { t.file text with extras := t.extras ++ rest }

/-- What the arguments taken amount to. -/
def finish (t : Taken) : Invocation :=
  if t.extras = [] then .request t.request else .misuse (.unrecognized t.extras)

/-- Takes the classified arguments before two hyphens alone and then the rest. -/
def go (t : Taken) (afterFile : Bool) (separated : Option (List String)) :
    List Argument → Invocation
  | [] => match separated with
    | none => t.finish
    | some rest => (t.afterHyphens afterFile rest).finish
  | .file text :: more => (t.file text).go (!t.fileTaken) separated more
  | .flag .help :: _ => .help
  | .flag f :: more => (t.set f).go false separated more
  | .valued f value :: _ => .misuse (.attached f value)
  | .unknown text :: more =>
    { t with extras := t.extras ++ [text] }.go false separated more

end Taken

/-- What a command line asks for. All arguments are classified before the first takes effect. -/
def Invocation.ofArguments (arguments : List String) : Invocation :=
  let separated := match arguments.dropWhile (· ≠ "--") with
    | [] => none
    | _ :: rest => some rest
  match (arguments.takeWhile (· ≠ "--")).mapM classify with
  | .error m => .misuse m
  | .ok classified => Taken.go {} false separated classified

namespace Invocation

/-! Beginnings of long options, repeated help, and what only looks like an option. -/

example : ofArguments ["--tok=1"] = .misuse (.attached .tokens "1") ∧
    ofArguments ["--=1"] = .misuse (.ambiguous "--=1" Flag.all) := by
  decide +kernel

example : ofArguments ["-hh"] = .help ∧ ofArguments ["-h=h"] = .help ∧
    ofArguments ["-hh=1"] = .misuse (.attached .help "=1") ∧
    ofArguments ["-h="] = .misuse (.attached .help "") := by
  decide +kernel

example : (ofArguments ["-.5"]).path? = some "-.5" ∧ (ofArguments ["-x y"]).path? = some "-x y" ∧
    ofArguments ["-5."] = .misuse (.unrecognized ["-5."]) := by
  decide +kernel

end Invocation

end Lox.CommandLine
