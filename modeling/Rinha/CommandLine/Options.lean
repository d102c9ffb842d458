import Rinha.Decimal
import Rinha.Evaluation
import Rinha.Text.Numeral
import Rinha.Text.Quoted

/-!
# The options of the command

The command takes the name of a script and a handful of options.  A long option may be shortened as
long as it stays unambiguous, and takes its value after an equals sign or as the next argument; the
options end at two dashes.  Ambiguous options are refused before anything else is done; then the
arguments act in order, so that a request for help or for the version wins over mistakes further on.

## Main definitions

* `Invocation` -- what the command is asked to do.
* `Answer` -- what it answers to arguments that are no invocation: a text or a refusal.
* `Options.parse` -- reads the arguments.
-/

namespace Rinha

/-- What the command is asked to do. -/
structure Invocation where
  script : String := "source.rinha.json"
  decode : Bool := false
  debug : Bool := false
  maxDepth : Int := defaultMaxDepth
  deriving DecidableEq, Repr, Inhabited

/-- What the command answers to arguments that are no invocation. -/
inductive Answer where
  /-- Show a text and be done. -/
  | display (text : String)
  /-- The arguments are wrong. -/
  | refuse (message : String)
  /-- An option was given a value that reads as the end of the options, hence none. -/
  | lostValue
  deriving DecidableEq, Repr

namespace Options

/-- The summary of the arguments. -/
def usage : String :=
  "usage: rinha [-h] [--decode] [--debug] [--max-depth MAX_DEPTH] [--version]\n" ++
  "             [script]\n"

/-- The text that a request for help shows. -/
def help : String :=
  usage ++
  "\nRinha tree-walking interpreter for JSON-encoded ASTs\n" ++
  "\npositional arguments:\n" ++
  "  script                JSON AST file to execute (default: source.rinha.json)\n" ++
  "\noptions:\n" ++
  "  -h, --help            show this help message and exit\n" ++
  "  --decode              Decode the file and print the node tree instead of\n" ++
  "                        running it\n" ++
  "  --debug               Log evaluation steps to stderr and show source context\n" ++
  "                        on errors\n" ++
  "  --max-depth MAX_DEPTH\n" ++
  "                        Maximum nesting of evaluation steps (default: 10000)\n" ++
  "  --version             show program's version number and exit\n" ++
  "\nExamples:\n" ++
  "  rinha                          # Run ./source.rinha.json\n" ++
  "  rinha fib.rinha.json           # Run a program\n" ++
  "  rinha --decode fib.rinha.json  # Show the decoded tree\n" ++
  "  rinha --debug fib.rinha.json   # Trace evaluation on stderr\n" ++
  "        \n"

/-- The text that a request for the version shows. -/
def version : String := "rinha v0.1.0\n"

/-- The options. -/
inductive Flag where
  | help | decode | debug | maxDepth | version
  deriving DecidableEq, Repr

/-- The spellings of the options. -/
def spellings : List (String × Flag) :=
  [("-h", .help), ("--help", .help), ("--decode", .decode), ("--debug", .debug),
    ("--max-depth", .maxDepth), ("--version", .version)]

/-- The name of an option in messages: all its spellings. -/
def Flag.title (flag : Flag) : String :=
  "/".intercalate ((spellings.filter fun entry => entry.2 == flag).map Prod.fst)

/-- The option of an exact spelling. -/
def spelled? (text : String) : Option Flag :=
  (spellings.find? fun entry => entry.1 == text).map Prod.snd

/-- What an argument is, by its looks. -/
inductive Word where
  /-- A script, or the value of the option before it. -/
  | plain (text : String)
  /-- The end of the options. -/
  | dashes
  /-- An option as it was spelled, with the value attached to it, if any. -/
  | option (flag : Flag) (single : Bool) (attached : Option String)
  /-- An option that does not exist. -/
  | unknown (text : String)
  deriving DecidableEq, Repr

/-- An argument as it was given. -/
structure Argument where
  text : String
  word : Word

/-- A text split at its first equals sign. -/
def splitAtEquals (text : List Char) : Option (List Char × List Char) :=
  match text.dropWhile (· != '=') with
  | _ :: value => some (text.takeWhile (· != '='), value)
  | [] => none

/-- Whether an argument that starts with a dash is a negative number: digits, or a point with digits
after it; a line feed at the end does not count. -/
def isNegativeNumber : List Char → Bool
  | '-' :: rest =>
    let body := if rest.getLast? == some '\n' then rest.dropLast else rest
    let whole := body.takeWhile Text.isDecimalDigit
    match body.dropWhile Text.isDecimalDigit with
    | [] => !whole.isEmpty
    | '.' :: places => !places.isEmpty && places.all Text.isDecimalDigit
    | _ => false
  | _ => false

/-- The options that an argument may be short for, each with the value attached to it. -/
def candidates (text : List Char) : List (String × Word) :=
  match text with
  | '-' :: '-' :: _ =>
    let (stem, attached) := match splitAtEquals text with
      | some (stem, value) => (stem, some (String.ofList value))
      | none => (text, none)
    (spellings.filter fun entry => stem.isPrefixOf entry.1.toList).map fun entry =>
      (entry.1, .option entry.2 false attached)
  | '-' :: letter :: rest =>
    spellings.filterMap fun entry =>
      if entry.1.toList == ['-', letter] then
        some (entry.1, .option entry.2 true (some (String.ofList rest)))
      else if text.isPrefixOf entry.1.toList then some (entry.1, .option entry.2 true none)
      else none
  | _ => []

/-- Whether a spelling has a single dash. -/
def isSingle (spelling : String) : Bool :=
  spelling.toList.drop 1 |>.head? |>.all (· != '-')

/-- What an argument before the end of the options is, or why it cannot be told. -/
def classify (text : String) : Except String Word :=
  let chars := text.toList
  if chars.head? != some '-' || chars.length == 1 then .ok (.plain text)
  else
    match spelled? text with
    | some flag => .ok (.option flag (isSingle text) none)
    | none =>
      let split := (splitAtEquals chars).bind fun (stem, value) =>
        (spelled? (String.ofList stem)).map fun flag =>
          Word.option flag (isSingle text) (some (String.ofList value))
      match split with
      | some word => .ok word
      | none =>
        match candidates chars with
        | [] =>
          if isNegativeNumber chars || chars.contains ' ' then .ok (.plain text)
          else .ok (.unknown text)
        | [(_, word)] => .ok word
        | several =>
          .error ("ambiguous option: " ++ text ++ " could match " ++
            ", ".intercalate (several.map Prod.fst))

/-- What every argument is.  After two dashes all are plain. -/
def classifyAll : List String → Except String (List Argument)
  | [] => .ok []
  | "--" :: rest => .ok (⟨"--", .dashes⟩ :: rest.map fun text => ⟨text, .plain text⟩)
  | text :: rest => do
    let word ← classify text
    return ⟨text, word⟩ :: (← classifyAll rest)

/-- How far the arguments have acted. -/
structure Progress where
  invocation : Invocation := {}
  /-- Whether the last depth that was asked for is one that reads as the end of the options, and
  so is none. -/
  depthLost : Bool := false
  /-- Whether the place of the script has been filled, be it by the default. -/
  settled : Bool := false
  /-- The arguments that nothing took, last first. -/
  leftOver : List String := []

/-- An option may not have a value attached. -/
def unwanted (flag : Flag) (value : String) : Answer :=
  .refuse ("argument " ++ flag.title ++ ": ignored explicit argument " ++ Text.quote value)

/-- An option that takes no value acts; help and version end everything. -/
def act (flag : Flag) (progress : Progress) : Except Answer Progress :=
  match flag with
  | .help => .error (.display help)
  | .version => .error (.display version)
  | .decode => .ok { progress with invocation := { progress.invocation with decode := true } }
  | .debug => .ok { progress with invocation := { progress.invocation with debug := true } }
  | .maxDepth => .ok progress

/-- The depth that a value asks for. -/
def setDepth (value : String) (progress : Progress) : Except Answer Progress :=
  match Text.readInteger? digitLimit value with
  | some depth =>
    .ok { progress with
      depthLost := false, invocation := { progress.invocation with maxDepth := depth } }
  | none =>
    .error (.refuse ("argument " ++ Flag.maxDepth.title ++ ": invalid int value: " ++
      Text.quote value))

/-- A row of one-letter options behind a single dash.  Only the letter of help exists, so the row
either holds nothing else, or is refused from the first other letter on. -/
def actOnRow (progress : Progress) : List Char → Except Answer Progress
  | [] => act .help progress
  | 'h' :: rest => actOnRow progress rest
  | row => .error (unwanted .help (String.ofList row))

/-- The arguments act one after the other. -/
def actAll (progress : Progress) : List Argument → Except Answer Progress
  | [] => .ok progress
  | ⟨_, .option .maxDepth _ (some value)⟩ :: rest =>
    if value == "--" then actAll { progress with depthLost := true } rest
    else do actAll (← setDepth value progress) rest
  | ⟨_, .option .maxDepth _ none⟩ :: ⟨_, .plain value⟩ :: rest => do
    actAll (← setDepth value progress) rest
  | ⟨_, .option .maxDepth _ none⟩ :: _ =>
    .error (.refuse ("argument " ++ Flag.maxDepth.title ++ ": expected one argument"))
  | ⟨_, .option flag single (some value)⟩ :: rest =>
    if single && !value.isEmpty then do actAll (← actOnRow progress value.toList) rest
    else .error (unwanted flag value)
  | ⟨_, .option flag _ none⟩ :: rest => do actAll (← act flag progress) rest
  | ⟨_, .unknown text⟩ :: rest =>
    actAll { progress with leftOver := text :: progress.leftOver } rest
  | ⟨text, .dashes⟩ :: rest =>
    if progress.settled then actAll { progress with leftOver := text :: progress.leftOver } rest
    else
      match rest with
      | ⟨script, _⟩ :: rest =>
        actAll { progress with
          settled := true, invocation := { progress.invocation with script := script } } rest
      | [] => .ok { progress with settled := true }
  | ⟨_, .plain text⟩ :: rest =>
    if progress.settled then actAll { progress with leftOver := text :: progress.leftOver } rest
    else
      let progress := { progress with
        settled := true, invocation := { progress.invocation with script := text } }
      match rest with
      | ⟨_, .dashes⟩ :: rest => actAll progress rest
      | rest => actAll progress rest

/-- What the arguments ask for, or the answer to them. -/
def parse (arguments : List String) : Except Answer Invocation :=
  match classifyAll arguments with
  | .error message => .error (.refuse message)
  | .ok arguments =>
    match actAll {} arguments with
    | .error answer => .error answer
    | .ok progress =>
      if !progress.leftOver.isEmpty then
        .error (.refuse
          ("unrecognized arguments: " ++ " ".intercalate progress.leftOver.reverse))
      else if progress.depthLost then .error .lostValue
      else if progress.invocation.maxDepth < 1 then
        .error (.refuse "--max-depth must be at least 1")
      else .ok progress.invocation

end Options

end Rinha
