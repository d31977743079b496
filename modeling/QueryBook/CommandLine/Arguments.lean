import QueryBook.Text.Digit
import QueryBook.Text.Literal

/-!
# Command line arguments

The command takes one input file and a few options. An option may stand before or after the input;
a long one may be cut short as long as it stays unambiguous, and may have its value attached
behind an equals sign; several short ones may share a dash, the last of them with its value
attached. Behind a double dash nothing is an option, and a double dash attached as a value leaves
an empty value. Something that looks like a negative number, or has a space in it, is not taken
for an unknown option.

Words are classified first, all of them, and then used one after another; the first fault counts.
A request for help is answered as soon as it is reached.
-/

namespace QueryBook.CommandLine

/-- The options. -/
inductive Flag where
  | help | output | strict | noTests | verbose
deriving DecidableEq, Repr

namespace Flag

/-- All options. -/
def all : List Flag := [help, output, strict, noTests, verbose]

/-- The spellings of an option. -/
def spellings : Flag → List String
  | help => ["-h", "--help"]
  | output => ["-o", "--output"]
  | strict => ["--strict"]
  | noTests => ["--no-tests"]
  | verbose => ["-v", "--verbose"]

/-- Whether the option takes a value. -/
def takesValue : Flag → Bool
  | output => true
  | _ => false

/-- The option as errors mention it. -/
def title (f : Flag) : String := String.intercalate "/" f.spellings

/-- All spellings with their options. -/
def table : List (String × Flag) := all.flatMap fun f => f.spellings.map fun s => (s, f)

/-- The option of a spelling. -/
def ofSpelling? (s : String) : Option Flag := table.lookup s

end Flag

/-- A word of the command line. -/
inductive Word where
  | plain (text : String)
  /-- The double dash. -/
  | divider
  /-- An option, spelled with one dash or two, and the text attached to it. -/
  | flag (f : Flag) (short : Bool) (attached : Option (List Char))
  /-- Looks like an option and is none. -/
  | unknown (text : String)
deriving DecidableEq, Repr

/-- The options chosen. -/
structure Options where
  input : String
  output : Option String
  strict : Bool
  noTests : Bool
  verbose : Bool
deriving DecidableEq, Repr

/-- What the command line asks for. -/
inductive Request where
  | compile (options : Options)
  | help
  /-- The command line makes no sense. -/
  | misuse (complaint : String)
deriving DecidableEq, Repr

/-! ## Classification -/

/-- A whole number or a decimal fraction behind a dash, possibly with a line feed at its end. -/
def isNegativeNumber (cs : List Char) : Bool :=
  match cs with
  | '-' :: digits =>
    let digits := if digits.getLast? = some '\n' then digits.dropLast else digits
    let whole := digits.takeWhile Text.isDecimalDigit
    match digits.drop whole.length with
    | [] => !whole.isEmpty
    | '.' :: fraction => !fraction.isEmpty && fraction.all Text.isDecimalDigit
    | _ => false
  | _ => false

/-- A text up to its first equals sign, and what follows that sign if there is one. -/
def splitEquals (cs : List Char) : List Char × Option (List Char) :=
  let before := cs.takeWhile (· != '=')
  match cs.drop before.length with
  | [] => (before, none)
  | _ :: after => (before, some after)

/-- The readings of a word as an option that is cut short or has a text attached. -/
def readings (cs : List Char) : List (String × Word) :=
  match cs with
  | '-' :: '-' :: _ =>
    let (before, after) := splitEquals cs
    (Flag.table.filter fun e => before.isPrefixOf e.1.toList).map fun e =>
      (e.1, .flag e.2 false after)
  | '-' :: c :: text =>
    match Flag.ofSpelling? (.ofList ['-', c]) with
    | some f => [(.ofList ['-', c], .flag f true (some text))]
    | none => []
  | _ => []

/-- Whether a spelling has a single dash. -/
def isShort (cs : List Char) : Bool := cs.take 2 != ['-', '-']

/-- Classifies a word that is not behind the double dash. -/
def classifyWord (text : String) : Except String Word :=
  let cs := text.toList
  if cs.head? ≠ some '-' then .ok (.plain text)
  else match Flag.ofSpelling? text with
  | some f => .ok (.flag f (isShort cs) none)
  | none =>
    if cs.length = 1 then .ok (.plain text)
    else
      let (before, after) := splitEquals cs
      match after, Flag.ofSpelling? (.ofList before) with
      | some text, some f => .ok (.flag f (isShort cs) (some text))
      | _, _ =>
        match readings cs with
        | [(_, word)] => .ok word
        | [] =>
          if isNegativeNumber cs || cs.contains ' ' then .ok (.plain text)
          else .ok (.unknown text)
        | several =>
          let matching := String.intercalate ", " (several.map Prod.fst)
          .error s!"ambiguous option: {text} could match {matching}"

/-- Classifies all words. -/
def classify : List String → Except String (List Word)
  | [] => .ok []
  | text :: rest =>
    if text = "--" then .ok (.divider :: rest.map .plain)
    else do
      let word ← classifyWord text
      let words ← classify rest
      pure (word :: words)

/-! ## Use -/

/-- The options chosen so far, and the words that have no use. -/
structure Choice where
  input : Option String := none
  output : Option String := none
  strict : Bool := false
  noTests : Bool := false
  verbose : Bool := false
  extras : List String := []
deriving DecidableEq, Repr

/-- A word that has no use. -/
def Choice.extra (c : Choice) (text : String) : Choice := { c with extras := c.extras ++ [text] }

/-- What short options that share a dash come to. -/
structure Cluster where
  /-- The options without a value, in order. -/
  flags : List Flag
  /-- The value attached to the last option, if that takes one: nothing if the value is the next
  word. -/
  value : Option (Option String)
deriving DecidableEq, Repr

/-- An option used wrongly. -/
def wrongUse (f : Flag) (complaint : String) : String := s!"argument {f.title}: {complaint}"

/-- A text attached to an option that takes none. -/
def ignored (f : Flag) (text : List Char) : String :=
  let shown := Text.literal (.ofList text)
  wrongUse f s!"ignored explicit argument {shown}"

/-- The value that an attached text stands for. A double dash alone is a divider even there, and
nothing is left of it. -/
def attachedValue (text : List Char) : String :=
  if text = ['-', '-'] then "" else .ofList text

/-- An option that has nothing attached. -/
def bare (f : Flag) : Cluster :=
  if f.takesValue then { flags := [], value := some none } else { flags := [f], value := none }

/-- Reads an option with a text attached: its value if it takes one, otherwise more short options
if it is short itself. An equals sign between short options is a character like any other. -/
def cluster (short : Bool) (f : Flag) (text : List Char) : Except String Cluster :=
  if f.takesValue then .ok { flags := [], value := some (some (attachedValue text)) }
  else
    match short, text with
    | true, c :: rest =>
      match Flag.ofSpelling? (.ofList ['-', c]) with
      | none => .error (ignored f text)
      | some g =>
        let others := if rest.isEmpty then .ok (bare g) else cluster short g rest
        others.map fun k => { k with flags := f :: k.flags }
    | _, _ => .error (ignored f text)

/-- Reads an option. -/
def clusterOf (f : Flag) (short : Bool) : Option (List Char) → Except String Cluster
  | some text => cluster short f text
  | none => .ok (bare f)

/-- Uses an option without a value. -/
def Choice.use (c : Choice) : Flag → Choice
  | .strict => { c with strict := true }
  | .noTests => { c with noTests := true }
  | .verbose => { c with verbose := true }
  | .help | .output => c

/-- What the choice comes to when there are no more words. -/
def Choice.request (c : Choice) : Request :=
  match c.input with
  | none => .misuse "the following arguments are required: input"
  | some input =>
    if c.extras.isEmpty then
      .compile
        { input, output := c.output, strict := c.strict, noTests := c.noTests,
          verbose := c.verbose }
    else
      let words := String.intercalate " " c.extras
      .misuse s!"unrecognized arguments: {words}"

/-- What the last word left open. -/
inductive Pending where
  | nothing
  /-- The input was just given; a double dash behind it goes with it. -/
  | input
  /-- The next word is the value of the output, and then these options are used. -/
  | value (flags : List Flag)
deriving DecidableEq, Repr

/-- An option that lacks its value. -/
def noValue : Request := .misuse (wrongUse .output "expected one argument")

/-- Uses the words one after another. -/
def useWords (c : Choice) (pending : Pending) : List Word → Request
  | [] =>
    match pending with
    | .value _ => noValue
    | _ => c.request
  | word :: rest =>
    match pending, word with
    | .value flags, .plain value =>
      if flags.contains .help then .help
      else useWords { flags.foldl Choice.use c with output := some value } .nothing rest
    | .value _, _ => noValue
    | .input, .divider => useWords c .nothing rest
    | _, .divider => useWords (if c.input.isSome then c.extra "--" else c) .nothing rest
    | _, .plain text =>
      if c.input.isSome then useWords (c.extra text) .nothing rest
      else useWords { c with input := some text } .input rest
    | _, .unknown text => useWords (c.extra text) .nothing rest
    | _, .flag f short attached =>
      match clusterOf f short attached with
      | .error complaint => .misuse complaint
      | .ok k =>
        match k.value with
        | some none => useWords c (.value k.flags) rest
        | value =>
          if k.flags.contains .help then .help
          else
            let used := k.flags.foldl Choice.use c
            useWords { used with output := value.getD used.output } .nothing rest

/-- What a command line asks for. -/
def Request.ofArguments (arguments : List String) : Request :=
  match classify arguments with
  | .ok words => useWords {} .nothing words
  | .error complaint => .misuse complaint

/-! ## Texts -/

/-- How the command is used. -/
def usage : String := "usage: sqlfn [-h] [-o OUTPUT] [--strict] [--no-tests] [-v] input\n"

/-- The text behind a request for help. -/
def helpText : String :=
  usage ++
  "\n" ++
  "Compile named SQL query declarations into a typed Python module.\n" ++
  "\n" ++
  "positional arguments:\n" ++
  "  input                 DSL file with query declarations\n" ++
  "\n" ++
  "options:\n" ++
  "  -h, --help            show this help message and exit\n" ++
  "  -o OUTPUT, --output OUTPUT\n" ++
  "                        file to write the generated module to (default:\n" ++
  "                        stdout)\n" ++
  "  --strict              reject :name placeholders that match no parameter in\n" ++
  "                        named queries\n" ++
  "  --no-tests            do not generate test setup routines or entry points\n" ++
  "  -v, --verbose         enable debug logging\n"

/-- The text for a command line that makes no sense. -/
def misuseText (complaint : String) : String := usage ++ s!"sqlfn: error: {complaint}\n"

end QueryBook.CommandLine
