import TypeBridge.Text.Blank
import TypeBridge.Text.Numeral
import TypeBridge.Text.Quoted

/-!
# Arguments

The arguments of the command line. Options may be shortened as long as it is clear which one is meant, and
their values may follow an equals sign. There are two places for other arguments, and the first run of
arguments that are no options fills both of them, even if it is shorter. After `--` nothing is an option.

Limitations: an argument is a text, so that bytes that are none cannot be given; and the width of the
terminal, which the help is fitted to, is the usual one.
-/
namespace TypeBridge.CommandLine

/-! ## Options -/

/-- The options of the program. -/
inductive Flag where
  | help
  | typeMap
  | jobs
  | watch
  deriving DecidableEq, Repr

/-- The names of the options. -/
def flagNames : List (String × Flag) :=
  [("-h", .help), ("--help", .help), ("--type-map", .typeMap), ("--jobs", .jobs), ("--watch", .watch)]

/-- Whether an option has a value. -/
def Flag.takesValue : Flag → Bool
  | .typeMap => true
  | .jobs => true
  | _ => false

/-- All names of an option. -/
def Flag.names (flag : Flag) : String :=
  "/".intercalate ((flagNames.filter (·.2 == flag)).map (·.1))

/-- What the program is asked for, besides help. Mirrors the result of `build_parser`. -/
structure Arguments where
  input : Option String := none
  output : Option String := none
  typeMap : Option String := none
  jobs : Int := 1
  watch : Bool := false
  deriving DecidableEq, Repr

/-- What is wrong with the arguments. -/
inductive UsageFault where
  | ambiguous (argument : String) (names : List String)
  | unusedValue (flag : Flag) (value : String)
  | missingValue (flag : Flag)
  | noNumber (flag : Flag) (value : String)
  | unrecognized (arguments : List String)
  deriving DecidableEq, Repr

/-- What is said about a fault. -/
def UsageFault.message : UsageFault → String
  | .ambiguous argument names =>
    "ambiguous option: " ++ argument ++ " could match " ++ ", ".intercalate names
  | .unusedValue flag value =>
    "argument " ++ flag.names ++ ": ignored explicit argument " ++ Text.quoted value
  | .missingValue flag => "argument " ++ flag.names ++ ": expected one argument"
  | .noNumber flag value =>
    "argument " ++ flag.names ++ ": invalid int value: " ++ Text.quoted value
  | .unrecognized arguments => "unrecognized arguments: " ++ " ".intercalate arguments

/-! ## Words -/

/-- A value that is written together with an option. -/
inductive Attached where
  | none
  | afterEquals (value : String)
  | directly (value : String)
  deriving DecidableEq, Repr

/-- An argument, by what it looks like. -/
inductive Word where
  | value (text : String)
  /-- The mark after which nothing is an option. -/
  | mark
  | option (flag : Flag) (attached : Attached)
  /-- Something that looks like an option and is none. -/
  | unknown (text : String)
  deriving DecidableEq, Repr

/-- How an argument is written that is no option. -/
def Word.text : Word → String
  | .value text => text
  | .mark => "--"
  | .option _ _ => ""
  | .unknown text => text

/-- Whether an argument is an option or looks like one. -/
def Word.isOption : Word → Bool
  | .option _ _ => true
  | .unknown _ => true
  | _ => false

/-- Whether a text consists of digits of any script, one at least. -/
def isDigits (s : List Char) : Bool := !s.isEmpty && s.all fun c => (Text.digitValue? c).isSome

/-- Whether a text after a hyphen makes it a negative number. -/
def isMagnitude (s : List Char) : Bool :=
  let s := if s.getLast? = some '\n' then s.dropLast else s
  match Text.splitFirst '.' s with
  | (whole, none) => isDigits whole
  | (whole, some fraction) => (whole.isEmpty || isDigits whole) && isDigits fraction

/-- The options that an argument may mean that begins with a hyphen and is not the name of one: of an
argument with two hyphens, those whose names begin with it up to an equals sign; of another one, that
whose name are its first two characters. -/
def candidates (s : List Char) : List (String × Word) :=
  match s with
  | '-' :: '-' :: _ =>
    let (name, value) := Text.splitFirst '=' s
    let attached := (value.map fun value => Attached.afterEquals (.ofList value)).getD .none
    (flagNames.filter fun known => name.isPrefixOf known.1.toList).map fun (known, flag) =>
      (known, .option flag attached)
  | _ =>
    (flagNames.filter fun known => known.1.toList == s.take 2).map fun (known, flag) =>
      (known, .option flag (.directly (.ofList (s.drop 2))))

/-- What an argument looks like. -/
def wordOf (argument : String) : Except UsageFault Word :=
  match argument.toList with
  | '-' :: c :: r =>
    let s := '-' :: c :: r
    match flagNames.lookup argument with
    | some flag => .ok (.option flag .none)
    | none =>
      match Text.splitFirst '=' s with
      | (name, some value) =>
        match flagNames.lookup (.ofList name) with
        | some flag => .ok (.option flag (.afterEquals (.ofList value)))
        | none => guess s
      | (_, none) => guess s
  | _ => .ok (.value argument)
where
  guess (s : List Char) : Except UsageFault Word :=
    match candidates s with
    | [(_, word)] => .ok word
    | first :: second :: rest =>
      .error (.ambiguous (.ofList s) ((first :: second :: rest).map (·.1)))
    | [] =>
      if isMagnitude (s.drop 1) || s.contains ' ' then .ok (.value (.ofList s))
      else .ok (.unknown (.ofList s))

/-- What some arguments look like. -/
def wordsOf : List String → Except UsageFault (List Word)
  | [] => .ok []
  | "--" :: rest => .ok (.mark :: rest.map .value)
  | argument :: rest =>
    match wordOf argument with
    | .error fault => .error fault
    | .ok word =>
      match wordsOf rest with
      | .error fault => .error fault
      | .ok words => .ok (word :: words)

/-! ## Places -/

/-- The words for one place from the beginning of some words: one value with the marks around it, or
nothing; and the words after them. The text of the first mark does not count. -/
def takePlace (words : List Word) : Option String × List Word :=
  let marks := words.takeWhile (· == .mark)
  let rest := words.dropWhile (· == .mark)
  let (values, rest) :=
    match rest with
    | .value text :: rest => ([text], rest)
    | rest => ([], rest)
  let after := rest.takeWhile (· == .mark)
  let texts := marks.map Word.text ++ values ++ after.map Word.text
  ((texts.erase "--").head?, rest.dropWhile (· == .mark))

/-! ## Reading -/

/-- What the program is asked for. -/
inductive Request where
  | help
  | run (arguments : Arguments)
  deriving DecidableEq, Repr

/-- What has been read of the arguments. -/
structure Progress where
  arguments : Arguments := {}
  /-- Whether the places for arguments that are no options are filled. -/
  isFilled : Bool := false
  extras : List String := []
  deriving DecidableEq, Repr

/-- The arguments with the value of an option. -/
def setValue (flag : Flag) (value : String) (arguments : Arguments) : Except UsageFault Arguments :=
  match flag with
  | .typeMap => .ok { arguments with typeMap := some value }
  | .jobs =>
    match Text.integer? value.toList with
    | some count => .ok { arguments with jobs := count }
    | none => .error (.noNumber flag value)
  | _ => .ok arguments

/-- The value of an option that has one, and the words after it. -/
def takeValue (flag : Flag) (attached : Attached) (rest : List Word) :
    Except UsageFault (String × List Word) :=
  match attached, rest with
  | .afterEquals value, _ => .ok (value, rest)
  | .directly value, _ => .ok (value, rest)
  | .none, .value value :: rest => .ok (value, rest)
  | .none, _ => .error (.missingValue flag)

/-- Whether an option without a value is written without one. What is written directly after its name is
taken for further options. -/
def checkNoValue (flag : Flag) : Attached → Except UsageFault Unit
  | .none => .ok ()
  | .afterEquals value => .error (.unusedValue flag value)
  | .directly value =>
    if value.startsWith "-" then .error (.unusedValue flag value) else .ok ()

/-- Fills the places for arguments that are no options from the beginning of some words. -/
def fill (progress : Progress) (words : List Word) : Progress × List Word :=
  if progress.isFilled then (progress, words)
  else
    let (input, rest) := takePlace words
    let (output, rest) := takePlace rest
    let arguments := { progress.arguments with input := input, output := output }
    ({ progress with arguments := arguments, isFilled := true }, rest)

/-- Reads some words, in at most as many steps as the number says. -/
def readWords : Nat → Progress → List Word → Except UsageFault Request
  | 0, progress, _ => finish progress []
  | _ + 1, progress, [] => finish progress []
  | steps + 1, progress, word :: rest =>
    match word with
    | .option flag attached =>
      if flag.takesValue then
        match takeValue flag attached rest with
        | .error fault => .error fault
        | .ok (value, rest) =>
          match setValue flag value progress.arguments with
          | .error fault => .error fault
          | .ok arguments => readWords steps { progress with arguments := arguments } rest
      else
        match checkNoValue flag attached with
        | .error fault => .error fault
        | .ok () =>
          if flag = .help then .ok .help
          else
            let arguments := { progress.arguments with watch := true }
            readWords steps { progress with arguments := arguments } rest
    | .unknown text => readWords steps { progress with extras := progress.extras ++ [text] } rest
    | _ =>
      if rest.any Word.isOption then
        if progress.isFilled then
          let skipped := (word :: rest).takeWhile (!·.isOption)
          let left := (word :: rest).dropWhile (!·.isOption)
          readWords steps { progress with extras := progress.extras ++ skipped.map Word.text } left
        else
          let (progress, left) := fill progress (word :: rest)
          readWords steps progress left
      else
        let (progress, left) := fill progress (word :: rest)
        finish progress left
where
  finish (progress : Progress) (left : List Word) : Except UsageFault Request :=
    match progress.extras ++ left.map Word.text with
    | [] => .ok (.run progress.arguments)
    | extras => .error (.unrecognized extras)

/-- What the arguments ask for. Mirrors `build_parser` with `parse_args`. -/
def request (arguments : List String) : Except UsageFault Request :=
  match wordsOf arguments with
  | .error fault => .error fault
  | .ok words => readWords words.length {} words

/-! ## Help -/

/-- The name of the program. -/
def programName : String := "cststypegen"

/-- A line of complaint. -/
def complaint (message : String) : String := programName ++ ": " ++ message

/-- How the program is used. -/
def usage : String :=
  "usage: cststypegen [-h] [--type-map TYPE_MAP] [--jobs JOBS] [--watch]\n" ++
  "                   [input_dir] [output_file]\n"

/-- What the program does and what its arguments mean. -/
def help : String :=
  usage ++ "\n" ++
  "Generate a TypeScript declaration file from C# sources.\n\n" ++
  "positional arguments:\n" ++
  "  input_dir            Directory scanned recursively for *.cs files.\n" ++
  "  output_file          Path of the .d.ts file to write.\n\n" ++
  "options:\n" ++
  "  -h, --help           show this help message and exit\n" ++
  "  --type-map TYPE_MAP  YAML-like file of 'CSharpName: tsType' overrides and\n" ++
  "                       'Name<T>: template' generics.\n" ++
  "  --jobs JOBS          Parse files on this many threads (default: 1).\n" ++
  "  --watch              Regenerate whenever a .cs file under input_dir changes.\n"

/-- What is said about a fault in the arguments. -/
def UsageFault.report (fault : UsageFault) : String :=
  usage ++ programName ++ ": error: " ++ fault.message ++ "\n"

end TypeBridge.CommandLine
