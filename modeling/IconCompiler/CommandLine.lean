import IconCompiler.Build

/-!
# The command line

Arguments are read from left to right into options, which override what a configuration file says.
The first argument that asks for help or the version, or that is not understood, ends the reading.
-/

namespace IconCompiler.CommandLine

/-- The options that a command line gives. -/
structure Options where
  root : Option String := none
  config : Option String := none
  source : Option String := none
  pattern : Option String := none
  out : Option String := none
  viewBox : Option String := none
  jobs : Option Nat := none
  noClean : Bool := false
  continueOnError : Bool := false
  verbose : Bool := false
  deriving Repr, DecidableEq

/-- What the program says about itself. -/
inductive Topic where
  | usage
  | version
  deriving Repr, DecidableEq

/-- What the user asks for. -/
inductive Request where
  | build (options : Options)
  | info (topic : Topic)
  deriving Repr, DecidableEq

/-- A command line that is not understood. -/
inductive UsageFault where
  | unknownArgument (arg : String)
  | missingValue (name : String)
  | unexpectedValue (name : String)
  | invalidValue (name value : String)
  | repeated (name : String)
  deriving Repr, DecidableEq

/-- The wording of a fault. -/
def UsageFault.message : UsageFault → String
  | .unknownArgument arg => "unexpected argument '" ++ arg ++ "'"
  | .missingValue name => "a value is required for '--" ++ name ++ "'"
  | .unexpectedValue name => "unexpected value for '--" ++ name ++ "'"
  | .invalidValue name value => "invalid value '" ++ value ++ "' for '--" ++ name ++ "'"
  | .repeated name => "the argument '--" ++ name ++ "' cannot be used multiple times"

/-- A switch that can stand on a command line. -/
inductive Switch where
  | root | config | source | pattern | out | viewBox | jobs
  | noClean | continueOnError | verbose
  | help | version
  deriving Repr, DecidableEq

namespace Switch

/-- The long name of a switch. -/
def name : Switch → String
  | root => "root"
  | config => "config"
  | source => "source"
  | pattern => "pattern"
  | out => "out"
  | viewBox => "view-box"
  | jobs => "jobs"
  | noClean => "no-clean"
  | continueOnError => "continue-on-error"
  | verbose => "verbose"
  | help => "help"
  | version => "version"

/-- All switches. -/
def all : List Switch :=
  [root, config, source, pattern, out, viewBox, jobs, noClean, continueOnError, verbose, help,
    version]

/-- The switch with a long name. -/
def ofName? (name : String) : Option Switch :=
  all.find? fun s => s.name = name

/-- The short name of a switch, if it has one. -/
def letter? : Switch → Option Char
  | config => some 'c'
  | out => some 'o'
  | jobs => some 'j'
  | verbose => some 'v'
  | help => some 'h'
  | version => some 'V'
  | _ => none

/-- The switch with a short name. -/
def ofLetter? (c : Char) : Option Switch :=
  all.find? fun s => s.letter? = some c

/-- Whether a switch has a value. -/
def takesValue : Switch → Bool
  | root | config | source | pattern | out | viewBox | jobs => true
  | _ => false

/-- What a switch asks the program to say about itself, if that is what it asks for. -/
def topic? : Switch → Option Topic
  | help => some .usage
  | version => some .version
  | _ => none

/-- What a switch is for. -/
def purpose : Switch → String
  | root => "The project, from which sources and output are seen"
  | config => "A configuration file, whose values the other options override"
  | source => "The directory of the sources [default: source]"
  | pattern => "The pattern of the sources in their directory [default: **/*.svg]"
  | out => "The directory of the output [default: dist]"
  | viewBox => "The view box of the components [default: 0 0 24 24]"
  | jobs => "How many icons may be worked on at a time"
  | noClean => "Leave the sources as they are"
  | continueOnError => "Leave out icons that fail, and list them at the end"
  | verbose => "Accepted; a run reports nothing but failures"
  | help => "Print this text"
  | version => "Print the version"

/-- Whether the value of a switch is a path, which is never without text. -/
def isPath : Switch → Bool
  | root | config | source | out => true
  | _ => false

end Switch

/-- The number of jobs that a value asks for: a whole number from one up to 64 bits, with an
    optional plus sign. -/
def readJobs? (value : String) : Option Nat :=
  let digits := match value.toList with
    | '+' :: cs => cs
    | cs => cs
  if digits.isEmpty || !digits.all Char.isDigit then none
  else
    let n := digits.foldl (fun n c => n * 10 + (c.toNat - '0'.toNat)) 0
    if 1 ≤ n && n < Nat.pow 2 64 then some n else none

namespace Options

/-- Whether a switch was given. -/
def has (o : Options) : Switch → Bool
  | .root => o.root.isSome
  | .config => o.config.isSome
  | .source => o.source.isSome
  | .pattern => o.pattern.isSome
  | .out => o.out.isSome
  | .viewBox => o.viewBox.isSome
  | .jobs => o.jobs.isSome
  | .noClean => o.noClean
  | .continueOnError => o.continueOnError
  | .verbose => o.verbose
  | .help | .version => false

/-- The options with a switch and its value added. -/
def addValue (o : Options) (s : Switch) (value : String) : Except UsageFault Options :=
  if o.has s then .error (.repeated s.name)
  else if s.isPath && value.isEmpty then .error (.missingValue s.name)
  else
    match s with
    | .root => .ok { o with root := some value }
    | .config => .ok { o with config := some value }
    | .source => .ok { o with source := some value }
    | .pattern => .ok { o with pattern := some value }
    | .out => .ok { o with out := some value }
    | .viewBox => .ok { o with viewBox := some value }
    | .jobs =>
      match readJobs? value with
      | some n => .ok { o with jobs := some n }
      | none => .error (.invalidValue s.name value)
    | _ => .error (.unexpectedValue s.name)

/-- The options with a switch without a value added. -/
def addFlag (o : Options) (s : Switch) : Except UsageFault Options :=
  if o.has s then .error (.repeated s.name)
  else
    match s with
    | .noClean => .ok { o with noClean := true }
    | .continueOnError => .ok { o with continueOnError := true }
    | .verbose => .ok { o with verbose := true }
    | _ => .error (.missingValue s.name)

end Options

/-- What the letters behind a single hyphen ask for. -/
inductive Letters where
  /-- All were switches. -/
  | done (o : Options)
  /-- The last one is a switch whose value comes next. -/
  | pending (o : Options) (s : Switch)
  /-- One asks what the program says about itself. -/
  | info (topic : Topic)

/-- Reads the letters behind a single hyphen. The value of a switch may follow its letter, with an
    equals sign between them or without. -/
def readLetters (arg : String) (o : Options) : List Char → Except UsageFault Letters
  | [] => .ok (.done o)
  | c :: cs =>
    match Switch.ofLetter? c with
    | none => .error (.unknownArgument arg)
    | some s =>
      match s.topic? with
      | some topic => .ok (.info topic)
      | none =>
        if s.takesValue then
          match cs with
          | [] => if o.has s then .error (.repeated s.name) else .ok (.pending o s)
          | '=' :: value => (o.addValue s (String.ofList value)).map .done
          | value => (o.addValue s (String.ofList value)).map .done
        else
          match o.addFlag s with
          | .error e => .error e
          | .ok o' => readLetters arg o' cs

/-- The name and the value of a long switch, after its hyphens. -/
def splitLong (cs : List Char) : String × Option String :=
  let name := String.ofList (cs.takeWhile (· ≠ '='))
  match cs.dropWhile (· ≠ '=') with
  | [] => (name, none)
  | _ :: value => (name, some (String.ofList value))

/-- Whether an argument is no value of a switch before it. A single hyphen is one. -/
def looksLikeSwitch (arg : String) : Bool :=
  match arg.toList with
  | '-' :: _ :: _ => true
  | _ => false

/-- Reads arguments; `pending` is a switch whose value comes next. -/
def readArgs (o : Options) (pending : Option Switch) : List String → Except UsageFault Request
  | [] =>
    match pending with
    | some s => .error (.missingValue s.name)
    | none => .ok (.build o)
  | arg :: args =>
    match pending with
    | some s =>
      -- even a switch that asks for the usage does not help here
      if looksLikeSwitch arg then .error (.missingValue s.name)
      else
        match o.addValue s arg with
        | .error e => .error e
        | .ok o' => readArgs o' none args
    | none =>
      match arg.toList with
      | ['-', '-'] =>
        match args with
        | [] => .ok (.build o)
        | extra :: _ => .error (.unknownArgument extra)
      | '-' :: '-' :: cs =>
        match Switch.ofName? (splitLong cs).1, (splitLong cs).2 with
        | none, _ => .error (.unknownArgument arg)
        | some s, some value =>
          if s.takesValue then
            match o.addValue s value with
            | .error e => .error e
            | .ok o' => readArgs o' none args
          else .error (.unexpectedValue s.name)
        | some s, none =>
          match s.topic? with
          | some topic => .ok (.info topic)
          | none =>
            if s.takesValue then
              if o.has s then .error (.repeated s.name) else readArgs o (some s) args
            else
              match o.addFlag s with
              | .error e => .error e
              | .ok o' => readArgs o' none args
      | '-' :: c :: cs =>
        match readLetters arg o (c :: cs) with
        | .error e => .error e
        | .ok (.info topic) => .ok (.info topic)
        | .ok (.done o') => readArgs o' none args
        | .ok (.pending o' s) => readArgs o' (some s) args
      | _ => .error (.unknownArgument arg)

/-- What a command line asks for. -/
def parse (args : List String) : Except UsageFault Request :=
  readArgs {} none args

/-- A configuration with the given options instead of its own values. -/
def Options.override (o : Options) (c : Config) : Config :=
  { root := (o.root.map Path.ofString).getD c.root
    sourceDir := (o.source.map Path.ofString).getD c.sourceDir
    pattern := o.pattern.getD c.pattern
    outDir := (o.out.map Path.ofString).getD c.outDir
    manifest := c.manifest
    viewBox := o.viewBox.getD c.viewBox
    clean := c.clean && !o.noClean
    continueOnError := c.continueOnError || o.continueOnError
    jobs := o.jobs.or c.jobs }

/-- The configuration that options ask for. -/
def Options.toConfig (o : Options) (fs : FileSystem) : Except BuildError Config :=
  match o.config with
  | none => .ok (o.override {})
  | some file =>
    match Config.ofFile fs (.ofString file) with
    | .error e => .error e
    | .ok c => .ok (o.override c)

/-- The lines that say which assets were left out. -/
def failureText (r : Report) : String :=
  toString r.failed ++ " of " ++ toString r.total ++ " icons failed to compile:\n" ++
    String.join (r.failures.map fun f => "  " ++ f.name ++ ": " ++ f.error.message ++ "\n")

/-- The line of the usage that describes a switch. -/
def usageLine (s : Switch) : String :=
  let short := match s.letter? with
    | some c => "-" ++ c.toString ++ ", "
    | none => "    "
  let value := if s.takesValue then " <value>" else ""
  let front := "  " ++ short ++ "--" ++ s.name ++ value
  front ++ "".pushn ' ' (32 - front.length) ++ s.purpose ++ "\n"

/-- What the program says about itself. -/
def Topic.text : Topic → String
  | .usage =>
    "Compile SVG icons into React components\n\nOptions:\n" ++
      String.join (Switch.all.map usageLine)
  | .version => "0.0.1\n"

/-- How a run of the program ends. -/
structure Exit where
  code : Nat
  /-- What the user asked to be told. -/
  output : String := ""
  /-- What went wrong. -/
  message : String := ""
  deriving Repr, DecidableEq

/-- The build that options ask for. -/
def Options.build (o : Options) : Build Report := do
  let config ← Build.ofExcept (o.toConfig (← get).files)
  Build.run config

/-- How a build with the given outcome ends the program. -/
def exitOf : Except BuildError Report → Exit
  | .error e => { code := 1, message := "error: " ++ e.message ++ "\n" }
  | .ok r => if r.hasFailures then { code := 1, message := failureText r } else { code := 0 }

/-- Runs the program: its end, and the session that it leaves. -/
def run (args : List String) (fs : FileSystem) : Exit × Session :=
  match parse args with
  | .error f => ({ code := 2, message := "error: " ++ f.message ++ "\n" }, ⟨fs, []⟩)
  | .ok (.info topic) => ({ code := 0, output := topic.text }, ⟨fs, []⟩)
  | .ok (.build o) =>
    let (outcome, s) := o.build.exec fs
    (exitOf outcome, s)

end IconCompiler.CommandLine
