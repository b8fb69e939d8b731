/-! The arguments of the command line. -/

namespace BoardConfig

/-- How results are shown. -/
inductive Format
  /-- For readers. -/
  | text
  /-- As JSON. -/
  | json
  deriving DecidableEq, Repr

/-- What the command line asks for. -/
inductive Command
  /-- Write every artifact of a profile, or only compare them. -/
  | generate (profile : Option String) (check : Bool) (format : Format)
  /-- List the profiles. -/
  | list
  /-- Show a profile with its derived values. -/
  | describe (id : String) (format : Format)
  /-- Check one profile. -/
  | validate (id : Option String)
  /-- Check every profile. -/
  | validateAll
  deriving DecidableEq, Repr

/-- Why arguments name no command to carry out. -/
inductive Interruption
  /-- They ask for help. -/
  | help
  /-- They ask for the version. -/
  | version
  /-- They do not follow the usage. -/
  | usage
  deriving DecidableEq, Repr

/-- One argument as the command line reads it. -/
inductive Argument
  /-- Two dashes, after which all arguments are words. -/
  | escape
  /-- A long flag or option, with the value that follows an equals sign. -/
  | long (name : String) (value : Option String)
  /-- Short flags behind one dash. -/
  | short (letters : List Char)
  /-- Anything else, also a lone dash. -/
  | word
  deriving DecidableEq, Repr

/-- The reading of one argument. -/
def Argument.ofText (text : String) : Argument :=
  match text.toList with
  | ['-', '-'] => .escape
  | '-' :: '-' :: body =>
    let name := String.ofList (body.takeWhile (· ≠ '='))
    match body.dropWhile (· ≠ '=') with
    | [] => .long name none
    | _ :: value => .long name (some (String.ofList value))
  | ['-'] => .word
  | '-' :: letters => .short letters
  | _ => .word

/-- What one level of the command line understands, besides help and the flags for the log. -/
structure Level where
  /-- Its flags. -/
  flags : List String := []
  /-- Its options, and which values each takes. -/
  options : List (String × (String → Bool)) := []
  /-- The number of words that it takes at most. -/
  words : Nat := 0
  /-- The commands below it. -/
  commands : List String := []
  /-- The commands that it has help for, each with the levels above it. -/
  topics : List (List String) := []
  /-- Whether it tells the version. -/
  version : Bool := false

/-- What one level has found. -/
structure Findings where
  /-- The flags. -/
  flags : List String := []
  /-- The options with their values. -/
  options : List (String × String) := []
  /-- The words, in order. -/
  words : List String := []
  /-- A command below the level, with the arguments behind it. -/
  command : Option (String × List String) := none
  deriving DecidableEq, Repr

/-- The flags that every level understands, which concern the log alone. -/
def logFlags : List String :=
  ["verbose", "quiet"]

/-- The long form of a short flag. -/
def longForm? : Char → Option String
  | 'h' => some "help"
  | 'V' => some "version"
  | 'v' => some "verbose"
  | 'q' => some "quiet"
  | _ => none

namespace Level

/-- Takes a flag, which may stand once. -/
def takeFlag (level : Level) (found : Findings) (name : String) : Except Interruption Findings :=
  if name = "help" then .error .help
  else if name = "version" ∧ level.version then .error .version
  else if name ∈ level.flags ++ logFlags ∧ name ∉ found.flags then
    .ok { found with flags := name :: found.flags }
  else .error .usage

/-- Takes short flags one after the other. -/
def takeLetters (level : Level) : Findings → List Char → Except Interruption Findings
  | found, [] => .ok found
  | found, letter :: rest =>
    match longForm? letter with
    | none => .error .usage
    | some name =>
      match level.takeFlag found name with
      | .error e => .error e
      | .ok found => takeLetters level found rest

/-- Takes an option, which may stand once, with a value that it accepts. -/
def takeOption (found : Findings) (name value : String) (accepts : String → Bool) :
    Except Interruption Findings :=
  if accepts value ∧ (found.options.lookup name).isNone then
    .ok { found with options := (name, value) :: found.options }
  else .error .usage

/-- Takes words, as many as the level has room for. -/
def takeWords (level : Level) (found : Findings) (words : List String) :
    Except Interruption Findings :=
  let words := found.words ++ words
  if words.length ≤ level.words then .ok { found with words } else .error .usage

/-- Reads arguments from left to right, up to a command below the level; the first fault decides. -/
def read (level : Level) : Findings → List String → Except Interruption Findings
  | found, [] => .ok found
  | found, text :: rest =>
    match Argument.ofText text with
    | .escape => level.takeWords found rest
    | .short letters =>
      match level.takeLetters found letters with
      | .error e => .error e
      | .ok found => read level found rest
    | .long name attached =>
      match level.options.lookup name, attached, rest with
      | some accepts, some value, rest =>
        match takeOption found name value accepts with
        | .error e => .error e
        | .ok found => read level found rest
      | some accepts, none, value :: rest =>
        if Argument.ofText value = .word then
          match takeOption found name value accepts with
          | .error e => .error e
          | .ok found => read level found rest
        else .error .usage
      | some _, none, [] => .error .usage
      | none, some _, _ => .error .usage
      | none, none, rest =>
        match level.takeFlag found name with
        | .error e => .error e
        | .ok found => read level found rest
    | .word =>
      if text ∈ level.commands then .ok { found with command := some (text, rest) }
      else if text = "help" ∧ level.topics ≠ [] then
        .error (if rest ∈ level.topics then .help else .usage)
      else
        match level.takeWords found [text] with
        | .error e => .error e
        | .ok found => read level found rest

end Level

/-- The commands that work on profiles. -/
def profileCommands : List String :=
  ["list", "describe", "validate"]

/-- The outermost level. -/
def mainLevel : Level where
  commands := ["generate", "profile"]
  topics := [[], ["generate"], ["profile"], ["help"]] ++
    ("help" :: profileCommands).map fun name => ["profile", name]
  version := true

/-- The level of the commands that work on profiles. -/
def profileLevel : Level where
  commands := profileCommands
  topics := [] :: ("help" :: profileCommands).map fun name => [name]

/-- The format of a name. -/
def Format.ofName? : String → Option Format
  | "text" => some .text
  | "json" => some .json
  | _ => none

/-- The option for the format of results. -/
def formatOption : String × (String → Bool) :=
  ("format", fun name => (Format.ofName? name).isSome)

/-- The level behind `generate`. -/
def generateLevel : Level where
  flags := ["check"]
  options := [("profile", fun _ => true), formatOption]

/-- The level behind `profile describe`. -/
def describeLevel : Level where
  options := [formatOption]
  words := 1

/-- The level behind `profile validate`. -/
def validateLevel : Level where
  flags := ["all"]
  words := 1

namespace Findings

/-- Whether a flag was found. -/
def has (found : Findings) (flag : String) : Bool :=
  flag ∈ found.flags

/-- The format that was asked for. -/
def format (found : Findings) : Format :=
  ((found.options.lookup "format").bind Format.ofName?).getD .text

/-- A result of one level, unless the flags for the log exclude each other. -/
def yield {α : Type} (found : Findings) (result : Except Interruption α) : Except Interruption α :=
  match result with
  | .error e => .error e
  | .ok value => if found.has "verbose" ∧ found.has "quiet" then .error .usage else .ok value

end Findings

namespace Command

/-- Reads the arguments of one level and makes a command of what was found. -/
def readLevel (level : Level) (make : Findings → Except Interruption Command)
    (arguments : List String) : Except Interruption Command :=
  match level.read {} arguments with
  | .error e => .error e
  | .ok found => found.yield (make found)

/-- The command behind `generate`. -/
def ofGenerate (found : Findings) : Except Interruption Command :=
  .ok (.generate (found.options.lookup "profile") (found.has "check") found.format)

/-- The command behind `profile describe`, which needs a profile. -/
def ofDescribe (found : Findings) : Except Interruption Command :=
  match found.words with
  | [] => .error .usage
  | id :: _ => .ok (.describe id found.format)

/-- The command behind `profile validate`, which takes one profile or all. -/
def ofValidate (found : Findings) : Except Interruption Command :=
  match found.has "all", found.words with
  | false, words => .ok (.validate words.head?)
  | true, [] => .ok .validateAll
  | true, _ :: _ => .error .usage

/-- The command behind `profile`, which must be there. -/
def ofProfile (found : Findings) : Except Interruption Command :=
  match found.command with
  | some ("list", rest) => readLevel {} (fun _ => .ok .list) rest
  | some ("describe", rest) => readLevel describeLevel ofDescribe rest
  | some ("validate", rest) => readLevel validateLevel ofValidate rest
  | _ => .error .usage

/-- The command at the outermost level; without one, the active profile's artifacts are written. -/
def ofMain (found : Findings) : Except Interruption Command :=
  match found.command with
  | some ("generate", rest) => readLevel generateLevel ofGenerate rest
  | some ("profile", rest) => readLevel profileLevel ofProfile rest
  | _ => .ok (.generate none false .text)

/-- The command that arguments ask for. -/
def ofArguments (arguments : List String) : Except Interruption Command :=
  readLevel mainLevel ofMain arguments

end Command

end BoardConfig
