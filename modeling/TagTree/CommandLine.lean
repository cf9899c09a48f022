import TagTree.Dump
import TagTree.Error.Message
import TagTree.Match

/-!
# Command line

The commands show the records of a database, its version, the name of a tag, and the entry that
matches an executable. The words of a command line are read from left to right, and the first one
that settles the matter does: a call for help, or a word that does not belong there. Where files are
read from is left open.
-/

namespace TagTree.CommandLine

/-- What can be asked for. -/
inductive Command where
  | dump (path : Path)
  | version (path : Path)
  | tagName (text : String)
  | matchFile (database executable : Path)
  deriving DecidableEq, Repr

/-- A command line that has been understood, or why there is nothing to do. -/
inductive Request where
  | run (command : Command)
  | help
  | misuse
  deriving DecidableEq, Repr

/-- A command without its operands. -/
inductive Verb where
  | dump
  | version
  | tagName
  | matchFile
  deriving DecidableEq, Repr

namespace Verb

/-- The word for a command. -/
def ofWord? : String → Option Verb
  | "dump" => some dump
  | "version" => some version
  | "tag-name" => some tagName
  | "match" => some matchFile
  | _ => none

/-- The number of operands. -/
def arity : Verb → Nat
  | dump | version | tagName => 1
  | matchFile => 2

/-- Whether an operand can be one of the command's. A path must not be empty. -/
def accepts (verb : Verb) (operand : String) : Bool :=
  verb == tagName || operand != ""

/-- The command with its operands. -/
def command? : Verb → List String → Option Command
  | dump, [path] => some (.dump (.ofString path))
  | version, [path] => some (.version (.ofString path))
  | tagName, [text] => some (.tagName text)
  | matchFile, [database, executable] =>
      some (.matchFile (.ofString database) (.ofString executable))
  | _, _ => none

end Verb

/-- What the letters of a word of options come to. -/
inductive Options where
  | plain (debug : Bool)
  | help
  | misuse
  deriving DecidableEq, Repr

/-- Read single-letter options. The letter for debugging may be given once; the letters for help and
version end the matter. -/
def readLetters (versionKnown : Bool) : (debug : Bool) → List Char → Options
  | debug, [] => .plain debug
  | debug, 'd' :: rest => if debug then .misuse else readLetters versionKnown true rest
  | _, 'h' :: _ => .help
  | _, 'V' :: _ => if versionKnown then .help else .misuse
  | _, _ :: _ => .misuse

/-- Read a word that may consist of options. A single minus sign is none. -/
def readOptions? (versionKnown debug : Bool) (word : String) : Option Options :=
  match word with
  | "--debug" => some (readLetters versionKnown debug ['d'])
  | "--help" => some .help
  | "--version" => some (readLetters versionKnown debug ['V'])
  | word =>
      match word.toList with
      | '-' :: '-' :: _ => some .misuse
      | '-' :: letter :: letters => some (readLetters versionKnown debug (letter :: letters))
      | _ => none

/-- Read the words after a command. After two minus signs every word is an operand. -/
def readOperands (verb : Verb) :
    (debug literal : Bool) → (operands : List String) → List String → Request
  | _, _, operands, [] => ((verb.command? operands).map Request.run).getD .misuse
  | debug, literal, operands, word :: rest =>
      let asOperand :=
        if operands.length < verb.arity ∧ verb.accepts word then
          readOperands verb debug literal (operands ++ [word]) rest
        else .misuse
      if literal then asOperand
      else if word = "--" then readOperands verb debug true operands rest
      else
        match readOptions? false debug word with
        | some (.plain debug) => readOperands verb debug literal operands rest
        | some .help => .help
        | some .misuse => .misuse
        | none => asOperand

/-- Read the words after the command for help: at most one other command. -/
def readHelp : List String → Request
  | [] => .help
  | [word] => if word = "help" ∨ (Verb.ofWord? word).isSome then .help else .misuse
  | _ => .misuse

/-- Read the words before and with the command. -/
def readWords : (debug : Bool) → List String → Request
  | _, [] => .misuse
  | debug, word :: rest =>
      match readOptions? true debug word with
      | some (.plain debug) => readWords debug rest
      | some .help => .help
      | some .misuse => .misuse
      | none =>
          if word = "help" then readHelp rest
          else
            match Verb.ofWord? word with
            | some verb => readOperands verb false false [] rest
            | none => .misuse

/-- Read the words of a command line. -/
def Request.ofWords (words : List String) : Request :=
  readWords false words

/-- Where the files that are named on a command line come from. -/
structure FileSource (m : Type → Type) where
  read : Path → m (Except FileFault (List UInt8))
  provider : Provider m

/-- What a command line leads to. -/
inductive Outcome where
  | printed (lines : List String)
  | failed (report : String)
  | help
  | misuse
  deriving DecidableEq, Repr

namespace Outcome

/-- The number with which the program ends. -/
def code : Outcome → Nat
  | printed _ => 0
  | failed _ => 1
  | help => 0
  | misuse => 2

/-- What is printed. -/
def output : Outcome → String
  | printed lines => String.join (lines.map (· ++ "\n"))
  | _ => ""

end Outcome

/-- A line for each cause, numbered when there are several. -/
def causeLines (causes : List String) : List String :=
  match causes with
  | [cause] => ["    " ++ cause]
  | causes => causes.mapIdx fun index cause => s!"    {index}: " ++ cause

/-- The report of a failure and its causes. -/
def report (summary : String) (causes : List String) : String :=
  let heading := if causes.isEmpty then [] else ["", "Caused by:"]
  let lines := ["Error: " ++ summary] ++ heading ++ causeLines causes
  String.join (lines.map (· ++ "\n"))

/-- The report of an error and of what it kept from being done. -/
def failure (summary : String) (error : Error) : Outcome :=
  .failed (report summary error.causes)

variable {m : Type → Type} [Monad m]

/-- The bytes of a file, unless it is too large. -/
def readFile (files : FileSource m) (path : Path) : m (Except Error (List UInt8)) := do
  match ← files.read path with
  | .error fault => return .error (.file fault)
  | .ok bytes =>
      if sizeLimit ≤ bytes.length then return .error (.format (.fileTooLarge bytes.length))
      else return .ok bytes

/-- Do something with the database in a file. -/
def withDatabase (files : FileSource m) (path : Path) (use : Database → m Outcome) :
    m Outcome := do
  match (← readFile files path).bind Database.ofBytes with
  | .error error => return failure ("Failed to open database " ++ path.display) error
  | .ok database => use database

/-- Show the version of a database, which need not be a supported one. -/
def showVersion (files : FileSource m) (path : Path) : m Outcome := do
  let header : Except Error Header :=
    match ← files.read path with
    | .error fault => .error (.file fault)
    | .ok bytes => Header.parse (bytes.take Header.size)
  match header with
  | .error error => return failure ("Failed to read header of " ++ path.display) error
  | .ok header => return .printed [s!"{header.major}.{header.minor}"]

/-- Show the name of a tag. -/
def showTagName (text : String) : Outcome :=
  match Tag.parse text with
  | .ok tag => .printed [tag.displayName]
  | .error fault =>
      .failed (report ("Invalid tag " ++ Text.Quoted.ofString text ++ ": " ++ fault.message) [])

/-- Show the entry that matches an executable. To find none is no failure. -/
def showMatch (files : FileSource m) (executable : Path) (database : Database) : m Outcome := do
  match ← database.findMatch files.provider executable with
  | .ok found =>
      let heading :=
        "✅ " ++ executable.display ++ " matched EXE entry at " ++ Numeral.place found.exe
      return .printed (heading :: database.dump found.exe 1)
  | .error error =>
      return .printed ["❌ No match for " ++ executable.display ++ ": " ++ error.message]

/-- Do what a command asks for. -/
def Command.run (files : FileSource m) : Command → m Outcome
  | dump path =>
      withDatabase files path fun database => return .printed (database.dump Image.root 0)
  | version path => showVersion files path
  | tagName text => return showTagName text
  | matchFile database executable => withDatabase files database (showMatch files executable)

/-- Do what the words of a command line ask for. -/
def run (files : FileSource m) (words : List String) : m Outcome :=
  match Request.ofWords words with
  | .run command => command.run files
  | .help => return .help
  | .misuse => return .misuse

/-- The files below a directory. -/
def FileSource.ofDirectory (directory : Directory) : FileSource Id where
  read path := directory.read path
  provider := .ofDirectory directory

end TagTree.CommandLine
