import ComponentDocs.Text.Digit
import ComponentDocs.Text.Raw

/-! The commands of the program, and how they are spelt. Two dashes in front of a name make a long flag, which may be cut
short as long as it stays clear; one dash makes a short flag. -/

namespace ComponentDocs

inductive Command where
  | help
  | misuse
  | publish (folder output : Option RawText)
  | list (path : RawText)
deriving DecidableEq, Repr

namespace CommandLine

/-- Words are read in two ways, of which the later one came with a release of the library that reads them. Both are in
use. They differ in what is joined to a short flag, and in two dashes as the value of a flag. -/
inductive Edition where
  | early
  | late
deriving DecidableEq, Repr

inductive Flag where
  | help
  | output
deriving DecidableEq, Repr

inductive Attachment where
  | nothing
  | assigned (text : RawText)
  | joined (text : RawText)
deriving DecidableEq, Repr

inductive Word where
  | value
  | flag (flag : Flag) (attachment : Attachment)
  | unknown
  | ambiguous
deriving DecidableEq, Repr

def dash : CodePoint := .char '-'

def dashes : RawText := [dash, dash]

def equality : CodePoint := .char '='

def topFlags : List (RawText × Flag) := [("-h", .help), ("--help", .help)]

def publishFlags : List (RawText × Flag) := [("-h", .help), ("--help", .help), ("--output", .output)]

def isLong (name : RawText) : Bool := dashes.isPrefixOf name

def isDigit (point : CodePoint) : Bool := point.satisfies Text.isDigit

/-- `-5` and `-.5` are values and no flags, in the digits of any script. A line feed at the end does not count. -/
def isNegativeNumber : RawText → Bool
  | .char '-' :: rest =>
    let number := if rest.getLast? == some (.char '\n') then rest.dropLast else rest
    let whole := number.takeWhile isDigit
    match number.dropWhile isDigit with
    | [] => whole != []
    | .char '.' :: fraction => fraction != [] && fraction.all isDigit
    | _ => false
  | _ => false

def splitEquals (word : RawText) : RawText × Attachment :=
  match word.dropWhile (· != equality) with
  | [] => (word, .nothing)
  | _ :: rest => (word.takeWhile (· != equality), .assigned rest)

def candidates (flags : List (RawText × Flag)) (word : RawText) : List Word :=
  if isLong word then
    let (name, attachment) := splitEquals word
    (flags.filter fun flag => name.isPrefixOf flag.1).map fun flag => .flag flag.2 attachment
  else
    (flags.filter fun flag => flag.1 == word.take 2).map fun flag => .flag flag.2 (.joined (word.drop 2))

/-- What follows an equality sign. In the early edition the sign makes no difference to a short flag. -/
def Edition.assigned (edition : Edition) (name rest : RawText) : Attachment :=
  if edition = .early ∧ !isLong name then .joined rest else .assigned rest

/-- Only a word that begins with a dash and has more to it can be a flag. -/
def classify (edition : Edition) (flags : List (RawText × Flag)) (word : RawText) : Word :=
  if word.head? ≠ some dash then .value
  else
    match flags.find? fun flag => flag.1 == word with
    | some flag => .flag flag.2 .nothing
    | none =>
      if word.length = 1 then .value
      else
        let (name, attachment) := splitEquals word
        match attachment, flags.find? fun flag => flag.1 == name with
        | .assigned rest, some flag => .flag flag.2 (edition.assigned name rest)
        | _, _ =>
          match candidates flags word with
          | [only] => only
          | _ :: _ :: _ => .ambiguous
          | [] => if isNegativeNumber word || word.contains (.char ' ') then .value else .unknown

/-- Letters joined to the short flag for help are further flags, of which only the same one is known. In the late
edition one that is not known is left aside with all that follows it. -/
def Edition.helpJoined (edition : Edition) : RawText → Command
  | [] => .help
  | letter :: rest =>
    if letter = .char 'h' then if rest.head? = some equality then .misuse else edition.helpJoined rest
    else if edition = .late ∧ letter ≠ dash then .help
    else .misuse

def Edition.helpOr (edition : Edition) : Attachment → Command
  | .nothing => .help
  | .assigned _ => .misuse
  | .joined [] => .misuse
  | .joined letters => edition.helpJoined letters

structure Reading where
  positional : Option RawText
  output : Option RawText
  surplus : Bool
deriving DecidableEq, Repr

def Reading.start : Reading := ⟨none, none, false⟩

def Reading.add (reading : Reading) (value : RawText) : Reading :=
  match reading.positional with
  | none => { reading with positional := some value }
  | some _ => { reading with surplus := true }

/-- The last output that is named counts. In the early edition two dashes leave it open. -/
def Reading.setOutput (edition : Edition) (reading : Reading) (value : RawText) : Reading :=
  { reading with output := if edition = .early ∧ value = dashes then none else some value }

/-- Reads the words of a command. After two dashes every word is a value. `afterValue` says that the word before was the
positional value, to which two dashes may belong. A word that asks for help or makes no sense ends the reading. -/
def readWords (edition : Edition) (flags : List (RawText × Flag)) :
    (afterValue : Bool) → Reading → List RawText → Except Command Reading
  | _, reading, [] => .ok reading
  | afterValue, reading, word :: rest =>
    if word = dashes then
      let belongs := afterValue || reading.positional.isNone
      .ok (rest.foldl Reading.add (if belongs then reading else { reading with surplus := true }))
    else
      match classify edition flags word with
      | .value => readWords edition flags reading.positional.isNone (reading.add word) rest
      | .unknown => readWords edition flags false { reading with surplus := true } rest
      | .ambiguous => .error .misuse
      | .flag .help attachment => .error (edition.helpOr attachment)
      | .flag .output (.assigned value) => readWords edition flags false (reading.setOutput edition value) rest
      | .flag .output (.joined value) => readWords edition flags false (reading.setOutput edition value) rest
      | .flag .output .nothing =>
        match rest with
        | [] => .error .misuse
        | value :: more =>
          if value ≠ dashes ∧ classify edition flags value = .value then
            readWords edition flags false (reading.setOutput edition value) more
          else .error .misuse

def beforeDashes (words : List RawText) : List RawText := words.takeWhile (· != dashes)

def read (edition : Edition) (flags : List (RawText × Flag)) (words : List RawText) : Except Command Reading :=
  if (beforeDashes words).any fun word => classify edition flags word == .ambiguous then .error .misuse
  else readWords edition flags false .start words

def publishCommand (edition : Edition) (words : List RawText) : Command :=
  match read edition publishFlags words with
  | .error command => command
  | .ok reading => if reading.surplus then .misuse else .publish reading.positional reading.output

def listCommand (edition : Edition) (words : List RawText) : Command :=
  match read edition topFlags words with
  | .error command => command
  | .ok reading =>
    match reading.surplus, reading.positional with
    | false, some path => .list path
    | _, _ => .misuse

def commandNamed (edition : Edition) (name : RawText) (words : List RawText) : Command :=
  if name = ("extract" : RawText) then publishCommand edition words
  else if name = ("print_file" : RawText) then listCommand edition words
  else .misuse

/-- Flags in front of the name of the command that are not known spoil the command, unless it asks for help. -/
def commandAfter (edition : Edition) (surplus : Bool) : List RawText → Command
  | [] => if surplus then .misuse else .help
  | word :: rest =>
    if word = dashes then .misuse
    else
      match classify edition topFlags word with
      | .value =>
        match commandNamed edition word rest, surplus with
        | .help, _ => .help
        | command, false => command
        | _, true => .misuse
      | .flag .help attachment => edition.helpOr attachment
      | _ => commandAfter edition true rest

end CommandLine

def Command.ofWords (edition : CommandLine.Edition) (words : List RawText) : Command :=
  CommandLine.commandAfter edition false words

end ComponentDocs
