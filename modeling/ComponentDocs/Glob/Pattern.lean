import ComponentDocs.Glob.Segment

/-! Patterns for paths, written as in a list of ignored files. -/

namespace ComponentDocs.Glob

open Text (splitAt dropEndWhile)

inductive Step where
  | atom (one : Atom)
  | segment
  | slash
  | leading
  | between
  | finish
deriving DecidableEq, Repr

inductive Test where
  | present
  | nested
  | steps (inOrder : List Step)
deriving DecidableEq, Repr

structure Pattern where
  negated : Bool
  test : Test
deriving DecidableEq, Repr

inductive BadPattern where
  | noSegment
  | loneBackslash
  | reversedRange
deriving DecidableEq, Repr

/-- A line feed ends the reach of the steps that stand for any number of segments. -/
def isSameLine (point : CodePoint) : Bool := point != .char '\n'

def afterSlash (text : RawText) : List RawText :=
  ((single isSameLine text).flatMap (runs isSameLine)).flatMap (single (· == slash))

def isEnd (text : RawText) : Bool := text == [] || text == [.char '\n']

def Step.rests : Step → RawText → List RawText
  | .atom one, text => one.rests text
  | .segment, text => (single isInner text).flatMap (runs isInner)
  | .slash, text => single (· == .char '/') text
  | .leading, text => text :: afterSlash text
  | .between, text => text :: ((single (· == .char '/') text).flatMap (single isSameLine)).flatMap (runs isSameLine)
  | .finish, text => if isEnd text then [[]] else single (· == .char '/') text

/-- Steps match a beginning of the path, so what lies below a matching folder matches too. -/
def matchesSteps (steps : List Step) (path : RawText) : Bool :=
  !(steps.foldl (fun texts step => (texts.flatMap step.rests).eraseDups) [path]).isEmpty

def Test.holds (path : RawText) : Test → Bool
  | .present => path.any isSameLine
  | .nested => path.contains slash
  | .steps inOrder => matchesSteps inOrder path

def stars : RawText := [.char '*', .char '*']

/-- The segments of a pattern, and whether it asks for a folder. A pattern of one segment may match at any depth. -/
def normalSegments (text : RawText) : List RawText × Bool :=
  let segments := splitAt slash text
  let folder := segments.getLast? == some []
  let anchored :=
    match segments with
    | [] :: rest => rest
    | [only] => if only = stars then [only] else [stars, only]
    | [first, []] => if first = stars then [first, []] else [stars, first, []]
    | more => more
  let closed := if anchored.getLast? == some [] then anchored.dropLast ++ [stars] else anchored
  (closed, folder)

def collapse : List RawText → List RawText
  | [] => []
  | segment :: rest =>
    match collapse rest with
    | [] => [segment]
    | next :: more => if segment = stars ∧ next = stars then next :: more else segment :: next :: more

def segmentSteps (segment : RawText) : Except SegmentProblem (List Step) :=
  if segment = [.char '*'] then .ok [.segment] else do return (← atoms segment).map .atom

def laterSteps (slash : Bool) : List RawText → Except SegmentProblem (List Step)
  | [] => .ok [.finish]
  | segment :: rest =>
    if segment = stars then
      if rest = [] then .ok [.slash] else do return .between :: (← laterSteps true rest)
    else do
      let own ← segmentSteps segment
      return (if slash then [.slash] else []) ++ own ++ (← laterSteps true rest)

def allSteps : List RawText → Except SegmentProblem (List Step)
  | [] => .ok [.finish]
  | segment :: rest =>
    if segment = stars then do return .leading :: (← laterSteps false rest)
    else do
      let own ← segmentSteps segment
      return own ++ (← laterSteps true rest)

def Step.isReversed : Step → Bool
  | .atom (.oneOf _ items) => items.any ClassItem.isReversed
  | _ => false

/-- The test of a pattern without its negation mark; none if an open bracket leaves it without meaning. A range is
looked at only when all segments are understood. -/
def testOf (text : RawText) : Except BadPattern (Option Test) :=
  let (segments, folder) := normalSegments text
  match collapse segments with
  | [] => .error .noSegment
  | segments =>
    if segments = [stars] then .ok (some (if folder then .nested else .present))
    else if segments = [stars, [.char '*']] then .ok (some .present)
    else if segments = [stars, [.char '*'], stars] then .ok (some .nested)
    else
      match allSteps segments with
      | .ok steps => if steps.any Step.isReversed then .error .reversedRange else .ok (some (.steps steps))
      | .error .openBracket => .ok none
      | .error .loneBackslash => .error .loneBackslash

def dropBlanks (line : RawText) : RawText :=
  if [CodePoint.char '\\', .char ' '].isSuffixOf line then line else dropEndWhile CodePoint.isBlank line

def pattern? (line : RawText) : Except BadPattern (Option Pattern) :=
  match dropBlanks line with
  | [] => .ok none
  | [.char '/'] => .ok none
  | .char '#' :: _ => .ok none
  | .char '!' :: rest => do return (← testOf rest).map fun test => ⟨true, test⟩
  | text => do return (← testOf text).map fun test => ⟨false, test⟩

def patterns (lines : List RawText) : Except BadPattern (List Pattern) := do
  return (← lines.mapM pattern?).filterMap id

/-- The last pattern that matches a path decides. -/
def selects (patterns : List Pattern) (path : RawText) : Bool :=
  match patterns.reverse.find? fun pattern => pattern.test.holds path with
  | some pattern => !pattern.negated
  | none => false

def BadPattern.kind : BadPattern → String
  | .reversedRange => "error"
  | _ => "GitIgnorePatternError"

def compile (lines : List RawText) : Except String (RawText → Bool) :=
  ((patterns lines).map selects).mapError BadPattern.kind

end ComponentDocs.Glob
