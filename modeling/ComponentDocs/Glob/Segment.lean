import ComponentDocs.Text.Raw

namespace ComponentDocs.Glob

inductive ClassItem where
  | one (point : CodePoint)
  | range (low high : CodePoint)
deriving DecidableEq, Repr

inductive Atom where
  | literal (point : CodePoint)
  | any
  | run
  | oneOf (negated : Bool) (items : List ClassItem)
deriving DecidableEq, Repr

inductive SegmentProblem where
  | loneBackslash
  | openBracket
deriving DecidableEq, Repr

def classItems : RawText → List ClassItem
  | low :: .char '-' :: high :: rest => .range low high :: classItems rest
  | point :: rest => .one point :: classItems rest
  | [] => []

/-- Where the reader of a segment stands. Right after the bracket opens, a mark may negate it; right after that, a
closing bracket is an ordinary character. Characters of a bracket are kept last first. -/
inductive Mode where
  | plain
  | escaped
  | opened
  | negated
  | inside (inverse : Bool) (reversed : RawText)
deriving DecidableEq, Repr

def Mode.step : Mode → CodePoint → Mode × List Atom
  | .plain, .char '\\' => (.escaped, [])
  | .plain, .char '*' => (.plain, [.run])
  | .plain, .char '?' => (.plain, [.any])
  | .plain, .char '[' => (.opened, [])
  | .plain, point => (.plain, [.literal point])
  | .escaped, point => (.plain, [.literal point])
  | .opened, point =>
    if point = .char '!' ∨ point = .char '^' then (.negated, []) else (.inside false [point], [])
  | .negated, point => (.inside true [point], [])
  | .inside inverse reversed, .char ']' => (.plain, [.oneOf inverse (classItems reversed.reverse)])
  | .inside inverse reversed, point => (.inside inverse (point :: reversed), [])

def atomsFrom : Mode → RawText → Except SegmentProblem (List Atom)
  | .plain, [] => .ok []
  | .escaped, [] => .error .loneBackslash
  | _, [] => .error .openBracket
  | mode, point :: rest => do
    let (next, atoms) := mode.step point
    return atoms ++ (← atomsFrom next rest)

def atoms (segment : RawText) : Except SegmentProblem (List Atom) := atomsFrom .plain segment

def ClassItem.holds (point : CodePoint) : ClassItem → Bool
  | .one other => point == other
  | .range low high => low ≤ point && point ≤ high

def ClassItem.isReversed : ClassItem → Bool
  | .one _ => false
  | .range low high => high < low

def isInner (point : CodePoint) : Bool := point != slash

def runs (holds : CodePoint → Bool) : RawText → List RawText
  | [] => [[]]
  | point :: rest => (point :: rest) :: (if holds point then runs holds rest else [])

def single (holds : CodePoint → Bool) : RawText → List RawText
  | [] => []
  | point :: rest => if holds point then [rest] else []

/-- Everything that may be left of a text after an atom. A negated bracket may also stand for a slash. -/
def Atom.rests : Atom → RawText → List RawText
  | .literal point, text => single (· == point) text
  | .any, text => single isInner text
  | .run, text => runs isInner text
  | .oneOf negated items, text => single (fun point => items.any (ClassItem.holds point) != negated) text

end ComponentDocs.Glob
