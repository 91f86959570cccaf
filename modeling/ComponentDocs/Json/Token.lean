import ComponentDocs.Json.Basic
import ComponentDocs.Text.Encoding

namespace ComponentDocs.Json

inductive Token where
  | mark (c : Char)
  | string (value : LooseText)
  | atom (value : Json)

/-- Where the reader of characters stands. What is read of the open token is kept last first. -/
inductive Scanner where
  | between
  | word (reversed : List Char)
  | quoted (reversed : List CodePoint) (high : Option Nat)
  | escaped (reversed : List CodePoint) (high : Option Nat)
  | hex (reversed : List CodePoint) (high : Option Nat) (missing : Nat) (value : Nat)

def digitValue? (c : Char) : Option Nat :=
  if c.isDigit then some (c.toNat - '0'.toNat)
  else if 'a' ≤ c ∧ c ≤ 'f' then some (c.toNat - 'a'.toNat + 10)
  else if 'A' ≤ c ∧ c ≤ 'F' then some (c.toNat - 'A'.toNat + 10)
  else none

def digitsValue (digits : List Char) : Nat :=
  digits.foldl (fun value c => value * 10 + (c.toNat - '0'.toNat)) 0

def maxDigits : Nat := 4300

def exponent? : List Char → Option (Option Int)
  | [] => some none
  | mark :: rest =>
    if mark = 'e' ∨ mark = 'E' then
      let (negative, digits) :=
        match rest with
        | '+' :: digits => (false, digits)
        | '-' :: digits => (true, digits)
        | digits => (false, digits)
      if digits ≠ [] ∧ digits.all Char.isDigit then
        some (some (if negative then -(digitsValue digits : Int) else digitsValue digits))
      else none
    else none

def unsigned? (negative : Bool) (word : List Char) : Option Json :=
  let whole := word.takeWhile Char.isDigit
  let rest := word.dropWhile Char.isDigit
  if whole = [] ∨ (whole.head? = some '0' ∧ whole ≠ ['0']) then none
  else
    match rest with
    | '.' :: tail =>
      let fraction := tail.takeWhile Char.isDigit
      if fraction = [] then none
      else
        (exponent? (tail.dropWhile Char.isDigit)).map fun power =>
          .real (Real.ofDecimal negative (digitsValue (whole ++ fraction)) (power.getD 0 - fraction.length))
    | tail =>
      match exponent? tail with
      | none => none
      | some (some power) => some (.real (Real.ofDecimal negative (digitsValue whole) power))
      | some none =>
        if maxDigits < whole.length then none
        else some (.int (if negative then -(digitsValue whole : Int) else digitsValue whole))

def atom? (word : List Char) : Option Json :=
  match String.ofList word with
  | "null" => some .null
  | "true" => some (.bool true)
  | "false" => some (.bool false)
  | "NaN" => some (.real .undefined)
  | "Infinity" => some (.real (.infinite false))
  | "-Infinity" => some (.real (.infinite true))
  | _ =>
    match word with
    | '-' :: rest => unsigned? true rest
    | _ => unsigned? false word

def isMark (c : Char) : Bool :=
  c = '[' || c = ']' || c = '\x7b' || c = '\x7d' || c = ',' || c = ':'

def isGap (c : Char) : Bool := c = ' ' || c = '\t' || c = '\n' || c = '\r'

def isWordChar (c : Char) : Bool := c.isAlphanum || c = '-' || c = '+' || c = '.'

def settle (reversed : List CodePoint) : Option Nat → List CodePoint
  | none => reversed
  | some code => .surrogate code :: reversed

/-- Adds the code unit of an escape. A high surrogate waits for a low one to be joined with. -/
def addUnit (reversed : List CodePoint) (high : Option Nat) (unit : Nat) : List CodePoint × Option Nat :=
  match high with
  | some first =>
    if Encoding.isLowSurrogate unit then (.char (Encoding.joinSurrogates first unit) :: reversed, none)
    else if Encoding.isHighSurrogate unit then (.surrogate first :: reversed, some unit)
    else (.char (Char.ofNat unit) :: .surrogate first :: reversed, none)
  | none =>
    if Encoding.isHighSurrogate unit then (reversed, some unit)
    else if Encoding.isLowSurrogate unit then (.surrogate unit :: reversed, none)
    else (.char (Char.ofNat unit) :: reversed, none)

def escapeValue? : Char → Option Char
  | '"' => some '"'
  | '\\' => some '\\'
  | '/' => some '/'
  | 'b' => some (Char.ofNat 8)
  | 'f' => some (Char.ofNat 12)
  | 'n' => some '\n'
  | 'r' => some '\r'
  | 't' => some '\t'
  | _ => none

def Scanner.outside (c : Char) : Option (Scanner × List Token) :=
  if isGap c then some (.between, [])
  else if isMark c then some (.between, [.mark c])
  else if c = '"' then some (.quoted [] none, [])
  else if isWordChar c then some (.word [c], [])
  else none

def Scanner.step : Scanner → Char → Option (Scanner × List Token)
  | .between, c => Scanner.outside c
  | .word reversed, c =>
    if isWordChar c then some (.word (c :: reversed), [])
    else do
      let value ← atom? reversed.reverse
      let (next, tokens) ← Scanner.outside c
      return (next, .atom value :: tokens)
  | .quoted reversed high, c =>
    if c = '"' then some (.between, [.string (.ofPoints (settle reversed high).reverse)])
    else if c = '\\' then some (.escaped reversed high, [])
    else if c.toNat < 0x20 then none
    else some (.quoted (.char c :: settle reversed high) none, [])
  | .escaped reversed high, c =>
    if c = 'u' then some (.hex reversed high 4 0, [])
    else (escapeValue? c).map fun value => (.quoted (.char value :: settle reversed high) none, [])
  | .hex reversed high missing value, c => do
    let value := value * 16 + (← digitValue? c)
    if missing ≤ 1 then
      let (reversed, high) := addUnit reversed high value
      return (.quoted reversed high, [])
    else return (.hex reversed high (missing - 1) value, [])

def tokensFrom : Scanner → List Char → Option (List Token)
  | .between, [] => some []
  | .word reversed, [] => (atom? reversed.reverse).map fun value => [.atom value]
  | _, [] => none
  | scanner, c :: rest =>
    match scanner.step c with
    | none => none
    | some (next, tokens) => (tokensFrom next rest).map (tokens ++ ·)

def tokens? (text : List Char) : Option (List Token) := tokensFrom .between text

end ComponentDocs.Json
