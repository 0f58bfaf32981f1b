import Verdict.Toml.Value

/-! Truth values, numbers and dates of a TOML document.

Each is one word. Digits may be set apart by single underscores between two of them; an
integer has no superfluous zero in front and fits in 64 bits, with sign. A date or a time is
checked for the ranges of its parts and for the length of its month. -/
namespace Verdict.Toml.Scalar

def isHexDigit (c : Char) : Bool :=
  c.isDigit || ('a' ≤ c && c ≤ 'f') || ('A' ≤ c && c ≤ 'F')

def isOctalDigit (c : Char) : Bool := '0' ≤ c && c ≤ '7'

def isBinaryDigit (c : Char) : Bool := c = '0' || c = '1'

/-- The value of a hexadecimal digit. -/
def digitValue (c : Char) : Nat :=
  if c.isDigit then c.toNat - '0'.toNat
  else if 'a' ≤ c then c.toNat - 'a'.toNat + 10
  else c.toNat - 'A'.toNat + 10

/-- The digits of a word that consists of digits, with an underscore at most between two. -/
def digits? (isDigit : Char → Bool) : List Char → Option (List Char)
  | [] => none
  | [c] => if isDigit c then some [c] else none
  | c :: '_' :: rest => if isDigit c then (digits? isDigit rest).map (c :: ·) else none
  | c :: rest => if isDigit c then (digits? isDigit rest).map (c :: ·) else none

def ofDigits (base : Nat) (ds : List Char) : Nat :=
  ds.foldl (fun n c => n * base + digitValue c) 0

/-- The sign of a word, and the rest. -/
def sign : List Char → Bool × List Char
  | '-' :: rest => (true, rest)
  | '+' :: rest => (false, rest)
  | word => (false, word)

/-- The digits of a decimal number without a sign and without a superfluous zero. -/
def wholeDigits? (word : List Char) : Option (List Char) :=
  match digits? Char.isDigit word with
  | some ('0' :: _ :: _) => none
  | ds => ds

def inRange (n : Int) : Bool := -9223372036854775808 ≤ n && n ≤ 9223372036854775807

def integer? (word : List Char) : Option Int :=
  let unsigned? : Option Int :=
    match word with
    | '0' :: 'x' :: rest => (digits? isHexDigit rest).map fun ds => ofDigits 16 ds
    | '0' :: 'o' :: rest => (digits? isOctalDigit rest).map fun ds => ofDigits 8 ds
    | '0' :: 'b' :: rest => (digits? isBinaryDigit rest).map fun ds => ofDigits 2 ds
    | _ =>
      let (negative, rest) := sign word
      (wholeDigits? rest).map fun ds => if negative then -(ofDigits 10 ds : Int) else ofDigits 10 ds
  unsigned?.filter inRange

/-- Whether the decimal `n · 10^e` is too large for a double-precision number. `n` has
`places` digits. -/
def overflows (n places : Nat) (e : Int) : Bool :=
  if n = 0 then false
  else if 400 < places + e then true
  else if places + e < 300 then false
  else
    let least := Nat.pow 2 1024 - Nat.pow 2 970
    if 0 ≤ e then least ≤ n * Nat.pow 10 e.toNat else least * Nat.pow 10 (-e).toNat ≤ n

/-- Splits a word at the first character that satisfies `p`; `none` where none does. -/
def splitAt? (p : Char → Bool) (word : List Char) : List Char × Option (List Char) :=
  match word.dropWhile fun c => !p c with
  | [] => (word, none)
  | _ :: rest => (word.takeWhile fun c => !p c, some rest)

/-- Whether a word is a fractional number: whole digits, and then a fraction or an exponent
or both, or one of the words for infinity and for what is no number. A positive number that
is too large is refused. -/
def isFloat (word : List Char) : Bool :=
  let (negative, unsigned) := sign word
  if unsigned = ['i', 'n', 'f'] || unsigned = ['n', 'a', 'n'] then true
  else
    let (mantissa, exponent) := splitAt? (fun c => c = 'e' || c = 'E') unsigned
    let (whole, fraction) := splitAt? (· = '.') mantissa
    if exponent.isNone && fraction.isNone then false
    else
      let whole := wholeDigits? whole
      let fraction := fraction.elim (some []) (digits? Char.isDigit)
      let exponent := exponent.elim (some (false, ['0'])) fun word =>
        (digits? Char.isDigit (sign word).2).map fun ds => ((sign word).1, ds)
      match whole, fraction, exponent with
      | some ws, some fs, some (below, es) =>
        let size : Int := ofDigits 10 es
        let ds := (ws ++ fs).dropWhile (· = '0')
        negative ||
          !overflows (ofDigits 10 ds) ds.length ((if below then -size else size) - fs.length)
      | _, _, _ => false

/-- A number of exactly `count` digits at the head of a word, and the rest. -/
def fixed? (count : Nat) (word : List Char) : Option (Nat × List Char) :=
  let ds := word.take count
  if ds.length = count && ds.all Char.isDigit then some (ofDigits 10 ds, word.drop count) else none

def daysIn (year month : Nat) : Nat :=
  if month = 2 then if (year % 4 = 0 && year % 100 ≠ 0) || year % 400 = 0 then 29 else 28
  else if month ∈ [4, 6, 9, 11] then 30
  else 31

/-- What follows the character `c` at the head of a word. -/
def after? (c : Char) : List Char → Option (List Char)
  | d :: rest => if d = c then some rest else none
  | [] => none

/-- What follows a date at the head of a word. -/
def afterDate? (word : List Char) : Option (List Char) := do
  let (year, word) ← fixed? 4 word
  let (month, word) ← fixed? 2 (← after? '-' word)
  let (day, word) ← fixed? 2 (← after? '-' word)
  if 1 ≤ month && month ≤ 12 && 1 ≤ day && day ≤ daysIn year month then some word else none

/-- What follows hours and minutes at the head of a word. -/
def afterMinutes? (word : List Char) : Option (List Char) := do
  let (hour, word) ← fixed? 2 word
  let (minute, word) ← fixed? 2 (← after? ':' word)
  if hour ≤ 23 && minute ≤ 59 then some word else none

/-- What follows a time at the head of a word; a minute may have a leap second. -/
def afterTime? (word : List Char) : Option (List Char) := do
  let (second, word) ← fixed? 2 (← after? ':' (← afterMinutes? word))
  if 60 < second then none
  else match word with
    | '.' :: d :: rest => if d.isDigit then some (rest.dropWhile Char.isDigit) else none
    | _ => some word

/-- Whether a word is an offset from universal time, or nothing. -/
def isOffset : List Char → Bool
  | [] => true
  | ['Z'] | ['z'] => true
  | '+' :: rest | '-' :: rest => afterMinutes? rest = some []
  | _ => false

/-- Whether a word is a time with or without an offset. -/
def isTimeWithOffset (word : List Char) : Bool := (afterTime? word).any isOffset

/-- Whether a word is a date alone. -/
def isPlainDate (word : List Char) : Bool := afterDate? word = some []

/-- Whether a word is a date, a time, or both with a T between them. -/
def isDate (word : List Char) : Bool :=
  match afterDate? word with
  | some [] => true
  | some ('T' :: rest) | some ('t' :: rest) => isTimeWithOffset rest
  | some _ => false
  | none => afterTime? word = some []

/-- The value of a word. -/
def ofWord? (word : List Char) : Option Value :=
  if word = ['t', 'r', 'u', 'e'] then some (.boolean true)
  else if word = ['f', 'a', 'l', 's', 'e'] then some (.boolean false)
  else match integer? word with
    | some n => some (.integer n)
    | none => if isFloat word then some .float else if isDate word then some .date else none

end Verdict.Toml.Scalar
