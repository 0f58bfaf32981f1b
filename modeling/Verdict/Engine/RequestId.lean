/-! Request ids that an engine makes up: a fixed word and a number. -/
namespace Verdict.RequestId

/-- What every id starts with that an engine makes up. -/
def stem : String := "auto_request_id_"

/-- The id with this number. -/
def numbered (n : Nat) : String := stem ++ toString n

/-- The greatest number that an id can be read to have, the last of 64 bits. -/
def greatest : Nat := 18446744073709551615

/-- The value of a text of decimal digits, of which there is at least one. -/
def digits? (text : List Char) : Option Nat :=
  if !text.isEmpty && text.all Char.isDigit then
    some (text.foldl (fun n c => n * 10 + (c.toNat - '0'.toNat)) 0)
  else none

/-- The number in an id. It may have a plus sign and leading zeros. -/
def number? (id : String) : Option Nat :=
  if id.startsWith stem then
    let rest := (id.drop stem.length).toString.toList
    let text := if rest.head? = some '+' then rest.tail else rest
    (digits? text).filter (· ≤ greatest)
  else none

end Verdict.RequestId
