import Verdict.Text.Shown

/-! A text in double quotes, on one line and in visible characters.

A quote and a backslash get a backslash before them, a tab, a line feed, a carriage return
and a NUL have short forms, and every other character that would not show as it is becomes
its code point in braces. -/
namespace Verdict.Text

/-- A number in hexadecimal digits, without leading zeros. -/
def hexadecimal (n : Nat) : String := String.ofList (Nat.toDigits 16 n)

/-- A character by its code point. -/
def codePoint (c : Char) : String := "\\u\x7b" ++ hexadecimal c.toNat ++ "\x7d"

/-- What stands for a character inside the quotes. -/
def escape (c : Char) : String :=
  if c = '\x00' then "\\0"
  else if c = '\t' then "\\t"
  else if c = '\r' then "\\r"
  else if c = '\n' then "\\n"
  else if c = '\\' then "\\\\"
  else if c = '"' then "\\\""
  else if isShown c then c.toString
  else codePoint c

def quote (s : String) : String :=
  "\"" ++ String.join (s.toList.map escape) ++ "\""

end Verdict.Text
