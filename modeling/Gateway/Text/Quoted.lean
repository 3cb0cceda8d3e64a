import Gateway.Text.Printable

/-!
# Quoted text in messages

Messages quote text so that every character in it can be seen: quotation marks and backslashes are
escaped, and so is whatever cannot be shown on its own.
-/

namespace Gateway.Text

/-- The hexadecimal digits of a number, lower case and without leading zeros. -/
def hex (n : Nat) : String := String.ofList (Nat.toDigits 16 n)

/-- A character inside quotation marks. -/
def quoteChar (c : Char) : String :=
  if c = '"' then "\\\""
  else if c = '\\' then "\\\\"
  else if c.toNat = 0 then "\\0"
  else if c = '\t' then "\\t"
  else if c = '\n' then "\\n"
  else if c = '\r' then "\\r"
  else if isPrintable c then c.toString
  else "\\u\x7b" ++ hex c.toNat ++ "\x7d"

/-- Text in quotation marks. -/
def quoted (s : String) : String := "\"" ++ String.join (s.toList.map quoteChar) ++ "\""

/-- A list of quoted texts. -/
def quotedList (ts : List String) : String := "[" ++ ", ".intercalate (ts.map quoted) ++ "]"

end Gateway.Text
