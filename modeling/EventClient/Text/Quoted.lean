import EventClient.Text.Visible

/-!
Texts as listings show them: in double quotes, with short escapes for the usual control characters
and the code point in braces for every other character that would not be seen.
-/
namespace EventClient.Text

def showChar (c : Char) : String :=
  if c = '\x00' then "\\0"
  else if c = '\t' then "\\t"
  else if c = '\r' then "\\r"
  else if c = '\n' then "\\n"
  else if c = '\\' then "\\\\"
  else if c = '"' then "\\\""
  else if isVisible c then c.toString
  else "\\u\x7b" ++ String.ofList (Nat.toDigits 16 c.toNat) ++ "\x7d"

def quoted (text : String) : String :=
  "\"" ++ String.join (text.toList.map showChar) ++ "\""

end EventClient.Text
