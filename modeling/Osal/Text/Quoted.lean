import Osal.Text.Hidden

/-!
# Quoted text

A text between double quotes. A quote, a backslash and the common control characters are written
with a backslash and a letter; any other character that does not show by itself is written as its
code point in base sixteen.
-/

namespace Osal.Text

/-- A character as it is written between double quotes. -/
def escapeChar (c : Char) : String :=
  match c with
  | '\x00' => "\\0"
  | '\t' => "\\t"
  | '\r' => "\\r"
  | '\n' => "\\n"
  | '\\' => "\\\\"
  | '\"' => "\\\""
  | c =>
    if isHidden c then "\\u\x7b" ++ String.ofList (Nat.toDigits 16 c.toNat) ++ "\x7d"
    else String.singleton c

/-- A text as it is written between double quotes. -/
def quote (s : String) : String :=
  "\"" ++ String.join (s.toList.map escapeChar) ++ "\""

end Osal.Text
