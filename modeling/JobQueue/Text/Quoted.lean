import JobQueue.Text.Escaped

/-!
# Quoted texts

A text between double quotes as error messages show it. Quotes, backslashes, line breaks and tabs
have short escapes, other characters of the escape table are written by their code point in
hexadecimal, and everything else stands for itself.
-/

namespace JobQueue.Text

/-- The hexadecimal digits of a number, lower case and without leading zeros. -/
def hex (n : Nat) : String := String.ofList (Nat.toDigits 16 n)

/-- One character of a quoted text. -/
def quoteChar (c : Char) : String :=
  match c with
  | '"' => "\\\""
  | '\\' => "\\\\"
  | '\t' => "\\t"
  | '\r' => "\\r"
  | '\n' => "\\n"
  | '\x00' => "\\0"
  | c => if isEscaped c.toNat then "\\u\x7b" ++ hex c.toNat ++ "\x7d" else c.toString

/-- The text between double quotes. -/
def quoted (s : String) : String :=
  "\"" ++ String.join (s.toList.map quoteChar) ++ "\""

end JobQueue.Text
