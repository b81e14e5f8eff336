import TableEngine.Text.Hidden

/-!
# Quoted text

Messages show a text they complain about between double quotes. A double quote, a backslash,
the line and tab characters and NUL have two-character escapes; the other hidden characters
(`TableEngine.Text.isHidden`) are written as their code point, `\u` and the hexadecimal digits
in braces. A single quote is written as it is.
-/

namespace TableEngine.Text

/-- A character between double quotes. -/
def quotedChar (c : Char) : List Char :=
  match c with
  | '"' => ['\\', '"']
  | '\\' => ['\\', '\\']
  | '\n' => ['\\', 'n']
  | '\r' => ['\\', 'r']
  | '\t' => ['\\', 't']
  | '\x00' => ['\\', '0']
  | c =>
    if isHidden c then ['\\', 'u', '\x7b'] ++ Nat.toDigits 16 c.toNat ++ ['\x7d'] else [c]

/-- A text between double quotes. -/
def quoted (s : String) : String :=
  String.ofList ('"' :: s.toList.flatMap quotedChar ++ ['"'])

/-- Quoted texts between square brackets. -/
def quotedList (items : List String) : String :=
  "[" ++ ", ".intercalate (items.map quoted) ++ "]"

end TableEngine.Text
