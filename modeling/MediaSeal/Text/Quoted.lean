import MediaSeal.Text.Visible

/-!
# Quoted texts

How a text from outside appears within a message: between double quotes, with
quotes and backslashes escaped, and with every character that would not be
seen, or would change what is seen, written by its name or its number.
-/

namespace MediaSeal.Quoted

/-- The digits of a code point, as few as it takes. -/
def number (code : Nat) : List Char := Nat.toDigits 16 code

/-- One character as it is written between quotes. -/
def encodeChar (c : Char) : List Char :=
  match c with
  | '\x00' => ['\\', '0']
  | '\t' => ['\\', 't']
  | '\r' => ['\\', 'r']
  | '\n' => ['\\', 'n']
  | '\\' => ['\\', '\\']
  | '"' => ['\\', '"']
  | c => if Visible.isVisible c then [c] else ['\\', 'u', '\x7b'] ++ number c.toNat ++ ['\x7d']

/-- A text between quotes. -/
def encode (text : String) : String :=
  String.ofList ('"' :: text.toList.flatMap encodeChar ++ ['"'])

end MediaSeal.Quoted
