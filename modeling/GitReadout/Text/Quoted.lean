import GitReadout.Text.Unprintable
import GitReadout.Text.Extender

/-!
# Quoted text

Messages show a text between double quotes, so that its ends and its invisible characters can be
seen. Six characters have an escape of their own; what has no printed form, or would be drawn into
the character before it, is written as its code point in hexadecimal.
-/

set_option autoImplicit false

namespace GitReadout.Text

/-- The code point of `c` as a quoted text writes it. -/
def codePointEscape (c : Char) : List Char :=
  ['\\', 'u', '{'] ++ Nat.toDigits 16 c.toNat ++ ['}']

/-- How a quoted text writes `c`. -/
def quoteChar (c : Char) : List Char :=
  match c with
  | '\x00' => ['\\', '0']
  | '\t' => ['\\', 't']
  | '\r' => ['\\', 'r']
  | '\n' => ['\\', 'n']
  | '"' => ['\\', '"']
  | '\\' => ['\\', '\\']
  | c => if isUnprintable c || isExtender c then codePointEscape c else [c]

/-- `s` between double quotes, with everything written out that could not be seen. -/
def quote (s : String) : String :=
  String.ofList ('"' :: s.toList.flatMap quoteChar ++ ['"'])

end GitReadout.Text
