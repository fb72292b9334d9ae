import PicBoard.Text.Unprintable

/-!
# Quoted texts in messages

A message shows a text it was given between quotes, so that a reader sees where it starts and
ends and what it holds.
-/

namespace PicBoard.Text

/-- The digits of a number in a base, most significant first; zero has one digit. -/
def digitsFrom (base : Nat) : (fuel : Nat) → Nat → List Char → List Char
  | 0, _, tail => tail
  | fuel + 1, n, tail =>
    let tail := Nat.digitChar (n % base) :: tail
    if n / base = 0 then tail else digitsFrom base fuel (n / base) tail

/-- The hexadecimal digits of a number, without leading zeros. -/
def hexDigits (n : Nat) : List Char := digitsFrom 16 (n + 1) n []

/-- How a character stands inside quotes, where `mark` is the quote in use. -/
def quotedCharIn (mark : Char) (c : Char) : List Char :=
  if c = mark ∨ c = '\\' then ['\\', c]
  else if c = '\n' then ['\\', 'n']
  else if c = '\r' then ['\\', 'r']
  else if c = '\t' then ['\\', 't']
  else if c = Char.ofNat 0 then ['\\', '0']
  else if unprintable c then ['\\', 'u', '\x7b'] ++ hexDigits c.toNat ++ ['\x7d']
  else [c]

/-- A text between double quotes, with the quote, the backslash and characters without a glyph
spelled out. -/
def quoted (s : String) : String :=
  String.ofList ('"' :: s.toList.flatMap (quotedCharIn '"') ++ ['"'])

/-- A character between single quotes, spelled out by the same rules. -/
def quotedChar (c : Char) : String :=
  String.ofList ('\'' :: quotedCharIn '\'' c ++ ['\''])

end PicBoard.Text
