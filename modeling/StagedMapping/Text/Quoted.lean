import StagedMapping.Text.Printable

/-! Quoted text. `quote` wraps a text in double quotes and escapes what could not be
read back from inside them; an unprintable character becomes `\u` with its code point
in hexadecimal between braces. -/
namespace StagedMapping.Text

/-- The code point of `c` in lowercase hexadecimal, between braces after `\u`. -/
def codePointEscape (c : Char) : List Char :=
  ['\\', 'u', '{'] ++ Nat.toDigits 16 c.toNat ++ ['}']

/-- One character as it stands inside quotes. -/
def escapeChar (c : Char) : List Char :=
  if c = '"' then ['\\', '"']
  else if c = '\\' then ['\\', '\\']
  else if c = '\n' then ['\\', 'n']
  else if c = '\r' then ['\\', 'r']
  else if c = '\t' then ['\\', 't']
  else if c.toNat = 0 then ['\\', '0']
  else if isPrintable c then [c]
  else codePointEscape c

def quoteChars (cs : List Char) : List Char := '"' :: cs.flatMap escapeChar ++ ['"']

/-- The text between double quotes. -/
def quote (s : String) : String := String.ofList (quoteChars s.toList)

end StagedMapping.Text
