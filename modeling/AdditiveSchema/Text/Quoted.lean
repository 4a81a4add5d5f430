import AdditiveSchema.Text.Extending
import AdditiveSchema.Text.Unprintable

/-!
# Quoted text in messages

A message shows a piece of input between double quotes. The quote and the backslash are escaped
with a backslash, tab, carriage return, line feed and the null character have their short forms,
and any other character that is unprintable or would be drawn onto its neighbour is shown by its
code point in hexadecimal.
-/

namespace AdditiveSchema.Text

/-- A code point in braces. -/
def codePoint (c : Char) : List Char :=
  '\\' :: 'u' :: '{' :: (Nat.toDigits 16 c.toNat ++ ['}'])

/-- One character as it is shown inside quotes. -/
def escapeChar (c : Char) : List Char :=
  if c = '"' then ['\\', '"']
  else if c = '\\' then ['\\', '\\']
  else if c = '\t' then ['\\', 't']
  else if c = '\r' then ['\\', 'r']
  else if c = '\n' then ['\\', 'n']
  else if c = '\x00' then ['\\', '0']
  else if isExtending c || isUnprintable c then codePoint c
  else [c]

/-- The text between double quotes, fit to be shown. -/
def quoted (s : String) : String :=
  String.ofList ('"' :: s.toList.flatMap escapeChar ++ ['"'])

end AdditiveSchema.Text
