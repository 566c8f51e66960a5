import CommandConsole.Text.Hidden

/-!
# CommandConsole.Text.Quoted — texts in quotes, for inspection

`quoted` writes a text so that every character in it can be told apart: quotes, backslashes and
control characters are escaped, and so are blanks, format characters and combining marks, which
would not show.
-/

namespace CommandConsole.Text

/-- A character inside quotes. -/
def quotedChar (c : Char) : List Char :=
  if c = '"' then ['\\', '"']
  else if c = '\\' then ['\\', '\\']
  else if c = '\n' then ['\\', 'n']
  else if c = '\r' then ['\\', 'r']
  else if c = '\t' then ['\\', 't']
  else if c = '\x00' then ['\\', '0']
  else if hidden.contains c then ['\\', 'u', '{'] ++ Nat.toDigits 16 c.toNat ++ ['}']
  else [c]

/-- A text in quotes. -/
def quoted (s : String) : String :=
  String.ofList ('"' :: s.toList.flatMap quotedChar ++ ['"'])

end CommandConsole.Text
