/-
# Quoted texts

An error that names a foreign constant quotes it, so that blanks, quotes and characters that
leave no mark can be told apart in a log line.
-/
import RemoteCall.Text.Unseen
import RemoteCall.Text.Hex

namespace RemoteCall.Text

/-- The written form of one character inside quotes. -/
def quotedChar (c : Char) : List Char :=
  if c = '\x00' then ['\\', '0']
  else if c = '\t' then ['\\', 't']
  else if c = '\r' then ['\\', 'r']
  else if c = '\n' then ['\\', 'n']
  else if c = '\\' then ['\\', '\\']
  else if c = '"' then ['\\', '"']
  else if isUnseen c then ['\\', 'u', '\x7b'] ++ hexDigits c.toNat ++ ['\x7d']
  else [c]

/-- A text between double quotes. -/
def quoted (s : String) : String :=
  String.ofList ('"' :: s.toList.flatMap quotedChar ++ ['"'])

end RemoteCall.Text
