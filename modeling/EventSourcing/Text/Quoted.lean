import EventSourcing.Numeral
import EventSourcing.Text.Printable

/-!
Quoted text for messages to a reader: the text stands between double quotes, and what would be
ambiguous or invisible there is written as an escape.
-/

namespace EventSourcing.Text

def codePointEscape (c : Char) : List Char :=
  ['\\', 'u', '\x7b'] ++
    (Numeral.digits 16 c.toNat).map (fun d => (Numeral.sign d).toLower) ++ ['\x7d']

def quoteChar (c : Char) : List Char :=
  if c = '\x00' then ['\\', '0']
  else if c = '\t' then ['\\', 't']
  else if c = '\r' then ['\\', 'r']
  else if c = '\n' then ['\\', 'n']
  else if c = '"' then ['\\', '"']
  else if c = '\\' then ['\\', '\\']
  else if isJoining c then codePointEscape c
  else if isPrintable c then [c]
  else codePointEscape c

def quoted (s : String) : String :=
  String.ofList ('"' :: s.toList.flatMap quoteChar ++ ['"'])

end EventSourcing.Text
