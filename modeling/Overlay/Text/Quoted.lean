import Overlay.Text.Extender
import Overlay.Text.Graphic
import Overlay.Text.Radix

/-!
# Quoted text

A text in double quotes in which each character can be told from its neighbours: the quote, the
backslash and the four controls with a short name are escaped by a letter, and a character that is
not graphic or that would attach to the one before it is given by its number. A single quote needs
no escape.
-/

namespace Overlay.Text

/-- How a character is written between the quotes. -/
def quotedChar (c : Char) : List Char :=
  if c = '"' then ['\\', '"']
  else if c = '\\' then ['\\', '\\']
  else if c = '\n' then ['\\', 'n']
  else if c = '\r' then ['\\', 'r']
  else if c = '\t' then ['\\', 't']
  else if c = Char.ofNat 0 then ['\\', '0']
  else if isExtender c || !isGraphic c then
    ['\\', 'u', Char.ofNat 0x7B] ++ Radix.write 16 c.toNat ++ [Char.ofNat 0x7D]
  else [c]

def quoted (s : String) : String :=
  String.ofList ('"' :: s.toList.flatMap quotedChar ++ ['"'])

end Overlay.Text
