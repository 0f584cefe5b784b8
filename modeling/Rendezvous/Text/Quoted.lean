import Rendezvous.Text.GraphemeExtend
import Rendezvous.Text.Hex
import Rendezvous.Text.Unprintable

/-!
# Rendezvous.Text.Quoted

**Text in double quotes**, so that every character can be seen: quotes and
backslashes, the usual controls and the null character have two-character escapes,
and what could not be seen by itself is written as its code point. An apostrophe
stands for itself.
-/

namespace Rendezvous

/-- A character as it stands between double quotes. -/
def quotedChar (c : Char) : String :=
  if c = '"' then "\\\""
  else if c = '\\' then "\\\\"
  else if c = '\t' then "\\t"
  else if c = '\n' then "\\n"
  else if c = '\r' then "\\r"
  else if c = '\x00' then "\\0"
  else if isAttached c || isUnprintable c then
    "\\u\x7b" ++ hexText c.toNat ++ "\x7d"
  else
    String.singleton c

/-- A text in double quotes. -/
def quoted (text : String) : String :=
  "\"" ++ String.join (text.toList.map quotedChar) ++ "\""

end Rendezvous
