import Handheld.Text.Hexadecimal

/-!
# Quoted text

Text in double quotes in which quotes, backslashes and characters that show nothing are escaped.
The characters are those of one byte, as titles have no others.
-/
namespace Handheld.Text

/-- Whether a character shows: not a control character, the unbreakable space or the soft hyphen.
-/
def isVisible (c : Char) : Bool :=
  let n := c.toNat
  0x20 ≤ n && n ≤ 0x7e || 0xa1 ≤ n && n != 0xad

def escape (c : Char) : String :=
  match c with
  | '\x00' => "\\0"
  | '\t' => "\\t"
  | '\r' => "\\r"
  | '\n' => "\\n"
  | '"' => "\\\""
  | '\\' => "\\\\"
  | c => if isVisible c then String.singleton c else "\\u\x7b" ++ hexNumber c.toNat ++ "\x7d"

def quoted (text : String) : String :=
  "\"" ++ String.join (text.toList.map escape) ++ "\""

end Handheld.Text
