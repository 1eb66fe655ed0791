import ChipEight.Text.Glyph
import ChipEight.Text.Numeral

namespace ChipEight.Quoted

def escape : Char → String
  | '"'    => "\\\""
  | '\\'   => "\\\\"
  | '\n'   => "\\n"
  | '\r'   => "\\r"
  | '\t'   => "\\t"
  | '\x00' => "\\0"
  | c      => if hasGlyph c then c.toString else "\\u\x7b" ++ Numeral.lowerHex c.toNat ++ "\x7d"

def encode (s : String) : String :=
  "\"" ++ String.join (s.toList.map escape) ++ "\""

end ChipEight.Quoted
