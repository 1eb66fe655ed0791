import ChipEight.Yaml.Malformed
import ChipEight.Yaml.Node

namespace ChipEight.Yaml

-- Blocks, which the text only shows by columns, have tokens for their start and end; a key has a
-- token in front. The last token of a text is `textEnd`, or `broken` where it cannot be read on.
inductive Token
  | documentStart
  | documentEnd
  | textEnd
  | blockSequence
  | blockMapping
  | blockEnd
  | openSequence
  | closeSequence
  | openMapping
  | closeMapping
  | entry
  | comma
  | key
  | value
  | scalar (style : Style) (text : String)
  | broken (reason : Malformed)
  deriving DecidableEq

end ChipEight.Yaml
