namespace ChipEight.Yaml

-- This reader knows comments, plain and quoted scalars, block and flow collections, and document
-- markers. What it does not know is `unsupported`.
inductive Malformed
  | noText
  | controlCharacter
  | mappingKey
  | mappingValue
  | sequenceEntry
  | noKey
  | noEntry
  | noSequenceEnd
  | noMappingEnd
  | noBlockContent
  | noFlowContent
  | noColon
  | openQuote
  | markerInQuote
  | unknownEscape
  | noHexadecimal
  | noCharacter
  | badStart
  | tabIndent
  | badColon
  | unsupported
  | tooDeep
  deriving DecidableEq

namespace Malformed

def reason : Malformed → String
  | noText           => "invalid UTF-8"
  | controlCharacter => "control characters are not allowed"
  | mappingKey       => "mapping keys are not allowed in this context"
  | mappingValue     => "mapping values are not allowed in this context"
  | sequenceEntry    => "block sequence entries are not allowed in this context"
  | noKey            => "did not find expected key, while parsing a block mapping"
  | noEntry          => "did not find expected '-' indicator, while parsing a block collection"
  | noSequenceEnd    => "did not find expected ',' or ']', while parsing a flow sequence"
  | noMappingEnd     => "did not find expected ',' or '\x7d', while parsing a flow mapping"
  | noBlockContent   => "did not find expected node content, while parsing a block node"
  | noFlowContent    => "did not find expected node content, while parsing a flow node"
  | noColon          => "could not find expected ':', while scanning a simple key"
  | openQuote        => "found unexpected end of stream, while scanning a quoted scalar"
  | markerInQuote    => "found unexpected document indicator, while scanning a quoted scalar"
  | unknownEscape    => "found unknown escape character, while parsing a quoted scalar"
  | noHexadecimal    => "did not find expected hexdecimal number, while parsing a quoted scalar"
  | noCharacter      => "found invalid Unicode character escape code, while parsing a quoted scalar"
  | badStart         =>
    "found character that cannot start any token, while scanning for the next token"
  | tabIndent        =>
    "found a tab character that violates indentation, while scanning a plain scalar"
  | badColon         => "found unexpected ':', while scanning a plain scalar"
  | unsupported      => "tags, anchors, directives and block scalars are not supported"
  | tooDeep          => "recursion limit exceeded"

end Malformed
end ChipEight.Yaml
