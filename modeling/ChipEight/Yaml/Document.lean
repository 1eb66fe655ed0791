import ChipEight.Yaml.Lexer

namespace ChipEight.Yaml

namespace Token

-- The tokens that show that there is no content before them: for the item of a sequence, the item
-- of a sequence under a key, the key or value of a mapping, and the parts of flow collections.
def endsItem : Token → Bool
  | entry | blockEnd => true
  | _                => false

def endsItemUnderKey : Token → Bool
  | entry | key | value | blockEnd => true
  | _                              => false

def endsField : Token → Bool
  | key | value | blockEnd => true
  | _                      => false

def endsPairKey : Token → Bool
  | value | comma | closeSequence => true
  | _                             => false

def endsPairValue : Token → Bool
  | comma | closeSequence => true
  | _                     => false

def endsFlowKey : Token → Bool
  | value | comma | closeMapping => true
  | _                            => false

def endsFlowValue : Token → Bool
  | comma | closeMapping => true
  | _                    => false

end Token

-- What the first tokens stand for, and the tokens after them. After a break there is nothing but
-- the break.
abbrev Parsed (α : Type) := α × List Token

namespace Parsed

def fail (m : Malformed) : Parsed Node :=
  (.broken m, [.broken m])

def failItems (m : Malformed) : Parsed (List Node) :=
  ([.broken m], [.broken m])

def failEntries (m : Malformed) : Parsed (List (Node × Node)) :=
  ([(.broken m, .broken m)], [.broken m])

-- Content may be left out.
def optional (ends : Token → Bool) (read : List Token → Parsed Node) (ts : List Token) :
    Parsed Node :=
  if ts.head?.any ends then (.empty, ts) else read ts

-- A value without a colon is left out.
def optionalValue (ends : Token → Bool) (read : List Token → Parsed Node) :
    List Token → Parsed Node
  | .value :: ts           => optional ends read ts
  | ts@(.broken m :: _)    => (.broken m, ts)
  | ts                     => (.empty, ts)

-- The comma in front of all parts of a flow collection but the first.
def separator (first : Bool) (m : Malformed) (ts : List Token) : List Token :=
  match first, ts with
  | true,  ts             => ts
  | false, .comma :: ts   => ts
  | false, .broken m :: _ => [.broken m]
  | false, _              => [.broken m]

end Parsed

open Parsed

mutual

-- The dashes of a sequence under a key may stand in the column of the key.
def blockNode : Nat → Bool → List Token → Parsed Node
  | 0,        _,        _  => fail .tooDeep
  | fuel + 1, underKey, ts =>
    match ts with
    | .blockSequence :: ts => (blockItems fuel ts).map .sequence id
    | .blockMapping :: ts  => (blockEntries fuel ts).map .mapping id
    | .entry :: _          =>
      if underKey then (itemsUnderKey fuel ts).map .sequence id else fail .noBlockContent
    | ts                   => flowNode fuel .noBlockContent ts

def blockItems : Nat → List Token → Parsed (List Node)
  | 0,        _  => failItems .tooDeep
  | fuel + 1, ts =>
    match ts with
    | .entry :: ts    =>
      let (item, ts) := optional Token.endsItem (blockNode fuel false) ts
      (blockItems fuel ts).map (item :: ·) id
    | .blockEnd :: ts => ([], ts)
    | .broken m :: _  => failItems m
    | _               => failItems .noEntry

def itemsUnderKey : Nat → List Token → Parsed (List Node)
  | 0,        _  => failItems .tooDeep
  | fuel + 1, ts =>
    match ts with
    | .entry :: ts   =>
      let (item, ts) := optional Token.endsItemUnderKey (blockNode fuel false) ts
      (itemsUnderKey fuel ts).map (item :: ·) id
    | .broken m :: _ => failItems m
    | ts             => ([], ts)

def blockEntries : Nat → List Token → Parsed (List (Node × Node))
  | 0,        _  => failEntries .tooDeep
  | fuel + 1, ts =>
    match ts with
    | .key :: ts      =>
      let (key, ts) := optional Token.endsField (blockNode fuel true) ts
      let (value, ts) := optionalValue Token.endsField (blockNode fuel true) ts
      (blockEntries fuel ts).map ((key, value) :: ·) id
    | .blockEnd :: ts => ([], ts)
    | .broken m :: _  => failEntries m
    | _               => failEntries .noKey

def flowNode : Nat → Malformed → List Token → Parsed Node
  | 0,        _, _  => fail .tooDeep
  | fuel + 1, m, ts =>
    match ts with
    | .scalar style s :: ts => (.scalar style s, ts)
    | .openSequence :: ts   => (flowItems fuel true ts).map .sequence id
    | .openMapping :: ts    => (flowEntries fuel true ts).map .mapping id
    | .broken m :: _        => fail m
    | _                     => fail m

-- A key makes a mapping of one entry.
def flowItems : Nat → Bool → List Token → Parsed (List Node)
  | 0,        _,     _  => failItems .tooDeep
  | fuel + 1, first, ts =>
    match ts with
    | .closeSequence :: ts => ([], ts)
    | ts =>
      match separator first .noSequenceEnd ts with
      | .closeSequence :: ts => ([], ts)
      | .broken m :: _       => failItems m
      | .key :: ts           =>
        let (pair, ts) := flowPair fuel ts
        (flowItems fuel false ts).map (.mapping pair :: ·) id
      | ts                   =>
        let (item, ts) := flowNode fuel .noFlowContent ts
        (flowItems fuel false ts).map (item :: ·) id

-- Where the key is left out the token in its place is dropped.
def flowPair : Nat → List Token → Parsed (List (Node × Node))
  | 0,        _  => failEntries .tooDeep
  | fuel + 1, ts =>
    let (key, ts) :=
      if ts.head?.any Token.endsPairKey then (.empty, ts.tail)
      else flowNode fuel .noFlowContent ts
    let (value, ts) := optionalValue Token.endsPairValue (flowNode fuel .noFlowContent) ts
    match ts with
    | .broken m :: _ => (failEntries m).map ((key, value) :: ·) id
    | ts             => ([(key, value)], ts)

-- Without a key in front a node is a key that has no value.
def flowEntries : Nat → Bool → List Token → Parsed (List (Node × Node))
  | 0,        _,     _  => failEntries .tooDeep
  | fuel + 1, first, ts =>
    match ts with
    | .closeMapping :: ts => ([], ts)
    | ts =>
      match separator first .noMappingEnd ts with
      | .closeMapping :: ts => ([], ts)
      | .broken m :: _      => failEntries m
      | .key :: ts          =>
        let (key, ts) := optional Token.endsFlowKey (flowNode fuel .noFlowContent) ts
        let (value, ts) := optionalValue Token.endsFlowValue (flowNode fuel .noFlowContent) ts
        (flowEntries fuel false ts).map ((key, value) :: ·) id
      | ts                  =>
        let (key, ts) := flowNode fuel .noFlowContent ts
        let value := match ts with
          | .broken m :: _ => .broken m
          | _              => .empty
        (flowEntries fuel false ts).map ((key, value) :: ·) id

end

-- What follows the first document.
inductive Sequel
  | nothing
  | documents
  | broken (reason : Malformed)
  deriving DecidableEq

-- The first document of a text, if there is any.
structure Document where
  root?  : Option Node
  sequel : Sequel

namespace Document

-- A marker ends the document, and any number of further ones changes nothing.
def sequelOf : List Token → Sequel
  | .broken m :: _     => .broken m
  | .documentEnd :: ts =>
    if ts.dropWhile (· = .documentEnd) = [.textEnd] then .nothing else .documents
  | ts                 => if ts = [.textEnd] then .nothing else .documents

def rootOf (ts : List Token) : Parsed Node :=
  -- Each call takes a token, or is one of a few before the next one that does.
  blockNode (4 * ts.length + 4) false ts

def ofTokens : List Token → Document
  | .textEnd :: _        => { root? := none, sequel := .nothing }
  | .documentStart :: ts =>
    let endsDocument : Token → Bool := (· ∈ [.documentStart, .documentEnd, .textEnd])
    let (root, ts) := optional endsDocument rootOf ts
    { root? := some root, sequel := sequelOf ts }
  | ts                   =>
    let (root, ts) := rootOf ts
    { root? := some root, sequel := sequelOf ts }

def ofText (s : String) : Document :=
  ofTokens (Token.ofChars s.toList)

end Document
end ChipEight.Yaml
