import ChipEight.Yaml.Spelling
import ChipEight.Yaml.Token

namespace ChipEight.Yaml

-- Whether a scalar or a flow collection is a key only shows at the colon after it, so the token in
-- front of a key is put in late; up to then every token from there on is held back.
--
-- A place where a key may have begun, and the number of the token there. Where a block mapping goes
-- on, there has to be a key.
structure Candidate where
  token    : Nat
  place    : Position
  required : Bool

namespace Candidate

def longest : Nat := 1024

-- Whether there cannot be a colon any more.
def isOver (k : Candidate) (p : Position) : Bool :=
  k.place.line < p.line || k.place.index + longest < p.index

end Candidate

structure Lexer where
  cursor     : Cursor
  -- The tokens so far, the last one in front, and their number.
  tokens     : List Token := []
  count      : Nat := 0
  -- The columns of the open blocks, the innermost one in front.
  blocks     : List Nat := []
  -- The candidate among the parts of the innermost flow collection, or of the block if there is
  -- none.
  key?       : Option Candidate := none
  -- The candidates around, the innermost one in front.
  outer      : List (Option Candidate) := []
  keyAllowed : Bool := true

abbrev Lexing := Except Malformed

namespace Lexer

def place (l : Lexer) : Position :=
  l.cursor.place

def column (l : Lexer) : Nat :=
  l.place.column

def inFlow (l : Lexer) : Bool :=
  !l.outer.isEmpty

def push (l : Lexer) (t : Token) : Lexer :=
  { l with tokens := t :: l.tokens, count := l.count + 1 }

-- In front of the token of that number.
def insert (l : Lexer) (number : Nat) (t : Token) : Lexer :=
  let (later, earlier) := l.tokens.splitAt (l.count - number)
  { l with tokens := later ++ t :: earlier, count := l.count + 1 }

-- Reads the next `n` characters as a token.
def take (l : Lexer) (t : Token) (n : Nat) : Lexer :=
  { l.push t with cursor := l.cursor.skip n }

def skipGap (l : Lexer) : Lexer :=
  let cursor := l.cursor.skipGap (l.inFlow || !l.keyAllowed) l.inFlow
  { l with
    cursor
    keyAllowed := l.keyAllowed || !l.inFlow && l.place.line < cursor.place.line }

-- Blocks are opened and closed by columns, outside of flow collections.
def openBlock (l : Lexer) (column number : Nat) (t : Token) : Lexer :=
  if l.inFlow || l.blocks.head?.any (column ≤ ·) then
    l
  else
    { l.insert number t with blocks := column :: l.blocks }

def closeBlocks (l : Lexer) (isClosed : Nat → Bool) : Lexer :=
  if l.inFlow then
    l
  else
    let (closed, blocks) := l.blocks.span isClosed
    closed.foldl (fun l _ => l.push .blockEnd) { l with blocks }

def discard : Option Candidate → Lexing (Option Candidate)
  | none   => .ok none
  | some k => if k.required then .error .noColon else .ok none

def dropKey (l : Lexer) : Lexing Lexer := do
  return { l with key? := ← discard l.key? }

-- What comes next may be a key.
def markKey (l : Lexer) : Lexing Lexer := do
  if l.keyAllowed then
    let l ← l.dropKey
    let required := !l.inFlow && l.blocks.head? == some l.column
    return { l with key? := some { token := l.count, place := l.place, required } }
  else
    return l

def dropOver (l : Lexer) : Lexing Lexer := do
  return { l with key? := ← check l.key?, outer := ← l.outer.mapM check }
where
  check (k? : Option Candidate) : Lexing (Option Candidate) :=
    if k?.any (·.isOver l.place) then discard k? else .ok k?

def finish (l : Lexer) : Lexing Lexer := do
  -- A last line without a line break ends as well.
  let place := if l.column = 0 then l.place else l.place.after '\n'
  let l := { l with cursor := { rest := [], place } }
  let l ← (l.closeBlocks fun _ => true).dropKey
  return { l with keyAllowed := false }.take .textEnd 0

def documentMark (l : Lexer) (t : Token) : Lexing Lexer := do
  let l ← (l.closeBlocks fun _ => true).dropKey
  return { l with keyAllowed := false }.take t 3

def openFlow (l : Lexer) (t : Token) : Lexing Lexer := do
  let l ← l.markKey
  return { l with key? := none, outer := l.key? :: l.outer, keyAllowed := true }.take t 1

def closeFlow (l : Lexer) (t : Token) : Lexing Lexer := do
  let l ← l.dropKey
  return { l with key? := l.outer.head?.join, outer := l.outer.tail, keyAllowed := false }.take t 1

def comma (l : Lexer) : Lexing Lexer := do
  let l ← l.dropKey
  return { l with keyAllowed := true }.take .comma 1

-- A dash in a flow collection is a token as well, only in no place.
def entry (l : Lexer) : Lexing Lexer := do
  unless l.inFlow || l.keyAllowed do
    throw .sequenceEntry
  let l ← (l.openBlock l.column l.count .blockSequence).dropKey
  return { l with keyAllowed := true }.take .entry 1

-- A key with a question mark in front.
def explicitKey (l : Lexer) : Lexing Lexer := do
  unless l.inFlow || l.keyAllowed do
    throw .mappingKey
  let l ← (l.openBlock l.column l.count .blockMapping).dropKey
  return { l with keyAllowed := !l.inFlow }.take .key 1

def value (l : Lexer) : Lexing Lexer := do
  match l.key? with
  | some k =>
    let l := (l.insert k.token .key).openBlock k.place.column k.token .blockMapping
    return { l with key? := none, keyAllowed := false }.take .value 1
  | none =>
    unless l.inFlow || l.keyAllowed do
      throw .mappingValue
    let l := l.openBlock l.column l.count .blockMapping
    return { l with keyAllowed := !l.inFlow }.take .value 1

def scalar (l : Lexer) (style : Style) (read : Cursor → Except Malformed Spelled) :
    Lexing Lexer := do
  let l ← l.markKey
  let s ← read l.cursor
  return { l.push (.scalar style s.text) with cursor := s.after, keyAllowed := s.endsLine }

def plainScalar (l : Lexer) : Lexing Lexer :=
  l.scalar .plain (plain l.inFlow (l.blocks.head?.elim 0 (· + 1)))

-- Everything up to the end of the next token.
def next (l : Lexer) : Lexing Lexer := do
  let l ← l.skipGap.dropOver
  let l := l.closeBlocks (l.column < ·)
  match l.cursor.rest with
  | []      => l.finish
  | c :: cs =>
    if c = '%' ∧ l.column = 0 then throw .unsupported
    else if l.cursor.atDocumentStart then l.documentMark .documentStart
    else if l.cursor.atDocumentEnd then l.documentMark .documentEnd
    else if c = '[' then l.openFlow .openSequence
    else if c = '\x7b' then l.openFlow .openMapping
    else if c = ']' then l.closeFlow .closeSequence
    else if c = '\x7d' then l.closeFlow .closeMapping
    else if c = ',' then l.comma
    else if c = '-' ∧ wordEnds cs then l.entry
    else if c = '?' ∧ (l.inFlow ∨ wordEnds cs) then l.explicitKey
    else if c = ':' ∧ (l.inFlow ∨ wordEnds cs) then l.value
    else if c = '\'' then l.scalar .quoted fun c => singleQuoted (c.skip 1)
    else if c = '"' then l.scalar .quoted fun c => doubleQuoted (c.skip 1)
    else if c ∈ ['*', '&', '!'] ∨ c ∈ ['|', '>'] ∧ ¬l.inFlow then throw .unsupported
    else if c ∈ ['|', '>', '%', '@', '\u0060', '\t'] then throw .badStart
    else l.plainScalar

def step (l : Lexer) : Lexing Lexer :=
  l.next >>= dropOver

-- The tokens that are not held back.
def settled (l : Lexer) : List Token :=
  let number := (l.key? :: l.outer).foldl (fun n k? => k?.elim n (min n ·.token)) l.count
  (l.tokens.drop (l.count - number)).reverse

-- Where the text is not whole the last token of what is there cannot be told.
def run (whole : Bool) : Nat → Lexer → List Token
  | 0,     _ => [.broken .tooDeep]
  | n + 1, l =>
    match l.step with
    | .error m => l.settled ++ [.broken m]
    | .ok after =>
      if after.cursor.rest.isEmpty && !whole then l.settled ++ [.broken .controlCharacter]
      else if after.tokens.head? = some .textEnd then after.tokens.reverse
      else run whole n after

end Lexer

namespace Token

def ofChars (cs : List Char) : List Token :=
  let (cs, whole) := readable cs
  let cs := normalise cs
  -- Every step but the last one takes a character.
  Lexer.run whole (cs.length + 1) { cursor := { rest := cs } }

end Token
end ChipEight.Yaml
