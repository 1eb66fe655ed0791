namespace ChipEight.Yaml

def isBlank (c : Char) : Bool :=
  c == ' ' || c == '\t'

-- Every other line break is a line feed by the time that a text is read.
def isBreak (c : Char) : Bool :=
  c == '\n' || c == '\u2028' || c == '\u2029'

-- Whether a word ends in front of the rest of a text.
def wordEnds : List Char → Bool
  | []     => true
  | c :: _ => isBlank c || isBreak c

structure Position where
  index  : Nat := 0
  line   : Nat := 0
  column : Nat := 0
  deriving DecidableEq

namespace Position

-- Past a character.
def after (p : Position) (c : Char) : Position :=
  if isBreak c then
    { index := p.index + 1, line := p.line + 1, column := 0 }
  else
    { p with index := p.index + 1, column := p.column + 1 }

end Position

structure Cursor where
  rest  : List Char
  place : Position := {}

namespace Cursor

def skip (c : Cursor) (n : Nat) : Cursor where
  rest  := c.rest.drop n
  place := (c.rest.take n).foldl Position.after c.place

-- Whether the text goes on with a line that consists of the mark or starts with it and a blank.
def atMark (c : Cursor) (mark : String) : Bool :=
  c.place.column == 0 && mark.toList.isPrefixOf c.rest && wordEnds (c.rest.drop mark.length)

def atDocumentStart (c : Cursor) : Bool :=
  c.atMark "---"

def atDocumentEnd (c : Cursor) : Bool :=
  c.atMark "..."

def atDocumentMark (c : Cursor) : Bool :=
  c.atDocumentStart || c.atDocumentEnd

-- Skips blanks, line breaks, comments, and a byte order mark at the start of a line. Tabs only
-- belong to a gap where `tabs` says so, which a line break makes `tabsAfterBreak`.
def skipGap (c : Cursor) (tabs tabsAfterBreak : Bool) : Cursor :=
  go c.rest c.place tabs false
where
  go : List Char → Position → Bool → Bool → Cursor
    | [],      p, _,    _       => { rest := [], place := p }
    | c :: cs, p, tabs, comment =>
      if isBreak c then
        go cs (p.after c) tabsAfterBreak false
      else if comment || c == '#' then
        go cs (p.after c) tabs true
      else if c == ' ' || c == '\t' && tabs || c == '\uFEFF' && p.column == 0 then
        go cs (p.after c) tabs false
      else
        { rest := c :: cs, place := p }

end Cursor

-- A carriage return becomes a line feed, alone or before one, and so does a next line control.
def normalise : List Char → List Char
  | '\r' :: '\n' :: cs => '\n' :: normalise cs
  | '\r' :: cs         => '\n' :: normalise cs
  | '\u0085' :: cs     => '\n' :: normalise cs
  | c :: cs            => c :: normalise cs
  | []                 => []

def isAllowed (c : Char) : Bool :=
  let n := c.toNat
  n == 0x09 || n == 0x0A || n == 0x0D || n == 0x85 || 0x20 ≤ n && n ≤ 0x7E ||
    0xA0 ≤ n && n ≤ 0xFFFD || 0x10000 ≤ n

-- A text is checked in pieces of this many bytes.
def pieceSize : Nat := 16384

-- The pieces before the first one that holds a character that is not allowed, and whether these are
-- all.
def readable (cs : List Char) : List Char × Bool :=
  go cs 0 [] []
where
  -- The piece so far and those before it are kept with the last character in front.
  go : List Char → Nat → List Char → List Char → List Char × Bool
    | [],      _,    piece, before => ((piece ++ before).reverse, true)
    | c :: cs, size, piece, before =>
      let isFull := pieceSize < size + c.utf8Size
      let before := if isFull then piece ++ before else before
      if isAllowed c then
        if isFull then go cs c.utf8Size [c] before
        else go cs (size + c.utf8Size) (c :: piece) before
      else
        (before.reverse, false)

end ChipEight.Yaml
