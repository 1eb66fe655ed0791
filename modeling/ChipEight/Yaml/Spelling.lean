import ChipEight.Yaml.Cursor
import ChipEight.Yaml.Malformed

namespace ChipEight.Yaml

-- What a cursor stands behind once a scalar is read. A plain scalar takes the gap after it along.
structure Spelled where
  text     : String
  after    : Cursor
  endsLine : Bool := false

-- Blanks inside of a line, or the line breaks between two lines, the last one in front. The first
-- line break stands alone; there is none if it was escaped.
inductive Gap
  | blanks (cs : List Char)
  | breaks (first? : Option Char) (more : List Char)

namespace Gap

def isEmpty : Gap → Bool
  | blanks [] => true
  | _         => false

def hasBreak : Gap → Bool
  | blanks _   => false
  | breaks _ _ => true

def add (c : Char) : Gap → Gap
  | blanks cs         => if isBreak c then breaks (some c) [] else blanks (c :: cs)
  | breaks first more => breaks first (if isBreak c then c :: more else more)

-- A single line feed is folded into a space, and of several line breaks the first is dropped if it
-- is a line feed.
--
-- What the gap amounts to in the text of a scalar, the last character in front.
def folded : Gap → List Char
  | blanks cs                => cs
  | breaks none more         => more
  | breaks (some '\n') []    => [' ']
  | breaks (some '\n') more  => more
  | breaks (some first) more => more ++ [first]

end Gap

-- A scalar while it is read: its characters, the last one in front, and the gap after them.
structure Folding where
  text : List Char := []
  gap  : Gap       := .blanks []

namespace Folding

def space (f : Folding) (c : Char) : Folding :=
  { f with gap := f.gap.add c }

-- The gap so far belongs to the text.
def flush (f : Folding) : Folding :=
  { text := f.gap.folded ++ f.text }

def content (f : Folding) (c : Char) : Folding :=
  { text := c :: f.flush.text }

def joinLines (f : Folding) : Folding :=
  { f.flush with gap := .breaks none [] }

def result (f : Folding) : String :=
  .ofList f.text.reverse

end Folding

def isFlowMark (c : Char) : Bool :=
  c ∈ [',', '[', ']', '\x7b', '\x7d']

-- A plain scalar ends before a colon that ends a word, before a comment, at a document marker, and
-- in a block at a line that starts left of `floor`.
def plain (inFlow : Bool) (floor : Nat) (c : Cursor) : Except Malformed Spelled :=
  go c.rest c.place {}
where
  stop (f : Folding) (rest : List Char) (place : Position) : Spelled :=
    { text := f.result, after := { rest, place }, endsLine := f.gap.hasBreak }
  go : List Char → Position → Folding → Except Malformed Spelled
    | [],      p, f => .ok (stop f [] p)
    | c :: cs, p, f =>
      if c = '\t' ∧ f.gap.hasBreak ∧ p.column < floor then
        .error .tabIndent
      else if isBlank c ∨ isBreak c then
        go cs (p.after c) (f.space c)
      else if ¬f.gap.isEmpty ∧ c = '#' then
        .ok (stop f (c :: cs) p)
      else if f.gap.hasBreak ∧ ¬inFlow ∧ p.column < floor then
        .ok (stop f (c :: cs) p)
      else if Cursor.atDocumentMark { rest := c :: cs, place := p } then
        .ok (stop f (c :: cs) p)
      else if c = ':' ∧ wordEnds cs then
        .ok (stop f (c :: cs) p)
      else if inFlow ∧ c = ':' ∧ cs.head?.any (fun d => isFlowMark d || d == '?') then
        .error .badColon
      else if inFlow ∧ isFlowMark c then
        .ok (stop f (c :: cs) p)
      else
        go cs (p.after c) (f.content c)

-- Two quotes stand for one.
def singleQuoted (c : Cursor) : Except Malformed Spelled :=
  go c.rest c.place {}
where
  go : List Char → Position → Folding → Except Malformed Spelled
    | [],                 _, _ => .error .openQuote
    | '\'' :: '\'' :: cs, p, f => go cs ((p.after '\'').after '\'') (f.content '\'')
    | c :: cs,            p, f =>
      if Cursor.atDocumentMark { rest := c :: cs, place := p } then
        .error .markerInQuote
      else if c = '\'' then
        .ok { text := f.flush.result, after := { rest := cs, place := p.after c } }
      else if isBlank c ∨ isBreak c then
        go cs (p.after c) (f.space c)
      else
        go cs (p.after c) (f.content c)

def hexDigit? (c : Char) : Option Nat :=
  if c.isDigit then some (c.toNat - '0'.toNat)
  else if 'a' ≤ c ∧ c ≤ 'f' then some (c.toNat - 'a'.toNat + 10)
  else if 'A' ≤ c ∧ c ≤ 'F' then some (c.toNat - 'A'.toNat + 10)
  else none

-- The character whose number is given by the first digits.
def numbered (digits : Nat) (cs : List Char) : Except Malformed Char :=
  match (cs.take digits).mapM hexDigit? with
  | none    => .error .noHexadecimal
  | some ds =>
    let code := ds.foldl (fun n d => 16 * n + d) 0
    if ds.length < digits then .error .noHexadecimal
    else if h : code.isValidChar then .ok (Char.ofNatAux code h)
    else .error .noCharacter

-- The character that an escape stands for, and the length of the escape after the backslash.
def escaped : List Char → Except Malformed (Char × Nat)
  | '0' :: _  => .ok ('\x00', 1)
  | 'a' :: _  => .ok ('\x07', 1)
  | 'b' :: _  => .ok ('\x08', 1)
  | 't' :: _  => .ok ('\t', 1)
  | '\t' :: _ => .ok ('\t', 1)
  | 'n' :: _  => .ok ('\n', 1)
  | 'v' :: _  => .ok ('\x0B', 1)
  | 'f' :: _  => .ok ('\x0C', 1)
  | 'r' :: _  => .ok ('\r', 1)
  | 'e' :: _  => .ok ('\x1B', 1)
  | ' ' :: _  => .ok (' ', 1)
  | '"' :: _  => .ok ('"', 1)
  | '/' :: _  => .ok ('/', 1)
  | '\\' :: _ => .ok ('\\', 1)
  | 'N' :: _  => .ok ('\u0085', 1)
  | '_' :: _  => .ok ('\u00A0', 1)
  | 'L' :: _  => .ok ('\u2028', 1)
  | 'P' :: _  => .ok ('\u2029', 1)
  | 'x' :: cs => (numbered 2 cs).map (·, 3)
  | 'u' :: cs => (numbered 4 cs).map (·, 5)
  | 'U' :: cs => (numbered 8 cs).map (·, 9)
  | _         => .error .unknownEscape

-- A backslash before a line break joins the lines without a space.
def doubleQuoted (c : Cursor) : Except Malformed Spelled :=
  go c.rest.length c {}
where
  go : Nat → Cursor → Folding → Except Malformed Spelled
    | 0,     _, _ => .error .openQuote
    | n + 1, c, f =>
      if c.atDocumentMark then
        .error .markerInQuote
      else
        match c.rest with
        | []              => .error .openQuote
        | '"' :: _        => .ok { text := f.flush.result, after := c.skip 1 }
        | '\\' :: b :: cs =>
          if isBreak b then
            go n (c.skip 2) f.joinLines
          else
            match escaped (b :: cs) with
            | .error m    => .error m
            | .ok (e, k)  => go n (c.skip (k + 1)) (f.content e)
        | '\\' :: []      => .error .unknownEscape
        | b :: _          =>
          if isBlank b ∨ isBreak b then
            go n (c.skip 1) (f.space b)
          else
            go n (c.skip 1) (f.content b)

end ChipEight.Yaml
