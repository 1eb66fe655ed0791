namespace ChipEight

abbrev Point := Nat × Nat

-- A sprite is a list of rows of eight pixels, the high bit leftmost.
namespace Sprite

def width : Nat := 8

-- The points under the set bits, for a sprite whose top left corner is at `(x, y)`.
def points (rows : List UInt8) (x y : Nat) : List Point :=
  rows.zipIdx.flatMap fun (row, r) =>
    (List.range width).filterMap fun c =>
      if row.toNat.testBit (7 - c) then some (x + c, y + r) else none

end Sprite

@[ext]
structure Display where
  cells : Vector Bool 2048
  deriving DecidableEq

namespace Display

def width : Nat := 64

def height : Nat := 32

def blank : Display :=
  ⟨.replicate 2048 false⟩

-- Rows follow each other from the top; coordinates wrap around.
def index (p : Point) : Fin 2048 :=
  ⟨p.1 % 64 + 64 * (p.2 % 32), by omega⟩

def lit (d : Display) (p : Point) : Bool :=
  d.cells[index p]

def flip (d : Display) (p : Point) : Display :=
  ⟨d.cells.set (index p) (!d.lit p)⟩

@[simp]
theorem lit_blank (p : Point) : blank.lit p = false := by
  simp [lit, blank]

theorem lit_flip (d : Display) (p q : Point) :
    (d.flip p).lit q = if index p = index q then !d.lit q else d.lit q := by
  by_cases h : index p = index q
  · simp [flip, lit, h]
  · simp [flip, lit, Fin.val_inj, h]

-- Rows are read where they lie in the cells, so unlike the coordinates of a point, `y` is not taken
-- around the edge.
def row (d : Display) (y : Nat) : List Bool :=
  (List.range width).map fun x => d.cells[x + y * width]?.getD false

def litCount (d : Display) : Nat :=
  d.cells.toList.count true

-- One line of text for each row.
def text (d : Display) : String :=
  .ofList <| (List.range height).flatMap fun y =>
    (d.row y).map (if · then '#' else '.') ++ ['\n']

end Display
end ChipEight
