namespace ChipEight

abbrev Registers := Vector UInt8 16

namespace Registers

-- The last register doubles as the flag of arithmetic and drawing.
def flag : UInt8 := 0xF

def zero : Registers :=
  .replicate 16 0

-- A register number counts modulo 16.
def read (r : Registers) (x : UInt8) : UInt8 :=
  r[x.toNat % 16]

def write (r : Registers) (x v : UInt8) : Registers :=
  r.set (x.toNat % 16) v

theorem read_write (r : Registers) (x y v : UInt8) :
    (r.write x v).read y = if x.toNat % 16 = y.toNat % 16 then v else r.read y := by
  simp [read, write, Vector.getElem_set]

theorem get_write_of_ne {x : UInt8} {i : Fin 16} (h : x.toNat % 16 ≠ i.val) (r : Registers)
    (v : UInt8) : (r.write x v).get i = r.get i :=
  Vector.getElem_set_ne _ _ h

-- The registers `V0` to `Vx`, both included.
def upTo (r : Registers) (x : UInt8) : List UInt8 :=
  r.toList.take (x.toNat + 1)

-- The first registers take the values of the list.
def writeAll (r : Registers) (vs : List UInt8) : Registers :=
  .ofFn fun i => vs[i]?.getD (r.get i)

theorem get_writeAll (r : Registers) (vs : List UInt8) (i : Fin 16) :
    (r.writeAll vs).get i = vs[i.val]?.getD (r.get i) :=
  Vector.getElem_ofFn ..

end Registers
end ChipEight
