import ChipEight.Text.Numeral

namespace ChipEight

inductive Fault
  /-- The word fetched from `address` stands for no instruction. -/
  | unsupported (word address : UInt16)
  /-- The call at `address` found the call stack full. -/
  | stackOverflow (address : UInt16)
  /-- The return at `address` found the call stack empty. -/
  | stackUnderflow (address : UInt16)
  /-- No whole instruction word lies at `pc`. -/
  | outsideProgram (pc : UInt16)
  /-- The `len` bytes at `address` do not all lie in memory. -/
  | outsideMemory (address len : Nat)
  /-- An image of `size` bytes does not fit into `capacity` bytes. -/
  | oversized (size capacity : Nat)
  deriving DecidableEq

namespace Fault

open Numeral

def message : Fault → String
  | unsupported word address =>
    "unsupported opcode " ++ upperHex 4 word.toNat ++ " at 0x" ++ upperHex 3 address.toNat
  | stackOverflow address =>
    "call stack overflow at 0x" ++ upperHex 3 address.toNat
  | stackUnderflow address =>
    "call stack underflow at 0x" ++ upperHex 3 address.toNat
  | outsideProgram pc =>
    "program counter 0x" ++ upperHex 4 pc.toNat ++ " is outside of memory"
  | outsideMemory address len =>
    "memory access of " ++ decimal len ++ " bytes at 0x" ++ upperHex 4 address ++
      " is outside of memory"
  | oversized size capacity =>
    "program too large for VM memory: " ++ decimal size ++ " bytes, capacity is " ++
      decimal capacity

end Fault
end ChipEight
