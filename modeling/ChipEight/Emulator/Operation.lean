import ChipEight.Emulator.Basic

namespace ChipEight

inductive Operation
  | tick
  | run (n : Nat)
  | countDown
  | switchKey (k : Key) (pressed : Bool)
  | releaseKeys
  | reset
  | load (image : List UInt8)

inductive Reply
  | signal (s : Except Fault Signal)
  | tone (t : Tone)
  | loaded (r : Except Fault Unit)
  | done

namespace Outcome

def map (f : α → β) (o : Outcome σ α) : Outcome σ β :=
  { o with answer := f o.answer }

end Outcome

namespace Emulator

def perform (e : Emulator) : Operation → Outcome Emulator Reply
  | .tick             => e.tick.map .signal
  | .run n            => (e.run n).map .signal
  | .countDown       => e.countDown.map .tone
  | .switchKey k pressed => { answer := .done, state := e.switchKey k pressed }
  | .releaseKeys        => { answer := .done, state := e.releaseKeys }
  | .reset            => e.reset.map fun _ => .done
  | .load image       => (e.load image).map .loaded

def performAll (e : Emulator) (ops : List Operation) : Emulator :=
  ops.foldl (fun e op => (e.perform op).state) e

end Emulator

end ChipEight
