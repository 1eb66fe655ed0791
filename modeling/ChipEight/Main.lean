import ChipEight.CommandLine

namespace ChipEight.Program

def contents (path : String) : IO (Option (List UInt8)) := do
  try
    let bytes ← IO.FS.readBinFile path
    return some bytes.toList
  catch _ =>
    return none

def randomSeed : IO UInt64 := do
  let bytes ← IO.getRandomBytes 8
  return bytes.toList.foldl (fun n b => 256 * n + b.toUInt64) 0

-- The next frame starts an interval after the last one, or now if that has passed. To sleep for the
-- rest of the interval is too coarse, so the program gives way to others until it is over.
partial def waitUntil (start interval : Nat) : IO Nat := do
  let now ← IO.monoNanosNow
  if start + interval ≤ now then
    return now
  else
    IO.sleep 0
    waitUntil start interval

partial def frames (h : Host) (start : Nat) : IO (Host × Except Fault Unit) := do
  if h.atLimit then
    return (h, .ok ())
  else
    let o := h.playFrame
    let err ← IO.getStderr
    err.putStr (CommandLine.ring h o.state)
    err.flush
    match o.answer with
    | .error f => return (o.state, .error f)
    | .ok _    => frames o.state (← waitUntil start (Config.frameInterval h.config.frameRate))

def run (i : Invocation) : IO Report := do
  let rom ← contents i.rom
  let config ← i.config?.bindM contents
  let files : Files := fun path => if some path = i.config? then config else rom
  match i.host Config.ofBytes files (← randomSeed) with
  | .error _ => return CommandLine.failureReport
  | .ok h    => do
    let (h, answer) ← frames h (← IO.monoNanosNow)
    return CommandLine.runReport h answer

end ChipEight.Program

open ChipEight in
def main (args : List String) : IO UInt32 := do
  let report ← match Invocation.ofArgs? args with
    | none   => pure CommandLine.usageReport
    | some i => Program.run i
  (← IO.getStdout).putStr report.out
  return report.exit
