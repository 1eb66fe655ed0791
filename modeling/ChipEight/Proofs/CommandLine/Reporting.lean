import ChipEight.CommandLine
import ChipEight.Proofs.Host.Limit

namespace ChipEight

namespace Invocation

variable {i : Invocation} {read : Config.Reader} {files : Files} {c : Config} {image : List UInt8}

end Invocation

-- What a number of beeps comes to on the standard error.
def Config.chimes (c : Config) (beeps : Nat) : String :=
  if c.bell then .ofList (.replicate beeps CommandLine.bell) else ""

namespace Config

end Config

namespace Turn

-- What the frames of a history write, the oldest frame first.
def rings (ts : List Turn) : String :=
  .join <| ts.reverse.map fun t => CommandLine.ring t.before t.after

end Turn

namespace Host

variable {h h' : Host} {ts : List Turn}

end Host

namespace CommandLine

-- What a run shows that is over after `budget` frames.
structure Shows (h : Host) (budget : Nat) (answer : Except Fault Unit) (h' : Host)
    (report : Report) : Prop where
  exit  : report.exit = if answer.isOk then 0 else 1
  limit : answer.isOk → h.config.maxFrames.isSome
  out   : report.out =
    if h.config.showDisplay then h'.emulator.machine.display.text ++ "\n" else ""
  err   : report.err = h.config.chimes h'.beeps
  beeps : h'.beeps = ((Host.runTurns budget h).flatMap Turn.moments).countP fun m => m.beeps
  rings : report.err = Turn.rings (Host.runTurns budget h)

variable {h h' : Host} {i : Invocation} {read : Config.Reader} {files : Files} {seed : UInt64}

theorem Shows.unique (s : Shows h budget answer h' report) (s' : Shows h budget answer h' report') :
    report = report' := by
  cases report
  cases report'
  simp only [Report.mk.injEq]
  exact ⟨s.exit.trans s'.exit.symm, s.out.trans s'.out.symm, s.err.trans s'.err.symm⟩

end CommandLine
end ChipEight
