import ChipEight.Config.Problem
import ChipEight.Host.Basic

namespace ChipEight

inductive Failure
  | fault (f : Fault)
  | noFile
  | config (p : Problem)

namespace Failure

def message (f : Failure) : String :=
  "application error: " ++
    match f with
    | fault f  => f.message
    | noFile   => "No such file or directory (os error 2)"
    | config p => "invalid config: " ++ p.message

end Failure

-- The contents of the file at `path`, if there is one.
def Host.loadFile (h : Host) (path : String) (contents : Option (List UInt8)) :
    Outcome Host (Except Failure Unit) :=
  match contents with
  | none       => { answer := .error .noFile, state := h, records := #[.loadingFile path] }
  | some image =>
    let o := h.load image
    { answer  := o.answer.mapError .fault
      state   := o.state
      records := #[.loadingFile path] ++ o.records }

end ChipEight
