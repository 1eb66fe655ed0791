import ChipEight.Config.Text
import ChipEight.Host.Failure

namespace ChipEight

-- The contents of the files there are, by path.
abbrev Files := String → Option (List UInt8)

-- What a configuration file says, by its contents.
abbrev Config.Reader := List UInt8 → Reading Config

structure Report where
  exit : UInt32
  out  : String
  err  : String
  deriving DecidableEq

structure Invocation where
  rom     : String
  config? : Option String
  deriving DecidableEq

namespace Invocation

-- Further arguments have no effect.
def ofArgs? : List String → Option Invocation
  | "run" :: rom :: rest => some { rom, config? := rest.head? }
  | _                    => none

def config (i : Invocation) (read : Config.Reader) (files : Files) : Except Failure Config :=
  match i.config? with
  | none      => .ok {}
  | some path =>
    match files path with
    | none       => .error .noFile
    | some bytes => (read bytes).mapError .config

-- The host with the program loaded, before its first frame. The configuration is read before it.
def host (i : Invocation) (read : Config.Reader) (files : Files) (seed : UInt64) :
    Except Failure Host :=
  match i.config read files with
  | .error f => .error f
  | .ok c    =>
    let o := (Host.create c (c.noise seed)).loadFile i.rom (files i.rom)
    match o.answer with
    | .error f => .error f
    | .ok _    => .ok o.state

end Invocation

namespace CommandLine

def version : String :=
  "0.4.0"

def usage : String :=
  "
usage: chip8 run ROM [CONFIG]

commands:
    run     Run the target ROM file headless, printing the display when it stops

config:
    Optional YAML file with run settings:
        ticks_per_frame, frame_rate, max_frames, seed,
        on_error (halt|ignore), bell, show_display,
        keys: [\x7b frame, key, pressed \x7d]

examples:
    chip8 run maze.rom
    chip8 run breakout.rom breakout.yaml
"

def bell : Char :=
  '\x07'

def usageReport : Report where
  exit := 64
  out  := "Chip8 v" ++ version ++ "\n" ++ usage ++ "\n"
  err  := ""

def failureReport : Report where
  exit := 1
  out  := ""
  err  := ""

-- The display is printed whether or not the run failed.
def runReport (h : Host) (answer : Except Fault Unit) : Report where
  exit :=
    match answer with
    | .ok _    => 0
    | .error _ => 1
  out := if h.config.showDisplay then h.emulator.machine.display.text ++ "\n" else ""
  err := if h.config.bell then .ofList (.replicate h.beeps bell) else ""

-- What a frame writes to the standard error while the run goes on.
def ring (before after : Host) : String :=
  if after.config.bell && before.beeps < after.beeps then .singleton bell else ""

-- None when the run is not over after `budget` frames.
def executeWith? (read : Config.Reader) (args : List String) (files : Files) (seed : UInt64)
    (budget : Nat) : Option Report :=
  match Invocation.ofArgs? args with
  | none   => some usageReport
  | some i =>
    match i.host read files seed with
    | .error _ => some failureReport
    | .ok h    => (h.run? budget).map fun o => runReport o.state o.answer

-- With the reader of the library.
def execute? : List String → Files → UInt64 → Nat → Option Report :=
  executeWith? Config.ofBytes

end CommandLine
end ChipEight
