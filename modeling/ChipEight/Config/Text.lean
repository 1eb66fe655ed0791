import ChipEight.Config.Read
import ChipEight.Yaml.Document

namespace ChipEight.Config

def ofDocument (d : Yaml.Document) : Reading Config :=
  match d.root? with
  | none   => .ok {}
  | some n => ofNode n

-- A problem in the first document is reported before what is wrong after it.
def ofText (s : String) : Reading Config :=
  let d := Yaml.Document.ofText s
  match ofDocument d, d.sequel with
  | .error p, _              => .error p
  | .ok c,    .nothing       => .ok c
  | .ok _,    .documents     => .error .severalDocuments
  | .ok _,    .broken reason => .error (.malformed reason)

-- A reader for plain YAML, which refuses tags, anchors, aliases, directives and block scalars. The
-- command line works with any other reader in its place.
def ofBytes (bytes : List UInt8) : Reading Config :=
  match String.fromUTF8? ⟨bytes.toArray⟩ with
  | none   => .error (.malformed .noText)
  | some s => ofText s

end ChipEight.Config
