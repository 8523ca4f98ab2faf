/-
# What becomes of a configuration

A configuration is read or it is refused, and a command that is refused its configuration
says why and ends. What else can happen is that nobody gets as far as that. A locked
directory may hide whether there is anything to read, and links may lead round in a circle.
The bytes of the file may be no UTF-8, or the reader of YAML fails on the text without
refusing it. An integer that stands in the place of a text may have more digits than one may
write; where an integer is asked for, the same one does no harm.

Any reader of YAML will do. What it takes for a document and what it says about a text that
it refuses is for the reader to decide.
-/

import LineCensus.Command.Session
import LineCensus.Proofs.FileTree.Resolution
import LineCensus.Proofs.Path.Text
import LineCensus.Proofs.Text.Quoted

namespace LineCensus

open Text Yaml

/-! ## Texts that can be written -/

namespace Setting

end Setting

/-! ## Configurations that are read or refused -/

namespace Config

/-- Whether there is a configuration, or it is said why it is refused. -/
def IsSettled (outcome : Except ConfigFailure Config) : Prop :=
  (∃ config, outcome = .ok config) ∨ ∃ error, outcome = .error (.refused error)

section

variable {yaml : Reader} {world : FileTree} {path file root : Path}

end

end Config

/-! ## Commands that are refused their configuration -/

section

variable {environment : Environment} {failure : ConfigFailure}

end

/-! ## Messages on one line -/

namespace Config

end Config

end LineCensus
