/-
# The scanners by name

Every scanner of the library has a name. Naming them by an enumeration and not by
text makes the assignment of languages to scanners total: only a name that somebody
types can be unknown.
-/

import LineCensus.Scanner.Algol
import LineCensus.Scanner.Columns
import LineCensus.Scanner.Dcl
import LineCensus.Scanner.Delimited
import LineCensus.Scanner.Docstring
import LineCensus.Scanner.Documentation
import LineCensus.Scanner.Pascal
import LineCensus.Scanner.WholeLine

namespace LineCensus

/-- The names of the scanners. -/
inductive ScannerId where
  | algol | assembly | batch | cmake | cobol | cstyle | dcl | dockerfile | fortranFixed
  | fortranFree | generic | hcl | ini | iplan | javascript | json | makefile | mdhavers | mustache
  | pascal | perl | php | powershell | python | rst | ruby | rust | shell | tcl | toml | velocity
  | xml | yaml
deriving DecidableEq, Repr

namespace ScannerId

/-- All names, in alphabetical order. -/
def all : List ScannerId :=
  [.algol, .assembly, .batch, .cmake, .cobol, .cstyle, .dcl, .dockerfile, .fortranFixed,
   .fortranFree, .generic, .hcl, .ini, .iplan, .javascript, .json, .makefile, .mdhavers,
   .mustache, .pascal, .perl, .php, .powershell, .python, .rst, .ruby, .rust, .shell, .tcl, .toml,
   .velocity, .xml, .yaml]

/-- The name as text. -/
def name : ScannerId → String
  | algol => "algol" | assembly => "assembly" | batch => "batch" | cmake => "cmake"
  | cobol => "cobol" | cstyle => "cstyle" | dcl => "dcl" | dockerfile => "dockerfile"
  | fortranFixed => "fortran-fixed" | fortranFree => "fortran-free" | generic => "generic"
  | hcl => "hcl" | ini => "ini" | iplan => "iplan" | javascript => "javascript" | json => "json"
  | makefile => "makefile" | mdhavers => "mdhavers" | mustache => "mustache" | pascal => "pascal"
  | perl => "perl" | php => "php" | powershell => "powershell" | python => "python" | rst => "rst"
  | ruby => "ruby" | rust => "rust" | shell => "shell" | tcl => "tcl" | toml => "toml"
  | velocity => "velocity" | xml => "xml" | yaml => "yaml"

def ofName? (text : String) : Option ScannerId :=
  all.find? (·.name == text)

/-- The scanner of a name. -/
def scanner : ScannerId → Scanner
  | algol => .algol
  | assembly => .assembly
  | batch => .batch
  | cobol => .cobol
  | cstyle => .delimited .cStyle
  | dcl => .dcl
  | fortranFixed => .fortranFixed
  | fortranFree => .fortranFree
  | generic | json | rst => .commentless
  | hcl => .delimited .hcl
  | ini => .settings
  | iplan => .delimited .iplan
  | javascript => .delimited .javaScript
  | cmake | dockerfile | makefile | mdhavers | toml | yaml => .hash
  | mustache => .delimited .mustache
  | pascal => .pascal
  | perl => .perl
  | php => .delimited .php
  | powershell => .delimited .powerShell
  | python => .docstring
  | ruby => .ruby
  | rust => .delimited .rust
  | shell | tcl => .hashScript
  | velocity => .delimited .velocity
  | xml => .delimited .markup

/-- Every name is in the list of all. -/
theorem mem_all (id : ScannerId) : id ∈ all := by
  cases id <;> decide

end ScannerId

end LineCensus
