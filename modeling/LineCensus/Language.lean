/-
# Languages

Which language a file is in, by its name alone or, for an extension that several
kinds of file share, by its first line too. A file whose extension nobody knows is
still counted, line by line and without comments. One without an extension is not.

Letter case does not matter. A name that stands for a language as a whole goes before
its endings, and the longer ending before the shorter.
-/

import LineCensus.Path
import LineCensus.Scanner.Registry
import LineCensus.Text.LowerCase

namespace LineCensus

open Text

/-- A language as the reports name it, and the scanner for its files. -/
structure Language where
  label : String
  scanner : ScannerId
deriving DecidableEq, Repr

namespace Language

/-- The language of files with an unknown extension. -/
def other : Language := ⟨"Other", .generic⟩

/-- The language whose files are split by role. -/
def rust : Language := ⟨"Rust", .rust⟩

/-- Build files for containers. -/
def dockerfile : Language := ⟨"Dockerfile", .dockerfile⟩

/-- Command procedures, which share their extension with programs. -/
def dcl : Language := ⟨"DCL", .dcl⟩

/-- The languages with their file extensions. -/
def byExtension : List (Language × List String) :=
  [(rust, ["rs"]),
   (⟨"Go", .cstyle⟩, ["go"]),
   (⟨"Python", .python⟩, ["py"]),
   (⟨"Java", .cstyle⟩, ["java"]),
   (⟨"C/C++", .cstyle⟩, ["c", "h", "cpp", "hpp", "cc", "cxx", "hh"]),
   (⟨"C#", .cstyle⟩, ["cs"]),
   (⟨"Scala", .cstyle⟩, ["scala", "sbt"]),
   (⟨"Protobuf", .cstyle⟩, ["proto"]),
   (⟨"Dart", .cstyle⟩, ["dart"]),
   (⟨"JavaScript", .javascript⟩, ["js", "mjs", "cjs"]),
   (⟨"TypeScript", .javascript⟩, ["ts"]),
   (⟨"JSX", .javascript⟩, ["jsx"]),
   (⟨"TSX", .javascript⟩, ["tsx"]),
   (⟨"PHP", .php⟩, ["php"]),
   (⟨"Perl", .perl⟩, ["pl", "pm", "t"]),
   (⟨"Ruby", .ruby⟩, ["rb"]),
   (⟨"Shell", .shell⟩, ["sh", "bash", "zsh", "ksh"]),
   (⟨"Pascal", .pascal⟩, ["pas"]),
   (⟨"YAML", .yaml⟩, ["yaml", "yml"]),
   (⟨"JSON", .json⟩, ["json"]),
   (⟨"TOML", .toml⟩, ["toml"]),
   (⟨"INI", .ini⟩, ["ini", "cfg", "conf", "properties", "prop", "tfvars"]),
   (⟨"HCL", .hcl⟩, ["hcl", "tf"]),
   (⟨"Makefile", .makefile⟩, ["mk", "mak"]),
   (dockerfile, ["dockerfile"]),
   (⟨"CMake", .cmake⟩, ["cmake"]),
   (⟨"PowerShell", .powershell⟩, ["ps1", "psm1", "psd1"]),
   (⟨"Batch", .batch⟩, ["bat", "cmd"]),
   (⟨"TCL", .tcl⟩, ["tcl"]),
   (⟨"ReStructuredText", .rst⟩, ["rst", "rest"]),
   (⟨"Velocity", .velocity⟩, ["vm", "vtl"]),
   (⟨"Mustache", .mustache⟩, ["mustache"]),
   (⟨"XML", .xml⟩, ["xml", "xsd"]),
   (⟨"HTML", .xml⟩, ["html", "htm", "xhtml"]),
   (⟨"SVG", .xml⟩, ["svg"]),
   (⟨"XSL", .xml⟩, ["xsl", "xslt"]),
   (⟨"Algol", .algol⟩, ["alg", "algol", "a60", "a68"]),
   (⟨"COBOL", .cobol⟩, ["cob", "cbl", "cobol", "cpy"]),
   (⟨"Fortran", .fortranFixed⟩, ["f", "for", "f77"]),
   (⟨"Fortran", .fortranFree⟩, ["f90", "f95", "f03", "f08", "f18"]),
   (⟨"Assembly", .assembly⟩, ["asm", "s"]),
   (dcl, ["com"]),
   (⟨"IPLAN", .iplan⟩, ["ipl"]),
   (⟨"MDHAVERS", .mdhavers⟩, ["braw"])]

/-- The languages with the names that files in them go by. -/
def byFileName : List (Language × List String) :=
  [(⟨"Makefile", .makefile⟩, ["makefile", "gnumakefile", "bsdmakefile"]),
   (dockerfile, ["dockerfile"]),
   (⟨"CMake", .cmake⟩, ["cmakelists.txt"]),
   (⟨"Shell", .shell⟩,
    [".bashrc", ".bash_profile", ".profile", ".zshrc", ".zprofile", ".zshenv", ".kshrc", ".cshrc"])]

/-- The languages with endings of more than one part, which follow some other text. -/
def byEnding : List (Language × List String) :=
  [(⟨"TypeScript", .javascript⟩, [".d.ts"]),
   (⟨"JSON", .json⟩, [".tfvars.json"])]

/-- The language of the first row of a table with a text that fits. -/
def lookUp? (table : List (Language × List String)) (fits : String → Bool) : Option Language :=
  (table.find? fun row => row.2.any fits).map (·.1)

/-- The language of a lower-case file name. -/
def ofLowerName? (name : List Char) : Option Language :=
  let byName := lookUp? byFileName fun known => known.toList == name
  if byName.isSome then byName
  else if startsWith "dockerfile.".toList name then some dockerfile
  else
    let compound := lookUp? byEnding fun ending =>
      endsWith ending.toList name && ending.length < name.length
    if compound.isSome then compound
    else (Name.extension? name).map fun extension =>
      (lookUp? byExtension fun known => known.toList == extension).getD other

/-- The language of a file by its name, as far as the name can tell. -/
def ofFileName? (name : String) : Option Language :=
  ofLowerName? (lower name.toList)

/-- Whether a file has an extension that its content has to confirm. A file with an unknown
extension never has one. -/
def needsConfirmation (name : String) (language : Language) : Bool :=
  Name.extension? (lower name.toList) == some ['c', 'o', 'm'] && language.scanner != .generic

/-- Whether the lines of a file confirm an extension that needs it. A file that cannot be read
confirms nothing. -/
def isConfirmedBy (lines? : Option (List Line)) : Bool :=
  (lines?.bind firstNonblank?).any Dcl.isProcedureLine

/-- The language of a file with the given name and lines, none if the file is not counted. -/
def ofFile? (name : String) (lines? : Option (List Line)) : Option Language :=
  (ofFileName? name).filter fun language =>
    !needsConfirmation name language || isConfirmedBy lines?

/-- The labels of all languages, without repetition. -/
def labels : List String :=
  ((byExtension ++ byFileName ++ byEnding).map fun row => row.1.label).eraseDups.mergeSort
    fun a b => decide (a ≤ b)

/-- The list of languages as it is shown to a user. -/
def listing : String :=
  String.join ("Supported languages:\n" :: labels.map fun label => "  " ++ label ++ "\n")

end Language

end LineCensus
