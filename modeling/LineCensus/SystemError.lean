/-
# Failures of the file system

What the file system can answer instead of doing what it is asked to. Each failure
names the path it concerns. Besides the real ones there are simulated ones, which a
user can ask for to see how the program takes them.
-/

import LineCensus.Path
import LineCensus.Text.Quoted

namespace LineCensus

/-- Which operation a simulated failure stands in for. -/
inductive Fault where
  | metadata
  | readDirectory
  | fileType
deriving DecidableEq, Repr

def Fault.label : Fault → String
  | metadata => "metadata"
  | readDirectory => "read_dir"
  | fileType => "file type"

/-- A failed operation on a path. -/
inductive SystemError where
  | notFound (path : Path)
  | permissionDenied (path : Path)
  | isDirectory (path : Path)
  | notDirectory (path : Path)
  | tooManyLinks (path : Path)
  | simulated (fault : Fault) (path : Path)
deriving DecidableEq

def SystemError.message : SystemError → String
  | notFound path => "[Errno 2] No such file or directory: " ++ Text.quoted path.toString
  | permissionDenied path => "[Errno 13] Permission denied: " ++ Text.quoted path.toString
  | isDirectory path => "[Errno 21] Is a directory: " ++ Text.quoted path.toString
  | notDirectory path => "[Errno 20] Not a directory: " ++ Text.quoted path.toString
  | tooManyLinks path =>
    "[Errno 40] Too many levels of symbolic links: " ++ Text.quoted path.toString
  | simulated fault path => "simulated " ++ fault.label ++ " failure for " ++ path.toString

end LineCensus
