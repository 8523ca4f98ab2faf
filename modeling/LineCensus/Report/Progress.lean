/-
# Progress

A running count of files and lines, and how fast they come. While a scan goes on a
line about it is due whenever a second has passed since the last one; at its end there
is a summary. The clock is not read here: whoever reports progress says what time it is.
-/

import LineCensus.Report.Layout

namespace LineCensus

open Text Report

/-- What has been processed, and when that was last reported. -/
structure Progress where
  /-- Whether there is anybody to see lines that overwrite each other. -/
  enabled : Bool
  started : Binary64
  lastUpdate : Binary64
  files : Nat
  lines : Int
deriving DecidableEq, Repr

namespace Progress

/-- Progress before the first file. -/
def start (enabled : Bool) (now : Binary64) : Progress := ⟨enabled, now, now, 0, 0⟩

/-- A count and how many of them there were in a second. -/
def countAndRate (count : Int) (elapsed : Binary64) (what : String) : String :=
  integerText count ++ what ++ "(" ++ (rate count elapsed).fixed 1

/-- The line about the progress so far, nothing if nobody sees it. -/
def line (progress : Progress) (now : Binary64) : String :=
  if progress.enabled then
    let elapsed := now.sub progress.started
    "\rProcessed " ++ countAndRate progress.files elapsed " files " ++ " files/sec) and " ++
      countAndRate progress.lines elapsed " lines " ++ " lines/sec)..."
  else ""

/-- Whether a line about the progress is due. -/
def isDue (progress : Progress) (now : Binary64) : Bool :=
  (Binary64.ofInt 1).atMost (now.sub progress.lastUpdate)

/-- Counts one more file, and tells what is to be written about it. -/
def update (progress : Progress) (now : Binary64) (lines : Int) : Progress × String :=
  let counted := { progress with files := progress.files + 1, lines := progress.lines + lines }
  if counted.isDue now then ({ counted with lastUpdate := now }, counted.line now)
  else (counted, "")

/-- The summary at the end. -/
def summary (progress : Progress) (now : Binary64) : String :=
  let elapsed := now.sub progress.started
  "\n\nPerformance Summary:\nTotal time: " ++ elapsed.fixed 2 ++ " seconds\nFiles processed: " ++
    countAndRate progress.files elapsed " " ++ " files/sec)\nLines processed: " ++
    countAndRate progress.lines elapsed " " ++ " lines/sec)\n"

end Progress

end LineCensus
