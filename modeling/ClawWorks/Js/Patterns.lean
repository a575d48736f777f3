import ClawWorks.Js.LowerCase
import ClawWorks.Lib.Matcher

/-!
# Regular expressions

Pieces of regular expressions with the `i` flag.
-/

namespace ClawWorks

open Matcher

/-- Units are the same up to the case of ASCII letters. -/
def sameLetter (a b : UInt16) : Bool :=
  asciiLower a == asciiLower b

def keyword (w : String) : Matcher UInt16 :=
  word sameLetter (js w)

/-- `re.test(s)` for a pattern without anchors. -/
def testAnywhere (m : Matcher UInt16) (s : JsString) : Bool :=
  s.tails.any fun rest => !(m rest).isEmpty

end ClawWorks
