/-!
# Texts in parts

A text is worked on as the list of its characters. Here are the blank characters and those of a set
of code points, the cuts of a text at a mark and at its line boundaries, and replacement. A cut at a
mark gives one piece more than there are marks, and the pieces with the marks between them are the
text; a line boundary at the very end opens no further line.
-/

namespace Sitewright.Text

/-! ## Kinds of characters -/

/-- A set of characters as closed intervals of code points. -/
structure Ranges where
  intervals : List (Nat × Nat)

def Ranges.contains (ranges : Ranges) (c : Char) : Bool :=
  ranges.intervals.any fun (low, high) => low ≤ c.toNat && c.toNat ≤ high

/-- The white space of Unicode. -/
def isSpace (c : Char) : Bool :=
  let code := c.toNat
  (0x09 ≤ code && code ≤ 0x0D) || code == 0x20 || code == 0x85 || code == 0xA0 ||
    code == 0x1680 || (0x2000 ≤ code && code ≤ 0x200A) || code == 0x2028 || code == 0x2029 ||
    code == 0x202F || code == 0x205F || code == 0x3000

def isSeparator (c : Char) : Bool :=
  0x1C ≤ c.toNat && c.toNat ≤ 0x1F

/-- White space or one of the four separators U+001C to U+001F. -/
def isBlank (c : Char) : Bool :=
  isSpace c || isSeparator c

/-! ## Ends -/

/-- The text without its last characters that satisfy `p`. -/
def dropEndWhile (p : Char → Bool) (text : List Char) : List Char :=
  (text.reverse.dropWhile p).reverse

/-- The text without its first and last characters that satisfy `p`. -/
def trimWhile (p : Char → Bool) (text : List Char) : List Char :=
  dropEndWhile p (text.dropWhile p)

def strip (text : List Char) : List Char :=
  trimWhile isBlank text

def trimSpace (text : List Char) : List Char :=
  trimWhile isSpace text

/-! ## Cuts -/

/-- Puts `c` in front of the first piece. -/
def consFirst (c : Char) : List (List Char) → List (List Char)
  | [] => [[c]]
  | piece :: rest => (c :: piece) :: rest

def split (mark : Char) : List Char → List (List Char)
  | [] => [[]]
  | c :: rest => if c = mark then [] :: split mark rest else consFirst c (split mark rest)

def isLineEnd (c : Char) : Bool :=
  let code := c.toNat
  (0x0A ≤ code && code ≤ 0x0D) || (0x1C ≤ code && code ≤ 0x1E) || code == 0x85 ||
    code == 0x2028 || code == 0x2029

/-- A line ends at a line feed, at a carriage return alone or before a line feed, and at the other
boundaries of Unicode. -/
def lines : List Char → List (List Char)
  | [] => []
  | '\r' :: '\n' :: rest => [] :: lines rest
  | c :: rest => if isLineEnd c then [] :: lines rest else consFirst c (lines rest)

def joinLines (texts : List (List Char)) : List Char :=
  List.intercalate ['\n'] texts

/-- The text with a line feed added, its lines set `width` blanks further in, but for empty ones
after the first. -/
def indent (width : Nat) (text : List Char) : List Char :=
  let margin := List.replicate width ' '
  match lines (text ++ ['\n']) with
  | [] => margin
  | first :: rest =>
      joinLines ((margin ++ first) ::
        rest.map fun line => if line.isEmpty then line else margin ++ line)

/-! ## Replacement -/

/-- Leaves out `skip` characters and then replaces from left to right in one pass, so that what is
put in is not searched again. -/
def replaceFrom (pattern replacement : List Char) : (skip : Nat) → List Char → List Char
  | _, [] => []
  | skip + 1, _ :: rest => replaceFrom pattern replacement skip rest
  | 0, c :: rest =>
      if pattern.isPrefixOf (c :: rest) then
        replacement ++ replaceFrom pattern replacement (pattern.length - 1) rest
      else c :: replaceFrom pattern replacement 0 rest

/-- Replaces every occurrence of a pattern that is not empty. -/
def replaceAll (pattern replacement text : List Char) : List Char :=
  replaceFrom pattern replacement 0 text

end Sitewright.Text
