import Sitewright.Text.Basic
import Sitewright.Text.Lower

/-!
# Slugs

`slugify` makes the slug of a project or a page: the runs of letters a to z and digits in the
lower-case text, joined by single dashes. `packageSlug`, for package and archive names, keeps the
length of the lower-case text and puts a dash in the place of every other character.
-/

namespace Sitewright

namespace Text

def isSlugChar (c : Char) : Bool :=
  ('a' ≤ c && c ≤ 'z') || ('0' ≤ c && c ≤ '9')

/-- Every run of other characters becomes one dash; `inGap` tells that the dash of the present run
is written. -/
def dashGaps (inGap : Bool) : List Char → List Char
  | [] => []
  | c :: rest =>
      if isSlugChar c then c :: dashGaps false rest
      else if inGap then dashGaps true rest
      else '-' :: dashGaps true rest

def slug (text : List Char) : List Char :=
  trimWhile (· == '-') (dashGaps false (strip (lower text)))

def dashOthers (text : List Char) : List Char :=
  text.map fun c => if isSlugChar c || c == '-' then c else '-'

end Text

def slugify (text : String) : String :=
  String.ofList (Text.slug text.toList)

def packageSlug (text : String) : String :=
  String.ofList (Text.dashOthers (Text.lower text.toList))

end Sitewright
