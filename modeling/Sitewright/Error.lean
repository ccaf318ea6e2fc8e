import Sitewright.Format

/-!
# Errors

The causes for which the builder refuses to do its work, and their wording.
-/

namespace Sitewright

inductive SiteError where
  | projectNotFound (id : String)
  | pageNotFound (slug : String)
  | sectionNotFound (id : String)
  | duplicatePage (slug : String)
  | invalidTitle (title : String)
  | unknownSection (type : String)
  /-- A default text cannot be filled in. -/
  | unfillable (fault : Format.Fault)
  /-- A rule that fills list items has no phrase for the position of an item. -/
  | noPhrase
  /-- The configuration lacks a default colour. -/
  | missingColor (name : String)
  /-- No draw within the patience of the id source gave a free id. -/
  | noFreeId
  deriving DecidableEq, Repr

namespace SiteError

def quote (text : String) : String :=
  String.ofList (Text.quoted text.toList)

def message : SiteError → String
  | .projectNotFound id => "Project not found: " ++ id
  | .pageNotFound slug => "Page not found: " ++ slug
  | .sectionNotFound id => "Section not found: " ++ id
  | .duplicatePage slug => "A page with slug '" ++ slug ++ "' already exists"
  | .invalidTitle title => "Cannot derive a page slug from title: " ++ quote title
  | .unknownSection type => "Unknown section type: " ++ type
  | .unfillable fault => fault.message
  | .noPhrase => "list index out of range"
  | .missingColor name => quote name
  | .noFreeId => "no free section id"

end SiteError

end Sitewright
