import Sitewright.Generation

/-!
# Project archives

A generated project is handed out as a zip archive. What an archive shows is the name under which it
is saved and the entries it holds; the name of an entry ends before its first NUL character, and an
entry without a name cannot be written. Nor can a name or a text that is not whole, as both are
written in UTF-8.
-/

namespace Sitewright

structure Archive where
  filename : String
  entries : FileSet
  deriving Repr

namespace Archive

def mediaType : String := "application/zip"

def filenameFor (siteName : String) : String :=
  packageSlug (nameOr "site-generated" siteName) ++ ".zip"

/-- The header that offers the archive for saving. -/
def contentDisposition (archive : Archive) : String :=
  "attachment; filename=\"" ++ archive.filename ++ "\""

def entryName (path : String) : String :=
  String.ofList (path.toList.takeWhile fun c => c.toNat != 0)

/-- The entries of an archive of the given files, or nothing if one of them has no name. -/
def entries? (files : FileSet) : Option FileSet :=
  files.mapM fun (path, text) =>
    if entryName path = "" then none else some (entryName path, text)

/-- The archive of a generated project. -/
def package? (schema : Schema) (files : FileSet) : Option Archive :=
  (entries? files).map (⟨filenameFor schema.name, ·⟩)

def isWritable (entry : String × String) : Bool :=
  !(Text.hasHalf entry.1.toList || Text.hasHalf entry.2.toList)

/-- The archive, if all that it holds can be written. -/
def written? (archive : Archive) : Option Archive :=
  if archive.entries.all isWritable then some archive else none

end Archive

end Sitewright
