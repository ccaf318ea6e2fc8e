import Sitewright.Text.Basic
import Sitewright.Text.Encoding

/-!
# Routes

What a request can ask of the service, by method and path. The path is decoded first and split at
its slashes then, so that an encoded slash separates too. A part of a path that names a project, a
page or a section is never empty. A line feed at the end of a path does not count unless it belongs
to such a part.
-/

namespace Sitewright

namespace Path

def hexDigit? (c : Char) : Option Nat :=
  if '0' ≤ c && c ≤ '9' then some (c.toNat - 48)
  else if 'a' ≤ c && c ≤ 'f' then some (c.toNat - 87)
  else if 'A' ≤ c && c ≤ 'F' then some (c.toNat - 55)
  else none

/-- The bytes of a path; a percent sign without two hexadecimal digits stands for itself. -/
def bytes : List Char → List Nat
  | [] => []
  | '%' :: high :: low :: rest =>
      match hexDigit? high, hexDigit? low with
      | some high, some low => (16 * high + low) :: bytes rest
      | _, _ => 0x25 :: bytes (high :: low :: rest)
  | c :: rest => Text.utf8Bytes c ++ bytes rest

def decode (path : String) : List Char :=
  Text.decodeUtf8 (bytes path.toList)

/-- The parts of a path after its leading slash. -/
def segments (path : String) : List String :=
  match Text.split '/' (decode path) with
  | [] :: segments => segments.map String.ofList
  | _ => []

end Path

inductive Method where
  | get
  | post
  | put
  | patch
  | delete
  deriving DecidableEq, Repr

def Method.ofName? : String → Option Method
  | "GET" => some .get
  | "POST" => some .post
  | "PUT" => some .put
  | "PATCH" => some .patch
  | "DELETE" => some .delete
  | _ => none

inductive Route where
  | health
  | databaseHealth
  | sectionTypes
  | listProjects
  | createProject
  | readSchema (project : String)
  | writeSchema (project : String)
  | generateSchema
  | generateContent
  | generateCode (project : String)
  | addPage (project : String)
  | addSection (project slug : String)
  | removeSection (project slug id : String)
  | updateProps (project slug id : String)
  deriving DecidableEq, Repr

namespace Route

/-- The last part of a path without a line feed at its end. -/
def trimLast (segment : String) : String :=
  if segment.toList.getLast? = some '\n' then String.ofList segment.toList.dropLast else segment

/-- The routes of a path, by their methods. -/
def ofSegments (segments : List String) : List (Method × Route) :=
  match segments with
  | ["health"] => [(.get, .health)]
  | ["api", "health", "db"] => [(.get, .databaseHealth)]
  | ["api", "section-types"] => [(.get, .sectionTypes)]
  | ["api", "projects"] => [(.get, .listProjects), (.post, .createProject)]
  | ["api", "generate", "schema"] => [(.post, .generateSchema)]
  | ["api", "generate", "content"] => [(.post, .generateContent)]
  | ["api", "projects", project, "schema"] =>
      [(.get, .readSchema project), (.put, .writeSchema project)]
  | ["api", "projects", project, "generate", "code"] => [(.post, .generateCode project)]
  | ["api", "projects", project, "pages"] => [(.post, .addPage project)]
  | ["api", "projects", project, "pages", slug, "sections"] =>
      [(.post, .addSection project slug)]
  | ["api", "projects", project, "pages", slug, "sections", id, "props"] =>
      [(.patch, .updateProps project slug id)]
  | _ => []

/-- The routes whose path ends in the id of a section. -/
def ofSectionSegments (segments : List String) : List (Method × Route) :=
  match segments with
  | ["api", "projects", project, "pages", slug, "sections", id] =>
      [(.delete, .removeSection project slug id)]
  | _ => []

/-- All routes of a path whose parts are given. -/
def find (segments : List String) : List (Method × Route) :=
  if segments.contains "" then []
  else
    ofSectionSegments segments ++
      match segments.getLast? with
      | some last => ofSegments (segments.dropLast ++ [trimLast last])
      | none => []

/-- The parts of a path without empty ones at its end. -/
def dropEmptyEnd (segments : List String) : List String :=
  (segments.reverse.dropWhile (· == "")).reverse

/-- All routes of a path. -/
def ofPath (path : String) : List (Method × Route) :=
  find (Path.segments path)

/-- Whether a path would have routes without the slashes at its end. -/
def leadsOn (path : String) : Bool :=
  !(find (dropEmptyEnd (Path.segments path))).isEmpty

end Route

end Sitewright
