import Sitewright.Dispatch
import Sitewright.Journal.Entry
import Sitewright.Prompt
import Sitewright.Text.Slug

/-!
# Generated projects

`Registry.generate` writes the files of a project that shows the site of a schema. The schema itself
goes into one file and the name of the site into two more; all other text depends on the registry
alone.
-/

namespace Sitewright

/-- The files of a project by their paths, in the order in which they are written. -/
abbrev FileSet := List (String × String)

/-- The name without blanks around it, or what stands for a name that is blank. -/
def nameOr (fallback name : String) : String :=
  match Text.strip name.toList with
  | [] => fallback
  | stripped => String.ofList stripped

def packageName (siteName : String) : String :=
  packageSlug (nameOr "generated-site" siteName)

namespace Generation

def latest (packages : List String) : Json :=
  .object (packages.map fun name => (name, .string "latest"))

def scripts : List String := ["dev", "build", "start", "lint"]

def package (siteName : String) : Json :=
  .object
    [("name", .string (packageName siteName)),
     ("version", .string "0.1.0"),
     ("private", .bool true),
     ("scripts", .object (scripts.map fun name => (name, .string ("next " ++ name)))),
     ("dependencies", latest ["next", "react", "react-dom"]),
     ("devDependencies", latest
        ["typescript", "@types/react", "@types/node", "tailwindcss", "autoprefixer", "postcss",
         "eslint", "eslint-config-next"])]

/-- The files that depend on nothing but the name of the site, and their templates. -/
def boilerplate : List (String × String) :=
  [("tsconfig.json", "project/tsconfig.json.j2"),
   ("next-env.d.ts", "project/next-env.d.ts.j2"),
   ("next.config.mjs", "project/next.config.mjs.j2"),
   ("tailwind.config.ts", "project/tailwind.config.ts.j2"),
   ("postcss.config.mjs", "project/postcss.config.mjs.j2"),
   ("app/globals.css", "project/app/globals.css.j2"),
   ("app/layout.tsx", "project/app/layout.tsx.j2")]

def boilerplateFile (siteName : String) (file : String × String) :
    Except Template.Error (String × String) :=
  (Template.renderAt file.2 [("site_name", .string siteName)]).map (file.1, ·)

def homePage (registry : Registry) : Except Template.Error String := do
  Template.renderAt "project/app/page.tsx.j2"
    [("dispatcher", .string (← registry.dispatcher .full)),
     ("empty_message", .string "Aucun contenu pour le moment.")]

def slugPage (registry : Registry) : Except Template.Error String := do
  Template.renderAt "project/app/slug_page.tsx.j2"
    [("dispatcher", .string (← registry.dispatcher .degraded)),
     ("not_found_message", .string "Page introuvable.")]

def schemaModule (schema : Schema) : Except Template.Error String :=
  Template.renderAt "project/lib/websiteSchema.ts.j2" [("schema_source", .string schema.source)]

end Generation

def Registry.generate (registry : Registry) (schema : Schema) :
    Except Template.Error FileSet := do
  let boilerplate ← Generation.boilerplate.mapM (Generation.boilerplateFile schema.name)
  let homePage ← Generation.homePage registry
  let slugPage ← Generation.slugPage registry
  let schemaModule ← Generation.schemaModule schema
  return [("package.json", (Generation.package schema.name).print .asciiBlock)] ++ boilerplate ++
    [("app/page.tsx", homePage), ("app/[slug]/page.tsx", slugPage),
     ("lib/websiteSchema.ts", schemaModule)]

/-- What generation reports when it has succeeded. -/
def Schema.generationReport (schema : Schema) (files : FileSet) : Entry where
  level := .info
  source := .generation
  message := "Generated project files"
  fields :=
    [("website", .string schema.name),
     ("files_count", .int files.length),
     ("pages_count", .int schema.pages.length),
     ("home_page", .ofOption (schema.homePage?.map (·.slug)))]

end Sitewright
