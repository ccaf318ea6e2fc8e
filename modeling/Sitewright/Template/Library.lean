import Sitewright.Template.Fragments
import Sitewright.Template.Pages
import Sitewright.Template.Scaffold

/-!
# The template library

The templates by their paths. A path is looked up by its parts: empty parts and single dots do not
count, and a path that goes upwards leads nowhere.
-/

namespace Sitewright.Template

def library : List (String × Template) :=
  [("dispatcher.tsx.j2", Pages.dispatcher),
   ("project/tsconfig.json.j2", Scaffold.compilerConfig),
   ("project/next-env.d.ts.j2", Scaffold.environment),
   ("project/next.config.mjs.j2", Scaffold.frameworkConfig),
   ("project/tailwind.config.ts.j2", Scaffold.stylesConfig),
   ("project/postcss.config.mjs.j2", Scaffold.postprocessorConfig),
   ("project/app/globals.css.j2", Scaffold.styles),
   ("project/app/layout.tsx.j2", Scaffold.layout),
   ("project/app/page.tsx.j2", Pages.homePage),
   ("project/app/slug_page.tsx.j2", Pages.slugPage),
   ("project/lib/websiteSchema.ts.j2", Pages.schemaModule),
   ("sections/hero.tsx.j2", Fragment.hero),
   ("sections/hero_compact.tsx.j2", Fragment.heroCompact),
   ("sections/features.tsx.j2", Fragment.features),
   ("sections/services.tsx.j2", Fragment.services),
   ("sections/testimonials.tsx.j2", Fragment.testimonials),
   ("sections/pricing.tsx.j2", Fragment.pricing),
   ("sections/faq.tsx.j2", Fragment.faq),
   ("sections/cta.tsx.j2", Fragment.cta),
   ("sections/contact.tsx.j2", Fragment.contact),
   ("sections/gallery.tsx.j2", Fragment.gallery),
   ("sections/generic.tsx.j2", Fragment.generic)]

/-- The parts of a path that lead somewhere. -/
def pathParts (path : String) : List String :=
  ((Text.split '/' path.toList).map String.ofList).filter fun part => part != "" && part != "."

def find? (path : String) : Option Template :=
  if (pathParts path).contains ".." then none
  else library.lookup ("/".intercalate (pathParts path))

/-- Fills in the template at a path. -/
def renderAt (path : String) (context : Fields) : Except Error String :=
  match find? path with
  | some template => template.render context
  | none => .error (.notFound path)

end Sitewright.Template
