import Sitewright.Template.Basic

/-!
# Pages

The templates of the two pages, of the module that holds the schema, and of the function that
chooses the code of a section by its type.
-/

namespace Sitewright.Template.Pages

/-- Asks for the type of a section, one kind after the other; all other types take the fallback. -/
def dispatcher : Template :=
  [.block
     ["function renderSection(section: any) \x7b",
      "  const type = section.type;",
      "  const props = section.props || \x7b\x7d;"],
   .each "branch" "branches"
     [.text "\n  if (type === ",
      .literal (.attribute "branch" "kind"),
      .block
        [") \x7b"],
      .indented 4 (.attribute "branch" "body"),
      .block
        ["",
         "  \x7d"]],
   .text "\n",
   .indented 2 (.var "fallback"),
   .block
     ["",
      "\x7d"]]

def homePage : Template :=
  [.block
     ["import \x7b websiteSchema \x7d from \"../lib/websiteSchema\";",
      ""],
   .plain (.var "dispatcher"),
   .block
     ["",
      "",
      "export default function Page() \x7b",
      "  const pages: any[] = websiteSchema.website.pages || [];",
      "  const homePage =",
      "    pages.find((p) => p.slug === \"home\") || pages[0] || null;",
      "",
      "  if (!homePage) \x7b",
      "    return (",
      "      <div className=\"text-sm text-slate-300\">"],
   .text "        ",
   .plain (.var "empty_message"),
   .block
     ["",
      "      </div>",
      "    );",
      "  \x7d",
      "",
      "  return (",
      "    <div className=\"space-y-6\">",
      "      <header className=\"mb-6 border-b border-slate-800 pb-4\">",
      "        <h1 className=\"text-3xl font-semibold tracking-tight\">",
      "          \x7bhomePage.title\x7d",
      "        </h1>",
      "        <p className=\"mt-1 text-xs text-slate-400\">",
      "          Site généré automatiquement par ton SaaS.",
      "        </p>",
      "      </header>",
      "",
      "      \x7bhomePage.sections.map((section: any) => renderSection(section))\x7d",
      "    </div>",
      "  );",
      "\x7d"]]

def slugPage : Template :=
  [.block
     ["import \x7b websiteSchema \x7d from \"../../lib/websiteSchema\";",
      ""],
   .plain (.var "dispatcher"),
   .block
     ["",
      "",
      "export default function Page(\x7b params \x7d: \x7b params: \x7b slug: string \x7d " ++
        "\x7d) \x7b",
      "  const pages: any[] = websiteSchema.website.pages || [];",
      "  const page =",
      "    pages.find((p) => p.slug === params.slug) || null;",
      "",
      "  if (!page) \x7b",
      "    return (",
      "      <div className=\"space-y-2 text-sm text-slate-300\">"],
   .text "        <p>",
   .plain (.var "not_found_message"),
   .block
     ["</p>",
      "        <p className=\"text-xs text-slate-500\">",
      "          Vérifie le slug ou regénère le site.",
      "        </p>",
      "      </div>",
      "    );",
      "  \x7d",
      "",
      "  return (",
      "    <div className=\"space-y-6\">",
      "      <header className=\"mb-6 border-b border-slate-800 pb-4\">",
      "        <h1 className=\"text-3xl font-semibold tracking-tight\">",
      "          \x7bpage.title\x7d",
      "        </h1>",
      "        <p className=\"mt-1 text-xs text-slate-400\">",
      "          Page générée automatiquement à partir de ton schema.",
      "        </p>",
      "      </header>",
      "",
      "      \x7bpage.sections.map((section: any) => renderSection(section))\x7d",
      "    </div>",
      "  );",
      "\x7d"]]

def schemaModule : Template :=
  [.block
     ["// Generated by Site Builder"],
   .text "export const websiteSchema = ",
   .plain (.var "schema_source"),
   .block
     [" as const;",
      "",
      "export type WebsiteSchema = typeof websiteSchema;"]]

end Sitewright.Template.Pages
