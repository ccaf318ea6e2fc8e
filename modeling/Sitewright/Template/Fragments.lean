import Sitewright.Template.Basic

/-!
# Section fragments

The code that shows a section, one fixed fragment for each kind. The fragments stand inside a
function that has the section and its props at hand.
-/

namespace Sitewright.Template.Fragment

def hero : Template := .ofLines
  ["return (",
   "  <section",
   "    key=\x7bsection.id\x7d",
   "    className=\"mb-12 rounded-3xl border border-slate-800 bg-slate-900/60 p-8\"",
   "  >",
   "    <h1 className=\"mb-3 text-4xl font-bold tracking-tight\">",
   "      \x7bprops.headline ?? \"Titre principal\"\x7d",
   "    </h1>",
   "    <p className=\"mb-6 text-slate-300\">",
   "      \x7bprops.subheadline ?? \"Sous-titre de présentation.\"\x7d",
   "    </p>",
   "    <div className=\"flex flex-wrap gap-3\">",
   "      \x7bprops.ctaPrimary && (",
   "        <button className=\"rounded-full bg-blue-500 px-4 py-2 text-sm font-medium " ++
     "text-white shadow shadow-blue-500/30 hover:bg-blue-400\">",
   "          \x7bprops.ctaPrimary\x7d",
   "        </button>",
   "      )\x7d",
   "      \x7bprops.ctaSecondary && (",
   "        <button className=\"rounded-full border border-slate-700 px-4 py-2 text-sm " ++
     "text-slate-200 hover:border-slate-500\">",
   "          \x7bprops.ctaSecondary\x7d",
   "        </button>",
   "      )\x7d",
   "    </div>",
   "  </section>",
   ");"]

/-- The hero of a secondary page. -/
def heroCompact : Template := .ofLines
  ["return (",
   "  <section",
   "    key=\x7bsection.id\x7d",
   "    className=\"mb-12 rounded-3xl border border-slate-800 bg-slate-900/60 p-8\"",
   "  >",
   "    <h1 className=\"mb-3 text-4xl font-bold tracking-tight\">",
   "      \x7bprops.headline ?? \"Titre principal\"\x7d",
   "    </h1>",
   "    <p className=\"mb-6 text-slate-300\">",
   "      \x7bprops.subheadline ?? \"Sous-titre de présentation.\"\x7d",
   "    </p>",
   "  </section>",
   ");"]

def features : Template := .ofLines
  ["const items: any[] = Array.isArray(props.items) ? props.items : [];",
   "return (",
   "  <section",
   "    key=\x7bsection.id\x7d",
   "    className=\"mb-10 rounded-3xl border border-slate-800 bg-slate-900/60 p-6\"",
   "  >",
   "    <h2 className=\"mb-4 text-2xl font-semibold\">",
   "      \x7bprops.title ?? \"Nos points forts\"\x7d",
   "    </h2>",
   "    <div className=\"grid gap-4 md:grid-cols-2\">",
   "      \x7bitems.map((item, idx) => (",
   "        <div",
   "          key=\x7bidx\x7d",
   "          className=\"rounded-2xl border border-slate-800 bg-slate-950/60 p-4\"",
   "        >",
   "          <h3 className=\"text-sm font-medium\">\x7bitem.title\x7d</h3>",
   "          <p className=\"mt-1 text-xs text-slate-300\">\x7bitem.description\x7d</p>",
   "        </div>",
   "      ))\x7d",
   "    </div>",
   "  </section>",
   ");"]

def services : Template := .ofLines
  ["const items: any[] = Array.isArray(props.items) ? props.items : [];",
   "return (",
   "  <section",
   "    key=\x7bsection.id\x7d",
   "    className=\"mb-10 rounded-3xl border border-slate-800 bg-slate-900/60 p-6\"",
   "  >",
   "    <h2 className=\"mb-4 text-2xl font-semibold\">",
   "      \x7bprops.title ?? \"Nos services\"\x7d",
   "    </h2>",
   "    <div className=\"grid gap-4 md:grid-cols-2\">",
   "      \x7bitems.map((item, idx) => (",
   "        <div",
   "          key=\x7bidx\x7d",
   "          className=\"rounded-2xl border border-slate-800 bg-slate-950/60 p-4\"",
   "        >",
   "          <h3 className=\"text-sm font-medium\">\x7bitem.name\x7d</h3>",
   "          <p className=\"mt-1 text-xs text-slate-300\">\x7bitem.description\x7d</p>",
   "        </div>",
   "      ))\x7d",
   "    </div>",
   "  </section>",
   ");"]

def testimonials : Template := .ofLines
  ["const items: any[] = Array.isArray(props.items) ? props.items : [];",
   "return (",
   "  <section",
   "    key=\x7bsection.id\x7d",
   "    className=\"mb-10 rounded-3xl border border-slate-800 bg-slate-900/60 p-6\"",
   "  >",
   "    <h2 className=\"mb-4 text-2xl font-semibold\">",
   "      \x7bprops.title ?? \"Ils nous font confiance\"\x7d",
   "    </h2>",
   "    <div className=\"grid gap-4 md:grid-cols-2\">",
   "      \x7bitems.map((item, idx) => (",
   "        <figure",
   "          key=\x7bidx\x7d",
   "          className=\"rounded-2xl border border-slate-800 bg-slate-950/60 p-4\"",
   "        >",
   "          <blockquote className=\"text-sm " ++
     "text-slate-200\">“\x7bitem.quote\x7d”</blockquote>",
   "          <figcaption className=\"mt-2 text-xs text-slate-400\">",
   "            \x7bitem.name\x7d",
   "            \x7bitem.role && <span> · \x7bitem.role\x7d</span>\x7d",
   "          </figcaption>",
   "        </figure>",
   "      ))\x7d",
   "    </div>",
   "  </section>",
   ");"]

def pricing : Template := .ofLines
  ["const plans: any[] = Array.isArray(props.plans) ? props.plans : [];",
   "return (",
   "  <section",
   "    key=\x7bsection.id\x7d",
   "    className=\"mb-10 rounded-3xl border border-slate-800 bg-slate-900/60 p-6\"",
   "  >",
   "    <h2 className=\"mb-4 text-2xl font-semibold\">",
   "      \x7bprops.title ?? \"Nos offres\"\x7d",
   "    </h2>",
   "    <div className=\"grid gap-4 md:grid-cols-3\">",
   "      \x7bplans.map((plan, idx) => (",
   "        <div",
   "          key=\x7bidx\x7d",
   "          className=\x7b",
   "            \"rounded-2xl border p-4 \" +",
   "            (plan.highlight",
   "              ? \"border-blue-500 bg-blue-500/10\"",
   "              : \"border-slate-800 bg-slate-950/60\")",
   "          \x7d",
   "        >",
   "          <h3 className=\"text-sm font-medium\">\x7bplan.name\x7d</h3>",
   "          <p className=\"mt-1 text-lg font-semibold\">\x7bplan.price\x7d</p>",
   "          <ul className=\"mt-2 space-y-1 text-xs text-slate-300\">",
   "            \x7b(plan.features || []).map((f: string, i: number) => (",
   "              <li key=\x7bi\x7d>• \x7bf\x7d</li>",
   "            ))\x7d",
   "          </ul>",
   "        </div>",
   "      ))\x7d",
   "    </div>",
   "  </section>",
   ");"]

def faq : Template := .ofLines
  ["const items: any[] = Array.isArray(props.items) ? props.items : [];",
   "return (",
   "  <section",
   "    key=\x7bsection.id\x7d",
   "    className=\"mb-10 rounded-3xl border border-slate-800 bg-slate-900/60 p-6\"",
   "  >",
   "    <h2 className=\"mb-4 text-2xl font-semibold\">\x7bprops.title ?? \"FAQ\"\x7d</h2>",
   "    <div className=\"space-y-3\">",
   "      \x7bitems.map((item, idx) => (",
   "        <div key=\x7bidx\x7d className=\"rounded-xl bg-slate-950/60 p-3\">",
   "          <p className=\"text-xs font-medium text-slate-100\">\x7bitem.question\x7d</p>",
   "          <p className=\"mt-1 text-xs text-slate-300\">\x7bitem.answer\x7d</p>",
   "        </div>",
   "      ))\x7d",
   "    </div>",
   "  </section>",
   ");"]

def cta : Template := .ofLines
  ["return (",
   "  <section",
   "    key=\x7bsection.id\x7d",
   "    className=\"mb-10 rounded-3xl border border-blue-500/40 bg-blue-500/10 p-6 " ++
     "text-center\"",
   "  >",
   "    <h2 className=\"mb-2 text-2xl font-semibold\">\x7bprops.title\x7d</h2>",
   "    <p className=\"mb-4 text-sm text-blue-100\">\x7bprops.text\x7d</p>",
   "    \x7bprops.buttonLabel && (",
   "      <button className=\"rounded-full bg-blue-500 px-5 py-2 text-sm font-medium " ++
     "text-white shadow shadow-blue-500/40 hover:bg-blue-400\">",
   "        \x7bprops.buttonLabel\x7d",
   "      </button>",
   "    )\x7d",
   "  </section>",
   ");"]

def contact : Template := .ofLines
  ["return (",
   "  <section",
   "    key=\x7bsection.id\x7d",
   "    className=\"mb-10 rounded-3xl border border-slate-800 bg-slate-900/60 p-6\"",
   "  >",
   "    <h2 className=\"mb-2 text-2xl font-semibold\">",
   "      \x7bprops.title ?? \"Contact\"\x7d",
   "    </h2>",
   "    <p className=\"mb-4 text-sm text-slate-300\">",
   "      \x7bprops.description ?? \"Laisse-nous un message, on te répond rapidement.\"\x7d",
   "    </p>",
   "    <div className=\"space-y-2 text-xs text-slate-400\">",
   "      <p>• Formulaire de contact à intégrer ici</p>",
   "      <p>• Coordonnées, réseaux sociaux, etc.</p>",
   "    </div>",
   "  </section>",
   ");"]

def gallery : Template := .ofLines
  ["const images: any[] = Array.isArray(props.images) ? props.images : [];",
   "return (",
   "  <section",
   "    key=\x7bsection.id\x7d",
   "    className=\"mb-10 rounded-3xl border border-slate-800 bg-slate-900/60 p-6\"",
   "  >",
   "    <h2 className=\"mb-4 text-2xl font-semibold\">",
   "      \x7bprops.title ?? \"Galerie\"\x7d",
   "    </h2>",
   "    <div className=\"grid gap-4 md:grid-cols-3\">",
   "      \x7bimages.map((img, idx) => (",
   "        <div",
   "          key=\x7bidx\x7d",
   "          className=\"flex h-32 items-center justify-center rounded-2xl bg-slate-950/60 " ++
     "text-[10px] text-slate-400\"",
   "        >",
   "          \x7bimg.alt ?? \"Image de projet\"\x7d",
   "        </div>",
   "      ))\x7d",
   "    </div>",
   "  </section>",
   ");"]

/-- A section of any other type: its type and its props as they are. -/
def generic : Template := .ofLines
  ["return (",
   "  <section",
   "    key=\x7bsection.id\x7d",
   "    className=\"mb-6 rounded-2xl border border-slate-800 bg-slate-900/60 p-4 text-xs " ++
     "text-slate-300\"",
   "  >",
   "    <p className=\"mb-1 font-semibold\">\x7bsection.type\x7d</p>",
   "    <pre className=\"overflow-x-auto rounded bg-slate-950/80 p-2\">",
   "      \x7bJSON.stringify(section.props, null, 2)\x7d",
   "    </pre>",
   "  </section>",
   ");"]

end Sitewright.Template.Fragment
