import Sitewright.Brief
import Sitewright.Json.Printer
import Sitewright.Schema.Basic

/-!
# Prompts

Two texts for a language model: `Brief.schemaPrompt` asks for the structure of a site and
`Schema.contentPrompt` for its final texts. A line about an entry that is missing or empty is left
out, and the second prompt ends with the schema itself.
-/

namespace Sitewright

/-- The text of a schema in the generated project, with every entry on a line of its own. -/
def Schema.source (schema : Schema) : String :=
  schema.toJson.print .block

namespace Prompt

def lines (lines : List String) : String :=
  "\n".intercalate lines

/-- A line about a text that is neither missing nor empty. -/
def optionalLine (label : String) : Option String → List String
  | some text => if text.isEmpty then [] else [label ++ text]
  | none => []

def optionalList (label : String) (texts : List String) : List String :=
  if texts.isEmpty then [] else [label ++ ", ".intercalate texts]

def schemaShape : List String :=
  ["\x7b",
   "  \"website\": \x7b",
   "    \"name\": \"Nom du site\",",
   "    \"colors\": \x7b",
   "      \"primary\": \"#3b82f6\",",
   "      \"secondary\": \"#0f172a\"",
   "    \x7d,",
   "    \"pages\": [",
   "      \x7b",
   "        \"slug\": \"home\",",
   "        \"title\": \"Accueil\",",
   "        \"sections\": [",
   "          \x7b",
   "            \"id\": \"sec-hero-1\",",
   "            \"type\": \"hero\",",
   "            \"props\": \x7b\x7d",
   "          \x7d",
   "        ]",
   "      \x7d",
   "    ]",
   "  \x7d",
   "\x7d"]

def kindNames : String :=
  ", ".intercalate (SectionKind.all.map fun kind => "\"" ++ kind.name ++ "\"")

def sectionRules : List String :=
  ["- hero.props : headline (6 à 12 mots), subheadline (1 à 2 phrases), " ++
     "ctaPrimary et ctaSecondary (2 à 4 mots).",
   "- features.props : title orienté bénéfice, items (3 à 6) avec title et description.",
   "- services.props : title, items (3 à 6) avec name et description (résultat + approche).",
   "- testimonials.props : title, items (2 à 4) avec quote, name et role réalistes.",
   "- pricing.props : title, plans (2 à 4) avec price (\"Sur devis\" si inconnu) " ++
     "et features (4 à 7).",
   "- faq.props : title, items (4 à 7) avec question et answer rassurante.",
   "- cta.props : title (4 à 8 mots), text (1 à 2 phrases), buttonLabel.",
   "- contact.props : title, description (délais de réponse sans promesse stricte).",
   "- gallery.props : title, images avec un alt descriptif."]

end Prompt

def Brief.schemaPrompt (brief : Brief) : String :=
  Prompt.lines <|
    ["Tu es un expert UX/UI et architecture produit spécialisé en sites premium (Next.js).",
     "Ton rôle : proposer un sitemap + architecture UX sous forme de JSON strict " ++
       "(structure uniquement, aucun code).",
     "",
     "Contexte du projet :",
     "- Nom du projet : " ++ brief.projectName,
     "- Type de business : " ++ brief.businessType.getD "None"] ++
    Prompt.optionalLine "- Cible principale : " brief.targetAudience ++
    Prompt.optionalLine "- Objectif principal : " brief.mainGoal ++
    Prompt.optionalLine "- Ton / ambiance : " brief.tone ++
    Prompt.optionalList "- Mots clés de style : " brief.styleKeywords ++
    Prompt.optionalList "- Pages souhaitées : " brief.pagesWanted ++
    Prompt.optionalLine "- Couleur primaire suggérée : " brief.primaryColor ++
    Prompt.optionalLine "- Couleur secondaire suggérée : " brief.secondaryColor ++
    ["",
     "IMPORTANT :",
     "- Ne retourne que du JSON valide, pas de texte avant ou après.",
     "- Respecte absolument ce schema :",
     ""] ++
    Prompt.schemaShape ++
    ["",
     "Règles :",
     "- \"slug\" en kebab-case (home, about-us, services).",
     "- \"title\" en français, lisible.",
     "- \"type\" ∈ [" ++ Prompt.kindNames ++ "].",
     "- \"props\" = placeholders minimalistes (pas les textes finaux).",
     "",
     "Retourne directement un JSON strictement compatible avec \"WebsiteSchema\"."]

/-- What stands for a name or slugs that are missing. -/
def Prompt.unspecified : String := "(non précisé)"

def Schema.contentPrompt (schema : Schema) : String :=
  let slugs := (schema.pages.map (·.slug)).filter fun slug => !slug.isEmpty
  Prompt.lines <|
    ["Tu es un directeur de création (copywriting + UX) spécialisé en sites web premium B2B/B2C.",
     "Tu écris en FRANÇAIS, ton clair, moderne, \"premium\" et orienté conversion, " ++
       "sans buzzwords creux.",
     "Objectif : transformer un WebsiteSchema avec placeholders en un WebsiteSchema FINAL " ++
       "avec textes riches et crédibles.",
     "",
     "CONTRAINTES NON NÉGOCIABLES :",
     "1) Tu dois retourner UNIQUEMENT du JSON valide (pas de markdown, pas d'explications).",
     "2) Le JSON doit respecter EXACTEMENT la même structure que l'entrée :",
     "   - ne modifie pas les \"id\", \"type\", ni \"slug\",",
     "   - n'ajoute pas de nouvelles pages/sections, ne supprime rien.",
     "3) Tu peux UNIQUEMENT modifier les valeurs dans \"props\", " ++
       "en gardant les clés existantes prioritaires.",
     "4) Pas de chiffres précis inventés, pas de promesses illégales, " ++
       "pas de claims médicaux/juridiques.",
     "",
     "CONTEXTE :",
     "- Nom du site : " ++ (if schema.name.isEmpty then Prompt.unspecified else schema.name),
     "- Pages existantes (slugs) : " ++
       (if slugs.isEmpty then Prompt.unspecified else ", ".intercalate slugs),
     "",
     "RÈGLES PAR TYPE DE SECTION :"] ++
    Prompt.sectionRules ++
    ["",
     "CONTRAT DE SORTIE :",
     "- Retourne le WebsiteSchema enrichi.",
     "- Ne change rien hors props.",
     "",
     "SCHEMA À ENRICHIR :",
     schema.source]

end Sitewright
