import Sitewright.Registry.Basic

/-!
# The default definitions

The content that the builder ships for each section kind, and registries that are set up with other
content in its place.
-/

namespace Sitewright

/-- The entries of a record of texts. -/
def textFields (entries : List (String × String)) : Fields :=
  entries.map fun (key, text) => (key, .string text)

/-- A list of records of texts. -/
def textRecords (records : List (List (String × String))) : Json :=
  .array (records.map fun entries => .object (textFields entries))

/-- A pricing plan that is highlighted. -/
def highlightedPlan (name price : String) (features : List String) : Json :=
  .object
    [("name", .string name), ("price", .string price), ("features", .ofStrings features),
     ("highlight", .bool true)]

namespace SectionDefinition

def hero : SectionDefinition where
  label := "Hero"
  defaultProps := textFields
    [("headline", "Titre principal"),
     ("subheadline", "Sous-titre de présentation"),
     ("ctaPrimary", "Call to action"),
     ("ctaSecondary", "En savoir plus"),
     ("image", "/images/hero.jpg")]
  synthesisProps := textFields
    [("headline", "Bienvenue sur {project_name}"),
     ("subheadline", "Une brève phrase pour expliquer ce que propose ce site."),
     ("ctaPrimary", "Commencer"),
     ("ctaSecondary", "En savoir plus"),
     ("image", "/images/hero.jpg")]
  enrichment :=
    { textDefaults :=
        [("headline", "Bienvenue sur {website_name}"),
         ("subheadline", "Découvrez notre univers et ce que nous pouvons faire pour vous."),
         ("ctaPrimary", "Demander un devis"),
         ("ctaSecondary", "Voir nos services")]
      appendedClauses :=
        [("headline", "— une solution claire et moderne pour ton projet."),
         ("subheadline",
          "Nous t’aidons à gagner en crédibilité, en visibilité et en conversions.")] }
  fragment := "sections/hero.tsx.j2"

def features : SectionDefinition where
  label := "Features"
  defaultProps :=
    [("title", .string "Nos points forts"),
     ("items", textRecords
       [[("title", "Feature 1"), ("description", "Une explication rapide de ce point fort.")],
        [("title", "Feature 2"), ("description", "Un second élément de valeur.")]])]
  synthesisProps :=
    [("title", .string "Nos points forts"),
     ("items", textRecords
       [[("title", "Point fort 1"), ("description", "Un avantage clé mis en avant.")],
        [("title", "Point fort 2"), ("description", "Un deuxième élément de valeur.")]])]
  enrichment :=
    { textDefaults := [("title", "Pourquoi nous choisir ?")]
      listRule := some
        { key := "items"
          fallback :=
            [.object (textFields
               [("title", "Accompagnement personnalisé"),
                ("description", "Un suivi humain, transparent et orienté résultats.")]),
             .object (textFields
               [("title", "Technologies modernes"),
                ("description", "Une stack technique fiable, performante et maintenable.")])]
          fillKey := some "description"
          fillPhrases :=
            ["Un avantage concret pour ton activité.", "Un véritable levier de croissance."] } }
  fragment := "sections/features.tsx.j2"

def services : SectionDefinition where
  label := "Services"
  defaultProps :=
    [("title", .string "Nos services"),
     ("items", textRecords
       [[("name", "Service 1"), ("description", "Description courte du service.")]])]
  synthesisProps :=
    [("title", .string "Nos services"),
     ("items", textRecords
       [[("name", "Service principal"),
         ("description", "Description courte et claire du service.")]])]
  enrichment :=
    { textDefaults := [("title", "Nos services")]
      listRule := some
        { key := "items"
          fallback :=
            [.object (textFields
               [("name", "Création de site web"),
                ("description",
                 "Un site moderne, responsive et optimisé pour la conversion.")])]
          fillKey := some "description"
          fillPhrases :=
            ["Un service pensé pour répondre à un besoin précis de tes clients."] } }
  fragment := "sections/services.tsx.j2"

def testimonials : SectionDefinition where
  label := "Testimonials"
  defaultProps :=
    [("title", .string "Ils nous font confiance"),
     ("items", textRecords
       [[("name", "Client 1"), ("quote", "Un témoignage client."), ("role", "Fonction")]])]
  synthesisProps :=
    [("title", .string "Ils nous font confiance"),
     ("items", textRecords
       [[("name", "Client satisfait"), ("quote", "Un retour positif qui rassure le visiteur."),
         ("role", "Fonction du client")]])]
  enrichment :=
    { textDefaults := [("title", "Ils nous font confiance")]
      listRule := some
        { key := "items"
          fallback :=
            [.object (textFields
               [("name", "Client satisfait"),
                ("quote", "Un accompagnement sérieux et efficace, du début à la fin."),
                ("role", "Entrepreneur")])]
          fillKey := some "quote"
          fillPhrases := ["Un accompagnement sérieux et efficace, du début à la fin."] } }
  fragment := "sections/testimonials.tsx.j2"

def pricing : SectionDefinition where
  label := "Pricing"
  defaultProps :=
    [("title", .string "Nos offres"),
     ("plans", .array [highlightedPlan "Starter" "49€" ["Feature A", "Feature B"]])]
  synthesisProps :=
    [("title", .string "Nos offres"),
     ("plans", .array
       [highlightedPlan "Starter" "49€" ["Fonctionnalité A", "Fonctionnalité B"]])]
  enrichment :=
    { textDefaults := [("title", "Nos offres")]
      listRule := some
        { key := "plans"
          fallback :=
            [highlightedPlan "Starter" "49€"
              ["Présence en ligne professionnelle", "Design responsive"]] } }
  fragment := "sections/pricing.tsx.j2"

def faq : SectionDefinition where
  label := "FAQ"
  defaultProps :=
    [("title", .string "FAQ"),
     ("items", textRecords
       [[("question", "Question fréquente ?"), ("answer", "Réponse pertinente.")]])]
  synthesisProps :=
    [("title", .string "FAQ"),
     ("items", textRecords
       [[("question", "Question fréquente ?"),
         ("answer", "Une réponse claire et rassurante.")]])]
  enrichment :=
    { textDefaults := [("title", "FAQ")]
      listRule := some
        { key := "items"
          fallback :=
            [.object (textFields
               [("question", "Comment se déroule un projet ?"),
                ("answer",
                 "On commence par un échange pour bien comprendre tes besoins, " ++
                 "puis on passe en conception, développement et lancement.")])]
          fillKey := some "answer"
          fillPhrases :=
            ["Une réponse claire arrive très bientôt : contacte-nous en attendant."] } }
  fragment := "sections/faq.tsx.j2"

def cta : SectionDefinition where
  label := "CTA"
  defaultProps := textFields
    [("title", "Prêt à commencer ?"),
     ("text", "Contacte-nous pour lancer ton projet."),
     ("buttonLabel", "Nous contacter")]
  synthesisProps := textFields
    [("title", "Prêt à commencer ?"),
     ("text", "Contacte-nous pour discuter de ton projet."),
     ("buttonLabel", "Nous contacter")]
  enrichment :=
    { textDefaults :=
        [("title", "Prêt à passer à la suite ?"),
         ("text", "Parle-nous de ton projet et on construit ensemble la meilleure solution."),
         ("buttonLabel", "Planifier un appel")] }
  fragment := "sections/cta.tsx.j2"

def contact : SectionDefinition where
  label := "Contact"
  defaultProps := textFields
    [("title", "Contact"), ("description", "Laisse-nous un message, on revient vers toi.")]
  synthesisProps := textFields
    [("title", "Contact"), ("description", "Laisse-nous un message, on te répond rapidement.")]
  enrichment :=
    { textDefaults :=
        [("title", "Contact"),
         ("description",
          "Remplis le formulaire ci-dessous, on revient vers toi très vite.")] }
  fragment := "sections/contact.tsx.j2"

def gallery : SectionDefinition where
  label := "Galerie"
  defaultProps :=
    [("title", .string "Galerie"),
     ("images", textRecords
       [[("src", "/images/sample-1.jpg"), ("alt", "Image 1")],
        [("src", "/images/sample-2.jpg"), ("alt", "Image 2")]])]
  synthesisProps :=
    [("title", .string "Galerie"),
     ("images", textRecords
       [[("src", "/images/sample-1.jpg"), ("alt", "Réalisation 1")],
        [("src", "/images/sample-2.jpg"), ("alt", "Réalisation 2")]])]
  enrichment :=
    { textDefaults := [("title", "Nos réalisations")]
      listRule := some
        { key := "images"
          fallback :=
            [.object (textFields
               [("src", "/images/sample-1.jpg"), ("alt", "Exemple de projet réalisé")]),
             .object (textFields
               [("src", "/images/sample-2.jpg"), ("alt", "Autre exemple de réalisation")])]
          fillKey := some "alt"
          fillPhrases := ["Image de projet"] } }
  fragment := "sections/gallery.tsx.j2"

end SectionDefinition

def SectionKind.defaultDefinition : SectionKind → SectionDefinition
  | .hero => .hero
  | .features => .features
  | .services => .services
  | .testimonials => .testimonials
  | .pricing => .pricing
  | .faq => .faq
  | .cta => .cta
  | .contact => .contact
  | .gallery => .gallery

def Registry.default : Registry := ⟨SectionKind.defaultDefinition⟩

/-! ## Setting up -/

/-- What is wrong with a name that comes from outside when the builder is set up, or which kinds a
registry lacks. -/
inductive SetupError where
  | unknownKind (name : String)
  | unknownCoverage (name : String)
  | missingDefinitions (kinds : List SectionKind)
  deriving DecidableEq, Repr

def SetupError.message : SetupError → String
  | .unknownKind name => SiteError.quote name ++ " is not a valid SectionType"
  | .unknownCoverage name => SiteError.quote name ++ " is not a valid RenderCoverage"
  | .missingDefinitions kinds =>
      "Section definitions missing for: " ++ ", ".intercalate (kinds.map SectionKind.name)

def SectionKind.parse (name : String) : Except SetupError SectionKind :=
  match SectionKind.ofName? name with
  | some kind => .ok kind
  | none => .error (.unknownKind name)

/-- The default registry with some definitions replaced, restricted to the kinds that `keep`
admits. -/
def Registry.customized (replaced : List (SectionKind × SectionDefinition))
    (keep : SectionKind → Bool) : Except SetupError Registry :=
  let definitions := SectionKind.all.map fun kind =>
    (kind, (replaced.lookup kind).getD (SectionKind.defaultDefinition kind))
  (Registry.ofList (definitions.filter fun (kind, _) => keep kind)).mapError .missingDefinitions

end Sitewright
