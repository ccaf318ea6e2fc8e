import Sitewright.Json.Basic

/-!
# Section kinds

The nine kinds of section that the builder knows, in their canonical order. A stored section may
carry any other text as its type; `SectionKind.ofName?` recognises the exact names alone.
-/

namespace Sitewright

inductive SectionKind where
  | hero
  | features
  | services
  | testimonials
  | pricing
  | faq
  | cta
  | contact
  | gallery
  deriving DecidableEq, Repr

namespace SectionKind

def all : List SectionKind :=
  [.hero, .features, .services, .testimonials, .pricing, .faq, .cta, .contact, .gallery]

def name : SectionKind → String
  | .hero => "hero"
  | .features => "features"
  | .services => "services"
  | .testimonials => "testimonials"
  | .pricing => "pricing"
  | .faq => "faq"
  | .cta => "cta"
  | .contact => "contact"
  | .gallery => "gallery"

def ofName? (name : String) : Option SectionKind :=
  all.find? fun kind => kind.name == name

def ofJson? : Json → Option SectionKind
  | .string name => ofName? name
  | _ => none

theorem mem_all (kind : SectionKind) : kind ∈ all := by
  cases kind <;> decide

@[simp] theorem ofName?_name (kind : SectionKind) : ofName? kind.name = some kind := by
  cases kind <;> rfl

end SectionKind

end Sitewright
