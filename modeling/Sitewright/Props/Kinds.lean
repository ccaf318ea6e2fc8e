import Sitewright.Props.Shape
import Sitewright.Schema.Kind

/-!
# The props of each section kind

`SectionKind.propsShape` gives the shape of the props of a kind, and `SectionKind.checkProps` the
normal form of such props.
-/

namespace Sitewright

def Shape.texts : Shape := .sequence .text

def Shape.featureItem : Shape := .record "FeatureItem" [("title", .text), ("description", .text)]

def Shape.serviceItem : Shape := .record "ServiceItem" [("name", .text), ("description", .text)]

def Shape.testimonialItem : Shape :=
  .record "TestimonialItem" [("name", .text), ("quote", .text), ("role", .text)]

def Shape.pricingPlan : Shape :=
  .record "PricingPlan"
    [("name", .text), ("price", .text), ("features", .texts), ("highlight", .flag)]

def Shape.faqItem : Shape := .record "FaqItem" [("question", .text), ("answer", .text)]

def Shape.galleryImage : Shape := .record "GalleryImage" [("src", .text), ("alt", .text)]

def SectionKind.propsShape : SectionKind → Shape
  | .hero =>
      .record "HeroProps"
        [("headline", .text), ("subheadline", .text), ("ctaPrimary", .text),
         ("ctaSecondary", .text), ("image", .text)]
  | .features =>
      .record "FeaturesProps" [("title", .text), ("items", .sequence .featureItem)]
  | .services =>
      .record "ServicesProps" [("title", .text), ("items", .sequence .serviceItem)]
  | .testimonials =>
      .record "TestimonialsProps" [("title", .text), ("items", .sequence .testimonialItem)]
  | .pricing =>
      .record "PricingProps" [("title", .text), ("plans", .sequence .pricingPlan)]
  | .faq => .record "FaqProps" [("title", .text), ("items", .sequence .faqItem)]
  | .cta => .record "CtaProps" [("title", .text), ("text", .text), ("buttonLabel", .text)]
  | .contact => .record "ContactProps" [("title", .text), ("description", .text)]
  | .gallery =>
      .record "GalleryProps" [("title", .text), ("images", .sequence .galleryImage)]

def SectionKind.checkProps (kind : SectionKind) (props : Json) : Checked Json :=
  kind.propsShape.check props

end Sitewright
