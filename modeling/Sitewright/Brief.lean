import Sitewright.Check.Checked

/-!
# Briefs

A brief is what a customer tells about the wanted website. As JSON each of its entries has two
spellings, the alias of the public interface and a plain one; where both are given the alias wins.
Other entries are ignored.
-/

namespace Sitewright

structure Brief where
  projectName : String
  businessType : Option String := none
  targetAudience : Option String := none
  mainGoal : Option String := none
  tone : Option String := none
  styleKeywords : List String := []
  pagesWanted : List String := []
  primaryColor : Option String := none
  secondaryColor : Option String := none
  deriving DecidableEq, Repr

namespace Brief

/-- The two spellings of an entry. -/
structure Spelling where
  aliased : String
  plain : String

def Spelling.projectName : Spelling := ⟨"projectName", "project_name"⟩
def Spelling.businessType : Spelling := ⟨"businessType", "business_type"⟩
def Spelling.targetAudience : Spelling := ⟨"targetAudience", "target_audience"⟩
def Spelling.mainGoal : Spelling := ⟨"mainGoal", "main_goal"⟩
def Spelling.tone : Spelling := ⟨"tone", "tone"⟩
def Spelling.styleKeywords : Spelling := ⟨"styleKeywords", "style_keywords"⟩
def Spelling.pagesWanted : Spelling := ⟨"pagesWanted", "pages_wanted"⟩
def Spelling.primaryColor : Spelling := ⟨"primaryColor", "primary_color"⟩
def Spelling.secondaryColor : Spelling := ⟨"secondaryColor", "secondary_color"⟩

/-- The key under which an entry is given; the alias when it is not given at all. -/
def Spelling.keyIn (spelling : Spelling) (fields : Fields) : String :=
  if (Dict.get? fields spelling.aliased).isNone && (Dict.get? fields spelling.plain).isSome then
    spelling.plain
  else spelling.aliased

def textOf (spelling : Spelling) (fields : Fields) : Checked String :=
  Checked.required (spelling.keyIn fields) Checked.text fields

def textOf? (spelling : Spelling) (fields : Fields) : Checked (Option String) :=
  Checked.optional (spelling.keyIn fields) none (Checked.nullable Checked.text) fields

def textsOf (spelling : Spelling) (fields : Fields) : Checked (List String) :=
  Checked.optional (spelling.keyIn fields) [] (Checked.sequence Checked.text) fields

def ofFields (fields : Fields) : Checked Brief :=
  Brief.mk
    <$> textOf .projectName fields
    <*> textOf? .businessType fields
    <*> textOf? .targetAudience fields
    <*> textOf? .mainGoal fields
    <*> textOf? .tone fields
    <*> textsOf .styleKeywords fields
    <*> textsOf .pagesWanted fields
    <*> textOf? .primaryColor fields
    <*> textOf? .secondaryColor fields

def ofJson : Json → Checked Brief :=
  Checked.record "ProjectBrief" ofFields

def toFields (brief : Brief) (spell : Spelling → String) : Fields :=
  [(spell .projectName, .string brief.projectName),
   (spell .businessType, .ofOption brief.businessType),
   (spell .targetAudience, .ofOption brief.targetAudience),
   (spell .mainGoal, .ofOption brief.mainGoal),
   (spell .tone, .ofOption brief.tone),
   (spell .styleKeywords, .ofStrings brief.styleKeywords),
   (spell .pagesWanted, .ofStrings brief.pagesWanted),
   (spell .primaryColor, .ofOption brief.primaryColor),
   (spell .secondaryColor, .ofOption brief.secondaryColor)]

def toPlainJson (brief : Brief) : Json :=
  .object (brief.toFields Spelling.plain)

def toAliasedJson (brief : Brief) : Json :=
  .object (brief.toFields Spelling.aliased)

end Brief

end Sitewright
