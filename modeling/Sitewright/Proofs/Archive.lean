import Sitewright.Proofs.Generation
import Sitewright.Proofs.Json.RoundTrip
import Sitewright.Proofs.Text.Slug

/-!
# Names of archives

An archive is offered under the name of its site in the alphabet of package names, in which nothing
ends a quoted value of a header or escapes from it. The name of the package within the archive is
made apart from that of the archive, but both are the same unless the name of the site is blank.
-/

namespace Sitewright

namespace Text

theorem strip_eq_nil_iff {text : List Char} :
    strip text = [] ↔ ∀ c ∈ text, isBlank c = true := by
  constructor
  · intro h
    obtain ⟨front, back, htext, hfront, hback⟩ := exists_trimWhile isBlank text
    rw [strip] at h
    rw [htext, h, List.nil_append]
    exact List.forall_mem_append.mpr ⟨hfront, hback⟩
  · intro h
    have htext : trimWhile isBlank (text ++ ([] ++ [])) = [] :=
      trimWhile_append h (List.forall_mem_nil _) nofun nofun
    rwa [List.append_nil, List.append_nil] at htext

end Text

/-! ## Names that are not blank -/

theorem nameOr_of_blank {name : String} (h : ∀ c ∈ name.toList, Text.isBlank c = true)
    (fallback : String) : nameOr fallback name = fallback := by
  rw [nameOr, Text.strip_eq_nil_iff.mpr h]

/-- A fallback is for blank names only. -/
theorem nameOr_of_solid {name : String} (h : ∃ c ∈ name.toList, Text.isBlank c = false)
    (fallback : String) : nameOr fallback name = String.ofList (Text.strip name.toList) := by
  obtain ⟨c, hm, hc⟩ := h
  have hne : Text.strip name.toList ≠ [] := fun he =>
    Bool.false_ne_true (hc ▸ Text.strip_eq_nil_iff.mp he c hm)
  obtain ⟨first, rest, hs⟩ := List.exists_cons_of_ne_nil hne
  rw [nameOr, hs]

theorem nameOr_ne_empty {fallback : String} (h : fallback ≠ "") (name : String) :
    nameOr fallback name ≠ "" := by
  unfold nameOr
  split
  · exact h
  · next hne => rwa [Ne, String.ofList_eq_empty_iff]

theorem packageSlug_ne_empty {text : String} (h : text ≠ "") : packageSlug text ≠ "" := by
  have hlower : Text.lower text.toList ≠ [] := Text.lower_ne_nil (by simpa using h)
  rwa [packageSlug, Ne, String.ofList_eq_empty_iff, Text.dashOthers, List.map_eq_nil_iff]

/-! ## Quoted values of a header -/

namespace Header

/-- Reads a quoted value behind its first quote: the value, and the text behind its last quote. The
character behind a backslash belongs to the value even if it is a quote. -/
def readQuoted? : List Char → Option (List Char × List Char)
  | [] => none
  | '"' :: rest => some ([], rest)
  | '\\' :: c :: rest =>
      if Text.isVisible c then (readQuoted? rest).map fun (value, after) => (c :: value, after)
      else none
  | c :: rest =>
      if Text.isVisible c && c != '\\' then
        (readQuoted? rest).map fun (value, after) => (c :: value, after)
      else none

/-- The value that a text puts between quotes, if it does so from its start to its end. -/
def unquote? : List Char → Option (List Char)
  | '"' :: text =>
      match readQuoted? text with
      | some (value, []) => some value
      | _ => none
  | _ => none

/-- The file name in a header that offers an attachment, if nothing stands behind it. -/
def savedAs? (header : String) : Option String :=
  ((header.toList.dropPrefix? "attachment; filename=".toList).bind unquote?).map String.ofList

def isPlain (c : Char) : Bool :=
  Text.isVisible c && c != '"' && c != '\\'

theorem isPlain_of_isPackageChar {c : Char} (h : Text.isPackageChar c = true) :
    isPlain c = true := by
  rw [isPlain, Text.isVisible_of_isPackageChar h]
  have hcode := Text.toNat_of_isPackageChar h
  simp only [Bool.true_and, Bool.and_eq_true, bne_iff_ne]
  constructor
  · rintro rfl
    exact absurd hcode (by decide)
  · rintro rfl
    exact absurd hcode (by decide)

theorem readQuoted?_plain {value : List Char} (h : ∀ c ∈ value, isPlain c = true)
    (rest : List Char) : readQuoted? (value ++ '"' :: rest) = some (value, rest) := by
  induction value with
  | nil => rfl
  | cons c value ih =>
      obtain ⟨hc, hvalue⟩ := List.forall_mem_cons.mp h
      simp only [isPlain, Bool.and_eq_true, bne_iff_ne] at hc
      obtain ⟨⟨hvisible, hquote⟩, hslash⟩ := hc
      rw [List.cons_append, readQuoted?, if_pos (by simp [hvisible, hslash]), ih hvalue]
      · rfl
      all_goals simp [hquote, hslash]

/-- A value that has been read stood there as it is, or its text was longer for the backslashes. -/
theorem readQuoted?_cases {text value rest : List Char}
    (h : readQuoted? text = some (value, rest)) :
    (text = value ++ '"' :: rest ∧ ∀ c ∈ value, isPlain c = true) ∨
      value.length + rest.length + 1 < text.length := by
  induction text using readQuoted?.induct generalizing value with
  | case1 => cases h
  | case2 rest =>
      cases h
      exact .inl ⟨rfl, List.forall_mem_nil _⟩
  | case3 c text hvisible ih =>
      rw [readQuoted?, if_pos hvisible, Option.map_eq_some_iff] at h
      obtain ⟨⟨inner, after⟩, hread, he⟩ := h
      cases he
      right
      rcases ih hread with ⟨rfl, -⟩ | hlen
      · simp only [List.length_cons, List.length_append]
        omega
      · simp only [List.length_cons]
        omega
  | case4 c text hvisible =>
      rw [readQuoted?, if_neg hvisible] at h
      cases h
  | case5 c text hquote hslash hvisible ih =>
      rw [readQuoted?, if_pos hvisible, Option.map_eq_some_iff] at h
      · obtain ⟨⟨inner, after⟩, hread, he⟩ := h
        cases he
        have hplain : isPlain c = true := by
          simp only [Bool.and_eq_true] at hvisible
          simp only [isPlain, Bool.and_eq_true, hvisible, and_true, true_and]
          exact bne_iff_ne.mpr hquote
        rcases ih hread with ⟨rfl, hinner⟩ | hlen
        · exact .inl ⟨rfl, List.forall_mem_cons.mpr ⟨hplain, hinner⟩⟩
        · right
          simp only [List.length_cons]
          omega
      · exact hquote
      · exact hslash
  | case6 c text hquote hslash hvisible =>
      rw [readQuoted?, if_neg hvisible] at h
      · cases h
      · exact hquote
      · exact hslash

theorem unquote?_eq_self_iff {value : List Char} :
    unquote? ('"' :: (value ++ ['"'])) = some value ↔ ∀ c ∈ value, isPlain c = true := by
  constructor
  · intro h
    cases hread : readQuoted? (value ++ ['"']) with
    | none => simp [unquote?, hread] at h
    | some found =>
        obtain ⟨inner, rest⟩ := found
        cases rest with
        | cons c rest => simp [unquote?, hread] at h
        | nil =>
            simp only [unquote?, hread, Option.some.injEq] at h
            subst h
            rcases readQuoted?_cases hread with ⟨-, hplain⟩ | hlen
            · exact hplain
            · simp at hlen
  · intro h
    simp only [unquote?, readQuoted?_plain h]

end Header

/-! ## Archives and their packages -/

namespace Generation

theorem readable_package (siteName : String) : (package siteName).Readable := by
  simp [package, latest, scripts, Dict.keys]

theorem exists_name_package (siteName : String) :
    ∃ fields, package siteName = .object fields ∧
      Dict.get? fields "name" = some (.string (packageName siteName)) :=
  ⟨_, rfl, rfl⟩

end Generation

namespace Archive

def basename (siteName : String) : String :=
  packageSlug (nameOr "site-generated" siteName)

theorem filenameFor_eq (siteName : String) : filenameFor siteName = basename siteName ++ ".zip" :=
  rfl

theorem basename_ne_empty (siteName : String) : basename siteName ≠ "" :=
  packageSlug_ne_empty (nameOr_ne_empty (by decide) siteName)

theorem isPackageChar_of_mem_basename {siteName : String} :
    ∀ c ∈ (basename siteName).toList, Text.isPackageChar c = true :=
  isPackageChar_of_mem_packageSlug

theorem isPlain_of_mem_filenameFor (siteName : String) :
    ∀ c ∈ (filenameFor siteName).toList, Header.isPlain c = true := by
  have hending : ".zip".toList.all Header.isPlain = true := by decide
  rw [filenameFor_eq, String.toList_append]
  exact List.forall_mem_append.mpr
    ⟨fun c hc => Header.isPlain_of_isPackageChar (isPackageChar_of_mem_basename c hc),
      List.all_eq_true.mp hending⟩

/-- The name of the package differs from that of the archive by the fallback alone. -/
theorem packageName_eq_basename {siteName : String}
    (h : ∃ c ∈ siteName.toList, Text.isBlank c = false) :
    packageName siteName = basename siteName := by
  rw [packageName, basename, nameOr_of_solid h, nameOr_of_solid h]

theorem names_of_blank {siteName : String} (h : ∀ c ∈ siteName.toList, Text.isBlank c = true) :
    basename siteName = "site-generated" ∧ packageName siteName = "generated-site" := by
  rw [basename, packageName, nameOr_of_blank h, nameOr_of_blank h]
  exact ⟨packageSlug_of_isPackageChar (List.all_eq_true.mp (by decide)),
    packageSlug_of_isPackageChar (List.all_eq_true.mp (by decide))⟩

theorem contentDisposition_eq {archive : Archive} {base : String}
    (h : archive.filename = base ++ ".zip") :
    archive.contentDisposition = "attachment; filename=\"" ++ base ++ ".zip\"" := by
  have hend : ".zip\"" = ".zip" ++ "\"" := by simp
  unfold contentDisposition
  rw [h, hend]
  simp only [String.append_assoc]

/-- A header tells a file name as it is if and only if all of its characters are plain. -/
theorem savedAs?_contentDisposition_iff {archive : Archive} :
    Header.savedAs? archive.contentDisposition = some archive.filename ↔
      ∀ c ∈ archive.filename.toList, Header.isPlain c = true := by
  have hstart : "attachment; filename=\"".toList = "attachment; filename=".toList ++ ['"'] := by
    simp
  have hend : "\"".toList = ['"'] := rfl
  have hheader : archive.contentDisposition.toList =
      "attachment; filename=".toList ++ '"' :: (archive.filename.toList ++ ['"']) := by
    unfold contentDisposition
    rw [String.toList_append, String.toList_append, hstart, hend, List.append_assoc,
      List.append_assoc, List.singleton_append]
  rw [Header.savedAs?, hheader, List.dropPrefix?_append_of_beq _ (beq_self_eq_true _),
    Option.bind_some, ← Header.unquote?_eq_self_iff]
  constructor
  · intro h
    obtain ⟨value, hvalue, hname⟩ := Option.map_eq_some_iff.mp h
    rw [hvalue, ← hname, String.toList_ofList]
  · intro h
    rw [h, Option.map_some, String.ofList_toList]

theorem filename_of_package? {schema : Schema} {files : FileSet} {archive : Archive}
    (h : package? schema files = some archive) : archive.filename = filenameFor schema.name := by
  obtain ⟨entries, -, rfl⟩ := Option.map_eq_some_iff.mp h
  rfl

/-- For every site there is a name of letters a to z, digits and dashes under which its archive is
offered, whatever files it holds, and the header tells the name as it is. The package in a generated
project has this name, too, except that the two names of a site with a blank name are fixed. -/
theorem offered_under_package_name (schema : Schema) :
    ∃ base : String, base ≠ "" ∧
      (∀ c ∈ base.toList, Text.isPackageChar c = true ∧ Header.isPlain c = true) ∧
      (∀ files archive, package? schema files = some archive →
        archive.filename = base ++ ".zip" ∧
        archive.contentDisposition = "attachment; filename=\"" ++ base ++ ".zip\"" ∧
        Header.savedAs? archive.contentDisposition = some archive.filename) ∧
      (∀ (registry : Registry) files, registry.generate schema = .ok files →
        ∃ archive text fields package, package? schema files = some archive ∧
          Dict.get? files "package.json" = some text ∧ Json.read text = .ok (.object fields) ∧
          Dict.get? fields "name" = some (.string package) ∧
          ((∃ c ∈ schema.name.toList, Text.isBlank c = false) → package = base) ∧
          ((∀ c ∈ schema.name.toList, Text.isBlank c = true) →
            base = "site-generated" ∧ package = "generated-site")) ∧
      ∃ files, Registry.default.generate schema = .ok files := by
  refine ⟨basename schema.name, basename_ne_empty _, fun c hc => ?_, fun files archive h => ?_,
    fun registry files h => ?_, Registry.exists_generate Registry.renders_default schema⟩
  · have hchar := isPackageChar_of_mem_basename c hc
    exact ⟨hchar, Header.isPlain_of_isPackageChar hchar⟩
  · have hname := filename_of_package? h
    refine ⟨hname, contentDisposition_eq hname, savedAs?_contentDisposition_iff.mpr ?_⟩
    rw [hname]
    exact isPlain_of_mem_filenameFor schema.name
  · obtain ⟨fields, hfields, hname⟩ := Generation.exists_name_package schema.name
    have hread : Json.read ((Generation.package schema.name).print .asciiBlock) =
        .ok (.object fields) := by
      rw [← hfields]
      exact Json.read_print rfl (Generation.readable_package schema.name)
    exact ⟨_, _, fields, _, package?_of_generate h, Registry.package_of_generate h, hread, hname,
      packageName_eq_basename, names_of_blank⟩

end Archive

end Sitewright
