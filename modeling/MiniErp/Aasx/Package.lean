import MiniErp.Aasx.Archive

/-! The package of a machine file: four fixed parts that name the fifth, the specification. -/
namespace MiniErp.Aasx
open Text Std Run

def opcContentTypesNamespace : String :=
  "http://schemas.openxmlformats.org/package/2006/content-types"

def opcRelationshipsNamespace : String :=
  "http://schemas.openxmlformats.org/package/2006/relationships"

def aasxOriginRelationship : String := "http://admin-shell.io/aasx/relationships/aasx-origin"
def aasxSpecRelationship : String := "http://admin-shell.io/aasx/relationships/aas-spec"

def contentTypesXml : String :=
  "<?xml version=\"1.0\" encoding=\"UTF-8\"?>\n<Types xmlns=\"" ++ opcContentTypesNamespace ++
  "\">\n  <Default Extension=\"rels\" ContentType=\"application/vnd.openxmlformats-package.relationships+xml\"/>\n" ++
  "  <Default Extension=\"xml\" ContentType=\"application/xml\"/>\n  <Override PartName=\"/" ++
  aasxOriginPath ++
  "\" ContentType=\"application/asset-administration-shell-package+xml\"/>\n  <Override PartName=\"/" ++
  aasSpecPath ++ "\" ContentType=\"application/xml\"/>\n</Types>\n"

def rootRelationshipsXml : String :=
  "<?xml version=\"1.0\" encoding=\"UTF-8\"?>\n<Relationships xmlns=\"" ++
  opcRelationshipsNamespace ++ "\">\n  <Relationship Id=\"aasxOrigin\" Type=\"" ++
  aasxOriginRelationship ++ "\" Target=\"/" ++ aasxOriginPath ++ "\"/>\n</Relationships>\n"

def originRelationshipsXml : String :=
  "<?xml version=\"1.0\" encoding=\"UTF-8\"?>\n<Relationships xmlns=\"" ++
  opcRelationshipsNamespace ++ "\">\n  <Relationship Id=\"aasSpec\" Type=\"" ++
  aasxSpecRelationship ++ "\" Target=\"data.xml\"/>\n</Relationships>\n"

def packageEntries (aasXml : List UInt8) : List ZipEntry :=
  [⟨contentTypesPath,bytes contentTypesXml⟩,⟨rootRelationshipsPath,bytes rootRelationshipsXml⟩,
    ⟨aasxOriginPath,[]⟩,⟨aasxOriginRelationshipsPath,bytes originRelationshipsXml⟩,
    ⟨aasSpecPath,aasXml⟩]

def packageFromAasXml (aasXml : List UInt8) : Except AasxExportError (List UInt8) := do
  ensure (aasXml.length ≤ maxAasxPartSize) .xmlTooLarge
  writeZip (packageEntries aasXml)

def requireExact (parts : TreeMap String (List UInt8)) (path : String) (expected : List UInt8) :
    Except AasxImportError Unit :=
  match parts[path]? with
  | some actual => ensure (actual == expected)
      (.malformedPackage "canonical OPC package graph was modified")
  | none => .error (.malformedPackage "required canonical OPC part is missing")

section
variable (inflate : List UInt8 → Nat → Except AasxImportError (List UInt8))

def validatedAasSpec (package : List UInt8) : Except AasxImportError (List UInt8) := do
  let parts ← readZipParts inflate package
  ensure (parts.size == packageParts.length)
    (.malformedPackage "AASX package must contain exactly the canonical parts")
  requireExact parts contentTypesPath (bytes contentTypesXml)
  requireExact parts rootRelationshipsPath (bytes rootRelationshipsXml)
  requireExact parts aasxOriginPath []
  requireExact parts aasxOriginRelationshipsPath (bytes originRelationshipsXml)
  required parts[aasSpecPath]? (.malformedPackage "canonical AAS specification part is missing")

theorem requireExact_eq_ok {parts : TreeMap String (List UInt8)} {path : String}
    {expected : List UInt8} (h : parts[path]?=some expected) :
    requireExact parts path expected=.ok () := by
  simp [requireExact,h,ensure]

theorem names_packageEntries (aasXml : List UInt8) :
    (packageEntries aasXml).map ZipEntry.name=packageParts :=
  rfl

theorem nodup_packageParts : packageParts.Nodup := by decide

def partsOf (aasXml : List UInt8) : TreeMap String (List UInt8) :=
  (packageEntries aasXml).foldl (fun parts entry => parts.insert entry.name entry.contents) ∅

theorem getElem?_partsOf (aasXml : List UInt8) : (partsOf aasXml)[contentTypesPath]? =
    some (bytes contentTypesXml) ∧ (partsOf aasXml)[rootRelationshipsPath]? =
    some (bytes rootRelationshipsXml) ∧ (partsOf aasXml)[aasxOriginPath]? = some [] ∧
    (partsOf aasXml)[aasxOriginRelationshipsPath]? = some (bytes originRelationshipsXml) ∧
    (partsOf aasXml)[aasSpecPath]? = some aasXml := by
  simp [partsOf,packageEntries,TreeMap.getElem_insert,contentTypesPath,rootRelationshipsPath,
    aasxOriginPath,aasxOriginRelationshipsPath,aasSpecPath]

theorem size_partsOf (aasXml : List UInt8) : (partsOf aasXml).size=packageParts.length := by
  simp [partsOf,packageEntries,packageParts,TreeMap.size_insert,contentTypesPath,
    rootRelationshipsPath,aasxOriginPath,aasxOriginRelationshipsPath,aasSpecPath]

theorem validatedAasSpec_packageFromAasXml {aasXml package : List UInt8}
    (h : packageFromAasXml aasXml=.ok package) : validatedAasSpec inflate package=.ok aasXml := by
  rw [packageFromAasXml,ensure_bind_eq_ok] at h
  have hnames := names_packageEntries aasXml
  have hread : readZipParts inflate package=.ok (partsOf aasXml) := by
    apply readZipParts_writeZip inflate h.2
    · exact Nat.le_refl 5
    · intro entry hentry
      exact List.mem_map.mpr ⟨entry,hentry,rfl⟩
    · exact nodup_packageParts
  obtain ⟨hcontent,hroot,horigin,hrelations,hspec⟩ := getElem?_partsOf aasXml
  simp only [validatedAasSpec,bind_eq_ok,ensure_eq_ok]
  exact ⟨_,hread,(),beq_iff_eq.mpr (size_partsOf aasXml),(),requireExact_eq_ok hcontent,(),
    requireExact_eq_ok hroot,(),requireExact_eq_ok horigin,(),requireExact_eq_ok hrelations,
    required_eq_ok.mpr hspec⟩

end

end MiniErp.Aasx
