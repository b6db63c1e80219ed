import MiniErp.Aasx.Sizes

/-! Machine files: the export of a canonical revision, the import of a file and the canonical form
of an uploaded one. -/
namespace MiniErp.Aasx
open Text Run Apparatus List

/-- What the code takes from other crates: the digest of an artifact, DEFLATE, and
`serde_json::from_str` for revisions. -/
structure Crates (Sha256 : Type) where
  digest : List UInt8 → Sha256
  inflate : List UInt8 → Nat → Except AasxImportError (List UInt8)
  fromStr : String → Option CanonicalApparatusRevision

structure CanonicalAasxArtifact (Sha256 : Type) where
  bytes : List UInt8
  sha256 : Sha256

structure CanonicalizedAasxUpload (Sha256 : Type) where
  revision : CanonicalApparatusRevision
  canonicalArtifact : CanonicalAasxArtifact Sha256

section
variable {Sha256 : Type} (crates : Crates Sha256)

def CanonicalAasxArtifact.new (bytes : List UInt8) : CanonicalAasxArtifact Sha256 :=
  ⟨bytes,crates.digest bytes⟩

def exportCanonicalAasx (revision : CanonicalApparatusRevision) :
    Except CanonicalAasxExportError (CanonicalAasxArtifact Sha256) := do
  revision.validate.mapError .invalidRevision
  let payload := revision.toText
  let specification ← canonicalAasEnvironment revision payload
  let package ← (packageFromAasXml (bytes specification)).mapError .package
  return .new crates package

def parseCanonicalAasx (package : List UInt8) :
    Except CanonicalAasxImportError CanonicalApparatusRevision := do
  let specification ← (validatedAasSpec crates.inflate package).mapError .package
  let source ← required (fromUtf8 specification) .invalidUtf8
  let payload ← extractCanonicalPayload source
  let revision ← required (crates.fromStr payload) .invalidCanonicalPayload
  revision.validate.mapError .invalidRevision
  let canonicalPayload := revision.toText
  let expected ← (canonicalAasEnvironment revision canonicalPayload).mapError fun _ =>
    .semanticMismatch
  ensure (source == expected) .semanticMismatch
  return revision

def canonicalizeUploadedAasx (uploaded : List UInt8) :
    Except CanonicalAasxImportError (CanonicalizedAasxUpload Sha256) := do
  let revision ← parseCanonicalAasx crates uploaded
  let canonicalArtifact ← (exportCanonicalAasx crates revision).mapError fun _ => .semanticMismatch
  return ⟨revision,canonicalArtifact⟩

variable {crates} {revision : CanonicalApparatusRevision}

theorem canonicalAasEnvironment_eq_ok {payload xml : String} :
    canonicalAasEnvironment revision payload=.ok xml ↔
      payload.utf8ByteSize ≤ maxCanonicalPayloadBytes ∧
      validateXmlCharacters (environmentText revision payload)=.ok () ∧
      xml=String.ofList (environmentText revision payload) := by
  simp only [canonicalAasEnvironment,bind_eq_ok,ensure_eq_ok,decide_eq_true_eq]
  constructor
  · rintro ⟨_,hsize,_,hvalid,h⟩
    exact ⟨hsize,hvalid,(Except.ok.inj h).symm⟩
  · rintro ⟨hsize,hvalid,rfl⟩
    exact ⟨(),hsize,(),hvalid,rfl⟩

variable {artifact : CanonicalAasxArtifact Sha256}

/-- Whatever the payload and the other fields hold, the payload is read back as it was written. -/
theorem canonical_payload_read_back (revision : CanonicalApparatusRevision) (payload : String) :
    unescape (escape payload)=.ok payload ∧ '<' ∉ escape payload ∧
    ∀ xml, (String.ofList (escape payload)).utf8ByteSize ≤ maxCanonicalPayloadBytes →
      canonicalAasEnvironment revision payload=.ok xml →
      extractCanonicalPayload xml=.ok payload := by
  refine ⟨unescape_escape payload,escape_clean payload,fun xml hsize h => ?_⟩
  rw [(canonicalAasEnvironment_eq_ok.mp h).2.2,extractCanonicalPayload_environmentText,
    if_pos hsize]

theorem exportCanonicalAasx_eq_ok : exportCanonicalAasx crates revision=.ok artifact ↔
      revision.validate=.ok () ∧ ∃ specification package,
        canonicalAasEnvironment revision revision.toText=.ok specification ∧
        packageFromAasXml (bytes specification)=.ok package ∧ artifact=.new crates package := by
  simp only [exportCanonicalAasx,bind_eq_ok,mapError_eq_ok]
  constructor
  · rintro ⟨_,hvalid,specification,hspecification,package,hpackage,h⟩
    exact ⟨hvalid,specification,package,hspecification,hpackage,(Except.ok.inj h).symm⟩
  · rintro ⟨hvalid,specification,package,hspecification,hpackage,rfl⟩
    exact ⟨(),hvalid,specification,hspecification,package,hpackage,rfl⟩

/-- Up to the payload, the import of an exported file is the reading of the payload. -/
theorem extract_of_export (h : exportCanonicalAasx crates revision=.ok artifact) :
    ∃ specification, canonicalAasEnvironment revision revision.toText=.ok specification ∧
      validatedAasSpec crates.inflate artifact.bytes=.ok (bytes specification) ∧
      extractCanonicalPayload specification =
        if (String.ofList (escape revision.toText)).utf8ByteSize ≤ maxCanonicalPayloadBytes then
          .ok revision.toText else .error .invalidCanonicalPayload := by
  obtain ⟨-,specification,package,hspecification,hpackage,rfl⟩ := exportCanonicalAasx_eq_ok.mp h
  refine ⟨specification,hspecification,validatedAasSpec_packageFromAasXml _ hpackage,?_⟩
  obtain ⟨-,-,rfl⟩ := canonicalAasEnvironment_eq_ok.mp hspecification
  exact extractCanonicalPayload_environmentText revision revision.toText

theorem parse_of_importable (hexport : exportCanonicalAasx crates revision=.ok artifact)
    (hserde : crates.fromStr revision.toText=some revision)
    (h : (String.ofList (escape revision.toText)).utf8ByteSize ≤ maxCanonicalPayloadBytes) :
    parseCanonicalAasx crates artifact.bytes=.ok revision := by
  obtain ⟨specification,hspecification,hread,hextract⟩ := extract_of_export hexport
  have hvalid := (exportCanonicalAasx_eq_ok.mp hexport).1
  rw [if_pos h] at hextract
  simp only [parseCanonicalAasx,bind_eq_ok,mapError_eq_ok,required_eq_ok,ensure_eq_ok]
  exact ⟨_,hread,specification,fromUtf8_bytes specification,_,hextract,revision,hserde,(),
    hvalid,specification,hspecification,(),beq_self_eq_true specification,rfl⟩

theorem parse_of_not_importable (hexport : exportCanonicalAasx crates revision=.ok artifact)
    (h : ¬ (String.ofList (escape revision.toText)).utf8ByteSize ≤ maxCanonicalPayloadBytes) :
    parseCanonicalAasx crates artifact.bytes=.error .invalidCanonicalPayload := by
  obtain ⟨specification,-,hread,hextract⟩ := extract_of_export hexport
  rw [if_neg h] at hextract
  rw [parseCanonicalAasx,hread]
  simp only [Except.mapError,fromUtf8_bytes,required,hextract,bind,Except.bind]

end

/- A slitter that needs the given item groups. -/

def sampleId : SemanticId := ⟨"a:b",by decide +kernel⟩

def machineWith (itemGroupIds : List String) : CanonicalApparatusRevision where
  schemaVersion := 1
  apparatusId := ⟨"apparatus:main:slitter",by decide +kernel⟩
  display := ⟨"Slitter","",1⟩
  equipmentClassId := sampleId
  physicalAssetId := sampleId
  hierarchy := ⟨sampleId,sampleId,sampleId,sampleId,sampleId⟩
  capabilities := [⟨.cut,1⟩]
  executionProfile := ⟨.cut,.slitting,none,none,none,.disabled,false⟩
  policies := ⟨.freePick,.allRequired itemGroupIds,.notRequired,false⟩
  capacity := ⟨1,0,0,100,false,.always⟩
  placement := none
  training := ⟨false,false,false⟩
  lifecycle := ⟨.active,none⟩
  revisionMetadata := ⟨1,1,"admin","command",.admin,none⟩
  aasIdentity := CanonicalApparatusRevision.expectedAasIdentity "main:slitter"

variable {itemGroupIds : List String}

theorem validate_machineWith
    (h : validateSortedUniqueReferences itemGroupIds "material_item_group" = .ok ()) :
    (machineWith itemGroupIds).validate=.ok () := by
  have hpolicies : (machineWith itemGroupIds).validatePolicies=.ok () := by
    simp only [CanonicalApparatusRevision.validatePolicies,bind_eq_ok]
    exact ⟨(),h,(),rfl,rfl⟩
  -- The other checks do not see the item groups.
  have hdisplay : (machineWith []).validateDisplay=.ok () := by decide +kernel
  have hcapabilities : (machineWith []).validateCapabilities=.ok () := by decide
  have hprofile : (machineWith []).validateExecutionProfile=.ok () := by decide
  have hcapacity : (machineWith []).validateCapacity=.ok () := by decide
  have hmetadata : (machineWith []).validateRevisionMetadata=.ok () := by decide +kernel
  have hidentity : (machineWith []).validateAasIdentity=.ok () := by decide +kernel
  simp only [CanonicalApparatusRevision.validate,bind_eq_ok]
  exact ⟨(),rfl,(),hdisplay,(),hcapabilities,(),hprofile,(),hpolicies,(),hcapacity,(),
    rfl,(),hmetadata,(),hidentity,rfl⟩

theorem size_machineWith (w : Char → Nat) (itemGroupIds : List String) :
    Json.size w (machineWith itemGroupIds).toJson+Json.size w (stringsJson []) =
      Json.size w (machineWith []).toJson+Json.size w (stringsJson itemGroupIds) := by
  simp only [CanonicalApparatusRevision.toJson,ApparatusOperationalPolicies.toJson,machineWith,
    materialJson,Json.size,Json.fieldsSize,cons_append,nil_append,
    Bool.false_eq_true,if_false]
  omega

theorem size_stringsJson (w : Char → Nat) {texts : List String} (h : texts ≠ []) :
    Json.size w (stringsJson texts)+w ',' =
      w '[' + w ']' + (texts.map fun text => Json.stringWeight w text+w ',').sum := by
  have hne : texts.map Json.string ≠ [] := by simpa using h
  have hsize := Json.size_array w hne
  rw [map_map] at hsize
  exact hsize

def itemGroupWrites (itemGroupIds : List String) : List Write :=
  numbered (fun number value =>
    [.property ("ItemGroup" ++ toString number) "xs:string" value]) itemGroupIds

theorem revisionWrites_machineWith : ∃ left right : List Write, ∀ itemGroupIds,
    revisionWrites (machineWith itemGroupIds)=left++(itemGroupWrites itemGroupIds++right) := by
  let machine := machineWith []
  refine ⟨pushIdentity machine++pushHierarchy machine++pushCapabilities machine ++
      pushExecution machine++[Write.collectionStart "OperationalPolicies",
        Write.property "QueueDiscipline" "xs:string" "free_pick",
        Write.collectionStart "MaterialPolicy",Write.property "Mode" "xs:string" "all_required",
        Write.collectionStart "ItemGroups"],
    [Write.collectionEnd,Write.collectionEnd] ++
      collection "ToolingPolicy" (pushTooling .notRequired)++[Write.collectionEnd] ++
      pushCapacity machine++pushLifecycleAndContext machine++pushRevisionAndAas machine,
    fun itemGroupIds => ?_⟩
  have hpolicies : pushPolicies (machineWith itemGroupIds) =
      [Write.collectionStart "OperationalPolicies",
        Write.property "QueueDiscipline" "xs:string" "free_pick",
        Write.collectionStart "MaterialPolicy",Write.property "Mode" "xs:string" "all_required",
        Write.collectionStart "ItemGroups"]++(itemGroupWrites itemGroupIds ++
      ([Write.collectionEnd,Write.collectionEnd] ++
        collection "ToolingPolicy" (pushTooling .notRequired)++[Write.collectionEnd])) := by
    simp only [pushPolicies,machineWith,pushMaterial,pushIndexedValues,collection,
      itemGroupWrites,Bool.false_eq_true,if_false,QueueDiscipline.jsonName,nil_append,
      cons_append,append_assoc]
  change pushIdentity machine++pushHierarchy machine++pushCapabilities machine ++
    pushExecution machine++pushPolicies (machineWith itemGroupIds)++pushCapacity machine ++
    pushLifecycleAndContext machine++pushRevisionAndAas machine=_
  rw [hpolicies]
  simp only [append_assoc]

theorem fixed_machineWith : (revisionWrites (machineWith [])).length≤100 ∧
    (∀ write∈revisionWrites (machineWith []), ∀ value∈write.texts,
      printableWithin value.toList 300=true) ∧
    (∀ value∈headTexts (machineWith []), printableWithin value.toList 300=true) ∧
    printableWithin (machineWith []).toJson.text 3000=true := by
  decide +kernel

theorem length_revisionWrites (itemGroupIds : List String) :
    (revisionWrites (machineWith itemGroupIds)).length≤100+itemGroupIds.length := by
  obtain ⟨left,right,hwrites⟩ := revisionWrites_machineWith
  have hfixed := fixed_machineWith.1
  have hnone : (itemGroupWrites []).length=0 := rfl
  have hgroups : (itemGroupWrites itemGroupIds).length=itemGroupIds.length := by
    simp [itemGroupWrites,numbered]
  rw [hwrites,length_append,length_append] at hfixed ⊢
  omega

theorem short_of_printableWithin {value : String} (h : printableWithin value.toList 300=true) :
    Short value :=
  weight_of_printableWithin h

section
variable (hcount : itemGroupIds.length≤300) (hshort : ∀ id∈itemGroupIds, Short id)
include hcount hshort

theorem short_itemGroupWrites {write : Write}
    (h : write∈itemGroupWrites itemGroupIds) : ∀ value∈write.texts, Short value := by
  have hdigits : ∀ number∈List.range 300,
      printableWithin (Nat.toDigits 10 (number+1)) 10=true := by decide +kernel
  have hname : ∀ number<300, Short ("ItemGroup" ++ toString (number+1)) := by
    intro number hnumber
    have hstem : weight cost "ItemGroup".toList≤9 := weight_of_printableWithin (by decide +kernel)
    have hdigit : weight cost (toString (number+1)).toList≤10 := by
      rw [Nat.toString_eq_repr,Nat.repr,String.toList_ofList]
      exact weight_of_printableWithin (hdigits number (mem_range.mpr hnumber))
    rw [Short,String.toList_append,weight_append]
    omega
  simp only [itemGroupWrites,numbered,mem_flatMap,mem_singleton] at h
  obtain ⟨entry,hentry,rfl⟩ := h
  obtain ⟨hindex,hvalue⟩ := mem_zipIdx' hentry
  simp only [Write.texts,forall_mem_cons]
  refine ⟨hname _ (by omega),
    short_of_printableWithin (by decide +kernel),hshort _ (hvalue ▸ getElem_mem hindex),
    by simp⟩

theorem short_revisionWrites {write : Write}
    (h : write∈revisionWrites (machineWith itemGroupIds)) : ∀ value∈write.texts, Short value := by
  obtain ⟨left,right,hwrites⟩ := revisionWrites_machineWith
  have hfixed := fixed_machineWith.2.1
  rw [hwrites] at h hfixed
  simp only [mem_append] at h hfixed
  obtain hleft | hgroups | hright := h
  · exact fun value hvalue => short_of_printableWithin (hfixed write (.inl hleft) value hvalue)
  · exact short_itemGroupWrites hcount hshort hgroups
  · exact fun value hvalue =>
      short_of_printableWithin (hfixed write (.inr (.inr hright)) value hvalue)

end

theorem cost_toText (hne : itemGroupIds ≠ [])
    (hweight : ∀ id∈itemGroupIds, Json.stringWeight cost id≤600) :
    weight cost (machineWith itemGroupIds).toText.toList≤3001+601*itemGroupIds.length := by
  have hfixed : weight cost (machineWith []).toJson.text≤3000 :=
    weight_of_printableWithin fixed_machineWith.2.2.2
  have hcosts : cost ','=1 ∧ cost '['=1 ∧ cost ']'=1 := by decide
  have hsum : (itemGroupIds.map fun text => Json.stringWeight cost text+cost ',').sum ≤
      itemGroupIds.length*601 := by
    have hitems := sum_le_card_nsmul
      (itemGroupIds.map fun text => Json.stringWeight cost text+cost ',') 601 ?_
    · simpa using hitems
    · rw [forall_mem_map]
      intro id hid
      have hid := hweight id hid
      omega
  have hsize := size_machineWith cost itemGroupIds
  have harray := size_stringsJson cost hne
  rw [Json.weight_text] at hfixed
  rw [CanonicalApparatusRevision.toText,Json.write,String.toList_ofList,Json.weight_text]
  omega

theorem exists_export {Sha256 : Type} (crates : Crates Sha256)
    (hvalid : validateSortedUniqueReferences itemGroupIds "material_item_group" = .ok ())
    (hcount : itemGroupIds.length≤300) (hne : itemGroupIds ≠ [])
    (hshort : ∀ id∈itemGroupIds, Short id ∧ Json.stringWeight cost id≤600) :
    ∃ artifact, exportCanonicalAasx crates (machineWith itemGroupIds)=.ok artifact := by
  have hpayload := cost_toText hne fun id hid => (hshort id hid).2
  have hlength := length_revisionWrites itemGroupIds
  have hhead : ∀ value∈headTexts (machineWith itemGroupIds), Short value := by
    exact fun value hvalue => short_of_printableWithin (fixed_machineWith.2.2.1 value hvalue)
  have hcost : weight cost (environmentText (machineWith itemGroupIds)
      (machineWith itemGroupIds).toText)≤_ := cost_environmentText hhead
    fun write hwrite => short_revisionWrites hcount (fun id hid => (hshort id hid).1) hwrite
  have hbytes := length_bytes_le_cost (machineWith itemGroupIds).toText.toList
  rw [String.ofList_toList,length_bytes] at hbytes
  have hpayloadLimit : 200000 ≤ maxCanonicalPayloadBytes := by decide
  have hpartLimit : 5000000 ≤ maxAasxPartSize := by decide
  have hsize : (machineWith itemGroupIds).toText.utf8ByteSize ≤ maxCanonicalPayloadBytes := by omega
  have hpart : weight cost (environmentText (machineWith itemGroupIds)
      (machineWith itemGroupIds).toText) ≤ maxAasxPartSize := by omega
  obtain ⟨specification,package,hspecification,hpackage⟩ := exists_environment hsize hpart
  exact ⟨_,exportCanonicalAasx_eq_ok.mpr
    ⟨validate_machineWith hvalid,specification,package,hspecification,hpackage,rfl⟩⟩

/- Item groups whose names are full of quotation marks: each is two bytes of the payload, and
seven once it is escaped. -/

def quotedId (code : Nat) : String := String.ofList (Char.ofNat code::List.replicate 255 '"')

def quotedIds : List String := (List.range' 0x4E00 300).map quotedId

theorem increasing_range' {α : Type} {lt : α → α → Bool} {f : Nat → α} (count : Nat) :
    ∀ first, (∀ i∈List.range' first count, lt (f i) (f (i+1))=true) →
      increasing lt ((List.range' first count).map f)=true := by
  induction count with
  | zero => exact fun _ _ => rfl
  | succ count ih =>
    intro first h
    rw [range'_succ,forall_mem_cons] at h
    have hrest := ih (first+1) h.2
    cases count with
    | zero => rfl
    | succ count =>
      rw [range'_succ,range'_succ,map_cons,map_cons,increasing,h.1]
      rw [range'_succ,map_cons] at hrest
      exact hrest

theorem forall_quotedIds {P : String → Prop} (h : ∀ code∈List.range' 0x4E00 300, P (quotedId code)) :
    ∀ id∈quotedIds, P id := by
  intro id hid
  obtain ⟨code,hcode,rfl⟩ := mem_map.mp hid
  exact h code hcode

theorem firstChar_quotedId : ∀ code∈List.range' 0x4E00 300, Char.ofNat code<Char.ofNat (code+1) ∧
    isWhitespace (Char.ofNat code)=false ∧ isControl (Char.ofNat code)=false ∧
    Json.escapeChar (Char.ofNat code)=[Char.ofNat code] ∧ cost (Char.ofNat code)=3 := by
  decide +kernel

theorem validate_quotedIds :
    validateSortedUniqueReferences quotedIds "material_item_group" = .ok () := by
  have hincreasing : increasing (fun left right : String => decide (left < right)) quotedIds =
      true := by
    refine increasing_range' 300 0x4E00 fun code hcode => decide_eq_true ?_
    rw [String.lt_iff_toList_lt,quotedId,quotedId,String.toList_ofList,String.toList_ofList]
    exact List.Lex.rel (firstChar_quotedId code hcode).1
  simp only [validateSortedUniqueReferences,bind_eq_ok,forM_eq_ok]
  refine ⟨(),by rw [hincreasing]; rfl,forall_quotedIds fun code hcode => ?_⟩
  have hchars : ∀ c∈(quotedId code).toList, isWhitespace c=false ∧ isControl c=false := by
    intro c hc
    rw [quotedId,String.toList_ofList,mem_cons] at hc
    obtain rfl | hquote := hc
    · have hfirst := firstChar_quotedId code hcode
      exact ⟨hfirst.2.1,hfirst.2.2.1⟩
    · rw [eq_of_mem_replicate hquote]
      decide
  have htrim : trim (quotedId code)=quotedId code := trim_of_forall fun c hc => (hchars c hc).1
  have hcontrol : (quotedId code).toList.any isControl=false :=
    any_eq_false.mpr fun c hc => Bool.eq_false_iff.mp (hchars c hc).2
  have hlength : (quotedId code).toList.length ≤ maxReferenceChars := by
    rw [quotedId,String.toList_ofList,length_cons,length_replicate]
    decide
  have hne : quotedId code ≠ "" := by
    intro h
    have hlist := congrArg String.toList h
    rw [quotedId,String.toList_ofList] at hlist
    exact cons_ne_nil _ _ hlist
  rw [validateReference,hcontrol,htrim,decide_eq_true hlength,bne_iff_ne.mpr hne, beq_self_eq_true]
  rfl

theorem stringWeight_quotedId (w : Char → Nat) {code : Nat} (hcode : code∈List.range' 0x4E00 300) :
    Json.stringWeight w (quotedId code)=2*w '"' + (w (Char.ofNat code)+255*(w '\\' + w '"')) := by
  have hplain := (firstChar_quotedId code hcode).2.2.2.1
  have hquote : Json.escapeChar '"' = ['\\','"'] := rfl
  rw [Json.stringWeight,quotedId,String.toList_ofList,weight_cons,weight_replicate,hplain,hquote]
  simp only [weight_cons,weight_nil,Nat.add_zero]

theorem short_quotedId {code : Nat} (hcode : code∈List.range' 0x4E00 300) :
    Short (quotedId code) ∧ Json.stringWeight cost (quotedId code)≤600 := by
  have hcost := (firstChar_quotedId code hcode).2.2.2.2
  have hquote : cost '"'=1 ∧ cost '\\'=1 := by decide
  rw [stringWeight_quotedId cost hcode,Short,quotedId,
    String.toList_ofList,weight_cons,weight_replicate,hcost,hquote.1]
  decide

theorem escaped_quotedIds : maxCanonicalPayloadBytes <
    (String.ofList (escape (machineWith quotedIds).toText)).utf8ByteSize := by
  let w : Char → Nat := fun c => weight Char.utf8Size (escapeChar c)
  have hquote : w '"'=6 ∧ w '\\'=1 ∧ w ','=1 ∧ w '['=1 ∧ w ']'=1 := by decide
  have hsum : quotedIds.length*1797 ≤
      (quotedIds.map fun text => Json.stringWeight w text+w ',').sum := by
    have hitems := card_nsmul_le_sum
      (quotedIds.map fun text => Json.stringWeight w text+w ',') 1797 ?_
    · simpa using hitems
    · rw [forall_mem_map]
      refine forall_quotedIds fun code hcode => ?_
      rw [stringWeight_quotedId w hcode]
      omega
  have hlength : quotedIds.length=300 := by simp [quotedIds]
  have hsize := size_machineWith w quotedIds
  have hne : quotedIds ≠ [] := by simp [quotedIds]
  have harray := size_stringsJson w hne
  have hempty : Json.size w (stringsJson [])=w '[' + w ']' := by simp [stringsJson,Json.size]
  have hlimit : maxCanonicalPayloadBytes<530000 := by decide
  rw [utf8ByteSize_ofList,escape_eq,weight_flatMap,CanonicalApparatusRevision.toText,Json.write,
    String.toList_ofList,Json.weight_text]
  change _<Json.size w _
  omega

/-- A file that was exported is imported back, and its canonical form is the file itself, exactly
if the payload fits the limit once it is escaped. -/
theorem exportCanonicalAasx_imports_iff {Sha256 : Type} {crates : Crates Sha256}
    {revision : CanonicalApparatusRevision} {artifact : CanonicalAasxArtifact Sha256}
    (hexport : exportCanonicalAasx crates revision=.ok artifact)
    (hserde : crates.fromStr revision.toText=some revision) :
    (parseCanonicalAasx crates artifact.bytes=.ok revision ∧
      ∃ upload, canonicalizeUploadedAasx crates artifact.bytes=.ok upload ∧
        upload.canonicalArtifact.bytes=artifact.bytes) ↔
      (String.ofList (escape revision.toText)).utf8ByteSize ≤ maxCanonicalPayloadBytes := by
  constructor
  · rintro ⟨hparse,-⟩
    by_contra himport
    rw [parse_of_not_importable hexport himport] at hparse
    cases hparse
  · intro himport
    have hparse := parse_of_importable hexport hserde himport
    refine ⟨hparse,⟨revision,artifact⟩,?_,rfl⟩
    simp only [canonicalizeUploadedAasx,bind_eq_ok,mapError_eq_ok]
    exact ⟨revision,hparse,artifact,hexport,rfl⟩

theorem exportCanonicalAasx_imports_film : ∃ (crates : Crates Unit) (artifact : _),
    exportCanonicalAasx crates (machineWith ["film"])=.ok artifact ∧
    parseCanonicalAasx crates artifact.bytes=.ok (machineWith ["film"]) ∧
    ∃ upload, canonicalizeUploadedAasx crates artifact.bytes=.ok upload ∧
      upload.canonicalArtifact.bytes=artifact.bytes := by
  let crates : Crates Unit := ⟨fun _ => (),fun _ _ => .ok [],fun _ => some (machineWith ["film"])⟩
  have hcosts : ∀ id ∈ ["film"], Short id ∧ Json.stringWeight cost id≤600 := by
    rintro id hid
    rw [List.mem_singleton.mp hid]
    exact ⟨short_of_printableWithin (by decide +kernel),by decide +kernel⟩
  have hne : ["film"] ≠ [] := by decide
  obtain ⟨artifact,hexport⟩ := exists_export crates (by decide +kernel) (by decide) hne hcosts
  have hpayload := cost_toText hne fun id hid => (hcosts id hid).2
  have hescaped := (weight_mono utf8Size_le_cost _).trans
    (cost_escape_le (machineWith ["film"]).toText)
  have hlimit : 100000 ≤ maxCanonicalPayloadBytes := by decide
  refine ⟨crates,artifact,hexport,(exportCanonicalAasx_imports_iff hexport rfl).mpr ?_⟩
  rw [utf8ByteSize_ofList]
  rw [List.length_singleton] at hpayload
  omega

/-- A file that is exported and then refused. -/
theorem exportCanonicalAasx_not_imported : ∃ (crates : Crates Unit) (artifact : _),
    crates.fromStr (machineWith quotedIds).toText=some (machineWith quotedIds) ∧
    exportCanonicalAasx crates (machineWith quotedIds)=.ok artifact ∧
    parseCanonicalAasx crates artifact.bytes=.error .invalidCanonicalPayload := by
  let crates : Crates Unit := ⟨fun _ => (),fun _ _ => .ok [],fun _ => some (machineWith quotedIds)⟩
  obtain ⟨artifact,hexport⟩ := exists_export crates validate_quotedIds (by simp [quotedIds])
    (by simp [quotedIds]) (forall_quotedIds fun _ hcode => short_quotedId hcode)
  exact ⟨crates,artifact,rfl,hexport,
    parse_of_not_importable hexport (Nat.not_le.mpr escaped_quotedIds)⟩

/-- The canonical form of an uploaded file is its own canonical form. -/
theorem canonicalizeUploadedAasx_idempotent {Sha256 : Type} (crates : Crates Sha256)
    (uploaded : List UInt8) :
    (canonicalizeUploadedAasx crates uploaded >>= fun upload =>
      canonicalizeUploadedAasx crates upload.canonicalArtifact.bytes) =
        canonicalizeUploadedAasx crates uploaded := by
  cases h : canonicalizeUploadedAasx crates uploaded with
  | error e => rfl
  | ok upload =>
    simp only [canonicalizeUploadedAasx,bind_eq_ok,mapError_eq_ok] at h
    obtain ⟨revision,hparse,artifact,hexport,hupload⟩ := h
    cases hupload
    simp only [parseCanonicalAasx,bind_eq_ok,mapError_eq_ok,required_eq_ok,ensure_eq_ok,
      beq_iff_eq] at hparse
    obtain ⟨_,-,source,-,payload,hextract,_,hserde,_,-,expected,hexpected,_,hsource,hread⟩ := hparse
    cases hread
    -- an accepted file has the specification of the export, so its payload is the revision's text
    obtain ⟨specification,hspecification,-,hown⟩ := extract_of_export hexport
    rw [hsource,Except.ok.inj (hexpected.symm.trans hspecification),hown] at hextract
    split at hextract
    · rename_i hsize
      cases hextract
      have hagain := parse_of_importable hexport hserde hsize
      change canonicalizeUploadedAasx crates artifact.bytes=_
      rw [canonicalizeUploadedAasx,hagain]
      simp [hexport,bind,Except.bind,Except.mapError,pure,Except.pure]
    · cases hextract

end MiniErp.Aasx
