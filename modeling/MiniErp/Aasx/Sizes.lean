import MiniErp.Aasx.Payload
import MiniErp.Lib.Weight

/-! Sizes of specifications: when the characters and the length of the XML let it be packed, from
the values that are written. -/
namespace MiniErp.Aasx
open Text Run Apparatus List

/-- The bytes of a character; a character that XML forbids costs more than a part may have. -/
def cost (c : Char) : Nat := if isXmlCharacter c then c.utf8Size else maxAasxPartSize+1

theorem utf8Size_le_cost (c : Char) : c.utf8Size ≤ cost c := by
  have hsize : c.utf8Size≤4 := Char.utf8Size_le_four c
  have hmax : 4 < maxAasxPartSize := by decide
  unfold cost
  split <;> omega

variable {text : List Char} {aasXml : List UInt8} {revision : CanonicalApparatusRevision}

theorem validateXmlCharacters_of_cost (h : weight cost text ≤ maxAasxPartSize) :
    validateXmlCharacters text=.ok () := by
  have hall : text.find? (fun c => !isXmlCharacter c)=none := by
    rw [find?_eq_none]
    intro c hc hforbidden
    have hcost := le_weight (w := cost) hc
    rw [Bool.not_eq_true'] at hforbidden
    simp only [cost,hforbidden,Bool.false_eq_true,if_false] at hcost
    omega
  rw [validateXmlCharacters,hall]

theorem length_bytes_le_cost (text : List Char) :
    (bytes (String.ofList text)).length≤weight cost text := by
  rw [length_bytes,utf8ByteSize_ofList]
  exact weight_mono utf8Size_le_cost text

def isPrintable (c : Char) : Bool := Nat.beq c.toNat 10 || Nat.ble 32 c.toNat && Nat.ble c.toNat 126

/-- The text is printable and not longer than the bound. -/
def printableWithin : List Char → Nat → Bool
  | [], _ => true
  | _ :: _, 0 => false
  | c::rest, bound+1 => isPrintable c && printableWithin rest bound

theorem utf8Size_of_isPrintable {c : Char} (h : isPrintable c=true) : c.utf8Size=1 := by
  have hrange : c.toNat≤127 := by
    simp only [isPrintable,Bool.or_eq_true,Bool.and_eq_true,Nat.beq_eq,Nat.ble_eq] at h
    omega
  have hval : c.val≤0x7f := by simpa [UInt32.le_iff_toNat_le] using hrange
  simp [Char.utf8Size,hval]

theorem cost_of_isPrintable {c : Char} (h : isPrintable c=true) : cost c=1 := by
  have hsize := utf8Size_of_isPrintable h
  have hxml : isXmlCharacter c=true := by
    simp only [isPrintable,Bool.or_eq_true,Bool.and_eq_true,Nat.beq_eq,Nat.ble_eq] at h
    simp only [isXmlCharacter,Bool.or_eq_true,Bool.and_eq_true,beq_iff_eq,decide_eq_true_eq]
    omega
  rw [cost,if_pos hxml,hsize]

theorem weight_of_printableWithin {bound : Nat}
    (h : printableWithin text bound=true) : weight cost text≤bound := by
  induction text generalizing bound with
  | nil => exact Nat.zero_le bound
  | cons c rest ih =>
    cases bound with
    | zero => cases h
    | succ bound =>
      rw [printableWithin,Bool.and_eq_true] at h
      have hrest := ih h.2
      rw [weight_cons,cost_of_isPrintable h.1]
      omega

/- The package. -/

theorem length_bytes_of_printableWithin {s : String} {bound : Nat}
    (h : printableWithin s.toList bound=true) : (bytes s).length≤bound := by
  have hlength := length_bytes_le_cost s.toList
  rw [String.ofList_toList] at hlength
  exact hlength.trans (weight_of_printableWithin h)

theorem length_bytes_append {s t : String} {m n : Nat} (hs : (bytes s).length ≤ m)
    (ht : (bytes t).length≤n) : (bytes (s++t)).length ≤ m+n := by
  rw [bytes_append,length_append]
  exact Nat.add_le_add hs ht

theorem length_fixed (h : printableWithin text 200=true) :
    (bytes (String.ofList text)).length≤200 := by
  refine length_bytes_of_printableWithin ?_
  rwa [String.toList_ofList]

theorem length_fixedXml : (bytes contentTypesXml).length≤1600 ∧
    (bytes rootRelationshipsXml).length≤1400 ∧ (bytes originRelationshipsXml).length≤1000 := by
  -- each text is a chain of lines of at most 200 bytes
  refine ⟨?_,?_,?_⟩
  · refine length_bytes_append (length_bytes_append (length_bytes_append (length_bytes_append
      (length_bytes_append (length_bytes_append (length_bytes_append (m := 200) (n := 200)
      (length_fixed ?_) (length_fixed ?_)) (n := 200) (length_fixed ?_)) (n := 200)
      (length_fixed ?_)) (n := 200) (length_fixed ?_)) (n := 200) (length_fixed ?_)) (n := 200)
      (length_fixed ?_)) (n := 200) (length_fixed ?_)
    all_goals decide +kernel
  · refine length_bytes_append (length_bytes_append (length_bytes_append (length_bytes_append
      (length_bytes_append (length_bytes_append (m := 200) (n := 200) (length_fixed ?_)
      (length_fixed ?_)) (n := 200) (length_fixed ?_)) (n := 200) (length_fixed ?_)) (n := 200)
      (length_fixed ?_)) (n := 200) (length_fixed ?_)) (n := 200) (length_fixed ?_)
    all_goals decide +kernel
  · refine length_bytes_append (length_bytes_append (length_bytes_append (length_bytes_append
      (m := 200) (n := 200) (length_fixed ?_) (length_fixed ?_)) (n := 200) (length_fixed ?_))
      (n := 200) (length_fixed ?_)) (n := 200) (length_fixed ?_)
    all_goals decide +kernel

theorem length_name {name : String} (h : name∈packageParts) : (bytes name).length≤30 := by
  have hall : ∀ name∈packageParts, (bytes name).length≤30 := by decide +kernel
  exact hall name h

theorem name_mem_packageParts {entry : ZipEntry}
    (hentry : entry∈packageEntries aasXml) : entry.name∈packageParts := by
  exact mem_map.mpr ⟨entry,hentry,rfl⟩

theorem contents_packageEntries (h : aasXml.length ≤ maxAasxPartSize) {entry : ZipEntry}
    (hentry : entry∈packageEntries aasXml) : entry.contents.length ≤ maxAasxPartSize := by
  have hlong : 1600 ≤ maxAasxPartSize := by decide
  have hlengths : ∀ contents∈(packageEntries aasXml).map ZipEntry.contents,
      contents.length ≤ maxAasxPartSize := by
    simp only [packageEntries,map_cons,map_nil,forall_mem_cons]
    obtain ⟨htypes,hroot,horigin⟩ := length_fixedXml
    exact ⟨by omega,by omega,Nat.zero_le _,by omega,h,by simp⟩
  exact hlengths _ (mem_map.mpr ⟨entry,hentry,rfl⟩)

theorem length_archive_eq_sum (entries : List ZipEntry) : (archive entries).length =
    (entries.map fun entry => 76+2*(bytes entry.name).length+entry.contents.length).sum + 22 := by
  have hrecords : ∀ (entries : List ZipEntry) (offset : Nat),
      (locals entries).length+(centrals offset entries).length=(entries.map fun entry =>
          76+2*(bytes entry.name).length+entry.contents.length).sum := by
    intro entries
    induction entries with
    | nil => exact fun _ => rfl
    | cons entry rest ih =>
      intro offset
      have hrest := ih (offset+(localRecord entry).length)
      have hlocal := length_localRecord entry
      have hcentral := length_centralRecord offset entry
      rw [locals] at hrest
      rw [locals,centrals,flatMap_cons,length_append,length_append, map_cons,sum_cons]
      omega
  rw [length_archive,hrecords]

theorem length_archive_le {entries : List ZipEntry} {bounds : List Nat}
    (hnames : ∀ entry∈entries, (bytes entry.name).length≤30)
    (hcontents : List.Forall₂ (fun entry bound => entry.contents.length≤bound) entries bounds) :
    (archive entries).length≤(bounds.map (136 + ·)).sum+22 := by
  rw [length_archive_eq_sum,Nat.add_le_add_iff_right]
  induction hcontents with
  | nil => exact Nat.le_refl 0
  | cons hfirst _ ih =>
    rw [forall_mem_cons] at hnames
    have hrest := ih hnames.2
    simp only [map_cons,sum_cons]
    omega

theorem length_archive_packageEntries (h : aasXml.length ≤ maxAasxPartSize) :
    (archive (packageEntries aasXml)).length ≤ maxAasxPackageSize := by
  have hcontents : List.Forall₂ (fun entry bound => entry.contents.length≤bound)
      (packageEntries aasXml) [1600,1400,0,1000,maxAasxPartSize] := by
    simp only [packageEntries,forall₂_cons,forall₂_nil_left_iff]
    obtain ⟨htypes,hroot,horigin⟩ := length_fixedXml
    exact ⟨htypes,hroot,Nat.le_refl 0,horigin,h,trivial⟩
  exact (length_archive_le (fun _ hentry => length_name (name_mem_packageParts hentry))
    hcontents).trans (by decide)

theorem exists_packageFromAasXml (h : aasXml.length ≤ maxAasxPartSize) :
    ∃ package, packageFromAasXml aasXml=.ok package := by
  refine ⟨archive (packageEntries aasXml),?_⟩
  rw [packageFromAasXml,ensure_bind_eq_ok,writeZip_eq_ok]
  refine ⟨decide_eq_true h,?_,?_,length_archive_packageEntries h,rfl⟩
  · simp [packageEntries]
  · intro entry hentry
    exact ⟨contents_packageEntries h hentry,
      (length_name (name_mem_packageParts hentry)).trans_lt (by decide)⟩

/- The specification. -/

theorem weight_escape_le {w : Char → Nat} (hw : ∀ c, 0<w c)
    (hentity : ∀ entity∈entities, weight w entity.1≤6) (value : String) :
    weight w (escape value)≤6*weight w value.toList := by
  have hchar : ∀ c, weight w (escapeChar c)≤6*w c := by
    have hall : ∀ {c text}, (text, c)∈entities → weight w text≤6*w c := by
      intro c text h
      have hc := hw c
      have hsize : weight w text≤6 := hentity _ h
      omega
    refine escapeChar_induction (P := fun c text => weight w text≤6*w c) (hall (by decide))
      (hall (by decide)) (hall (by decide)) (hall (by decide)) (hall (by decide)) ?_
    intro c _
    rw [weight_cons,weight_nil]
    omega
  rw [escape_eq,weight_flatMap]
  induction value.toList with
  | nil => exact Nat.le_refl 0
  | cons c rest ih =>
    have hc := hchar c
    rw [weight_cons,weight_cons]
    omega

theorem cost_escape_le (value : String) : weight cost (escape value)≤6*weight cost value.toList :=
  weight_escape_le (fun c => (Char.utf8Size_pos c).trans_le (utf8Size_le_cost c)) (by decide) value

theorem cost_append {l l' : List Char} {m n : Nat} (h : weight cost l ≤ m)
    (h' : weight cost l' ≤ n) : weight cost (l++l') ≤ m+n := by
  rw [weight_append]
  exact Nat.add_le_add h h'

def Write.texts : Write → List String
  | .collectionStart idShort => [idShort]
  | .property idShort valueType value => [idShort,valueType,value]
  | .collectionEnd => []

theorem cost_write (write : Write) : weight cost write.text ≤
    700+(write.texts.map fun value => weight cost (escape value)).sum := by
  have hfixed : ∀ {s : List Char}, printableWithin s 60=true → weight cost s≤60 :=
    weight_of_printableWithin
  cases write with
  | collectionStart idShort =>
    unfold Write.text
    refine (cost_append (cost_append (hfixed ?_) (cost_append (hfixed ?_) (cost_append
      (hfixed ?_) (cost_append (Nat.le_refl _) (hfixed ?_))))) (hfixed ?_)).trans ?_
    rotate_right
    · rw [Write.texts,map_singleton,sum_singleton]
      omega
    all_goals
      rw [String.toList_ofList]
      decide +kernel
  | property idShort valueType value =>
    unfold Write.text
    refine (cost_append (cost_append (cost_append (cost_append (hfixed ?_)
      (cost_append (hfixed ?_) (cost_append (hfixed ?_) (cost_append (Nat.le_refl _) (hfixed ?_)))))
      (cost_append (hfixed ?_) (cost_append (Nat.le_refl _) (hfixed ?_))))
      (cost_append (hfixed ?_) (cost_append (hfixed ?_) (cost_append
        (Nat.le_refl _) (cost_append (hfixed ?_) (hfixed ?_)))))) (hfixed ?_)).trans ?_
    rotate_right
    · simp only [Write.texts,map_cons,map_nil,sum_cons,sum_nil]
      omega
    all_goals
      rw [String.toList_ofList]
      decide +kernel
  | collectionEnd =>
    unfold Write.text
    refine (hfixed ?_).trans (by simp [Write.texts])
    rw [String.toList_ofList]
    decide +kernel

example : weight cost Write.collectionEnd.text≤700 := by decide +kernel

def Short (value : String) : Prop := weight cost value.toList≤300

theorem Short.escape {value : String} (h : Short value) : weight cost (escape value)≤1800 :=
  (cost_escape_le value).trans (Nat.mul_le_mul_left 6 h)

theorem cost_write_of_short {write : Write} (h : ∀ value∈write.texts, Short value) :
    weight cost write.text≤6100 := by
  have hlength : write.texts.length≤3 := by cases write <;> simp [Write.texts]
  have hsum : (write.texts.map fun value => weight cost (escape value)).sum ≤
      write.texts.length*1800 := by
    have hvalues := sum_le_card_nsmul (write.texts.map fun value => weight cost (escape value))
      1800 (by simpa using fun value hvalue => (h value hvalue).escape)
    simpa using hvalues
  have hwrite := cost_write write
  omega

theorem cost_writes {writes : List Write} (h : ∀ write∈writes, ∀ value∈write.texts, Short value) :
    weight cost (writes.flatMap Write.text)≤6100*writes.length := by
  induction writes with
  | nil => exact Nat.le_refl 0
  | cons write rest ih =>
    rw [forall_mem_cons] at h
    have hfirst := cost_write_of_short h.1
    have hrest := ih h.2
    rw [flatMap_cons,weight_append,length_cons]
    omega

def headTexts (revision : CanonicalApparatusRevision) : List String :=
  [revision.aasIdentity.shellId,revision.physicalAssetId.value,revision.aasIdentity.submodelId,
    revision.aasIdentity.semanticId]

theorem cost_environmentHead (h : ∀ value∈headTexts revision, Short value) :
    weight cost (environmentHead revision)≤12000 := by
  have hvalue : ∀ {value : String}, value∈headTexts revision → weight cost (escape value)≤1800 := by
    exact fun hmem => (h _ hmem).escape
  have hfixed : ∀ {s : List Char}, printableWithin s 300=true → weight cost s≤300 :=
    weight_of_printableWithin
  unfold environmentHead aasXmlNamespace
  refine le_trans (cost_append (cost_append (cost_append (cost_append (cost_append (cost_append
    (cost_append (cost_append (cost_append (cost_append (cost_append (cost_append (hfixed ?_)
    (hfixed ?_)) (hfixed ?_))
    (hvalue (by simp [headTexts]))) (hfixed ?_)) (hvalue (by simp [headTexts]))) (hfixed ?_))
    (hvalue (by simp [headTexts]))) (hfixed ?_)) (hvalue (by simp [headTexts]))) (hfixed ?_))
    (hvalue (by simp [headTexts]))) (hfixed ?_)) (by norm_num)
  all_goals
    rw [String.toList_ofList]
    decide +kernel

theorem cost_environmentText {payload : String}
    (hhead : ∀ value∈headTexts revision, Short value)
    (hwrites : ∀ write∈revisionWrites revision, ∀ value∈write.texts, Short value) :
    weight cost (environmentText revision payload) ≤
      29000+6100*(revisionWrites revision).length+6*weight cost payload.toList := by
  have htexts := cost_environmentHead hhead
  have hfields := cost_writes hwrites
  have hname : Short payloadIdShort := weight_of_printableWithin (by decide +kernel)
  have htype : Short "xs:string" := weight_of_printableWithin (by decide +kernel)
  have hopen : weight cost (Write.collectionStart "CanonicalPayload").text≤6100 := by
    refine cost_write_of_short fun value hvalue => ?_
    rw [mem_singleton.mp hvalue]
    exact weight_of_printableWithin (by decide +kernel)
  have hclose : weight cost Write.collectionEnd.text≤6100 :=
    cost_write_of_short fun value hvalue => absurd hvalue not_mem_nil
  have hproperty := cost_write (.property payloadIdShort "xs:string" payload)
  have htail : weight cost environmentTail≤100 := by
    unfold environmentTail
    rw [String.toList_ofList]
    exact weight_of_printableWithin (by decide +kernel)
  have hpayload := cost_escape_le payload
  have hnameCost := hname.escape
  have htypeCost := htype.escape
  simp only [Write.texts,map_cons,map_nil,sum_cons,sum_nil] at hproperty
  rw [environmentText,collection,cons_append,singleton_append,flatMap_append,
    flatMap_cons,flatMap_cons,flatMap_singleton]
  simp only [weight_append]
  omega

theorem exists_environment {payload : String}
    (hpayload : payload.utf8ByteSize ≤ maxCanonicalPayloadBytes)
    (hcost : weight cost (environmentText revision payload) ≤ maxAasxPartSize) :
    ∃ specification package, canonicalAasEnvironment revision payload=.ok specification ∧
      packageFromAasXml (bytes specification)=.ok package := by
  obtain ⟨package,hpackage⟩ := exists_packageFromAasXml
    ((length_bytes_le_cost (environmentText revision payload)).trans hcost)
  refine ⟨_,package,?_,hpackage⟩
  rw [canonicalAasEnvironment,ensure_bind_eq_ok]
  refine ⟨decide_eq_true hpayload,?_⟩
  dsimp only
  rw [validateXmlCharacters_of_cost hcost]
  rfl

end MiniErp.Aasx
