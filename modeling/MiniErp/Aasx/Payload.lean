import MiniErp.Aasx.Environment

/-! The payload of a specification: it is the only value under its name, and reading it back gives
the text that was written, unless its escaped text is too long. -/
namespace MiniErp.Aasx
open Text Run Apparatus Search List
open Materials (MaterialRequirementSet MaterialExecutionPolicy)

/- Escaping, character by character. -/

def escapeChar (c : Char) : List Char :=
  if c = '&' then amp else if c = '<' then lt else if c = '>' then gt else if c = '"' then quot
  else if c = '\'' then apos else [c]

def Plain (c : Char) : Prop := c ≠ '&' ∧ c ≠ '<' ∧ c ≠ '>' ∧ c ≠ '"' ∧ c ≠ '\''

theorem escapeChar_cases (c : Char) :
    (c, escapeChar c) ∈ [('&', amp),('<', lt),('>', gt),('"', quot),('\'', apos)] ∨
      Plain c ∧ escapeChar c=[c] := by
  by_cases hamp : c = '&'
  · exact .inl (by rw [hamp]; decide)
  by_cases hlt : c = '<'
  · exact .inl (by rw [hlt]; decide)
  by_cases hgt : c = '>'
  · exact .inl (by rw [hgt]; decide)
  by_cases hquot : c = '"'
  · exact .inl (by rw [hquot]; decide)
  by_cases hapos : c = '\''
  · exact .inl (by rw [hapos]; decide)
  refine .inr ⟨⟨hamp,hlt,hgt,hquot,hapos⟩,?_⟩
  rw [escapeChar,if_neg hamp,if_neg hlt,if_neg hgt,if_neg hquot,if_neg hapos]

/-- A fact of the five escaped characters and of the others holds of all. -/
theorem escapeChar_induction {P : Char → List Char → Prop} (hamp : P '&' amp) (hlt : P '<' lt)
    (hgt : P '>' gt) (hquot : P '"' quot) (hapos : P '\'' apos)
    (hplain : ∀ c, Plain c → P c [c]) (c : Char) : P c (escapeChar c) := by
  cases escapeChar_cases c with
  | inl h =>
    simp only [mem_cons,Prod.mk.injEq,not_mem_nil,or_false] at h
    obtain ⟨rfl,h⟩ | ⟨rfl,h⟩ | ⟨rfl,h⟩ | ⟨rfl,h⟩ | ⟨rfl,h⟩ := h
    · exact h ▸ hamp
    · exact h ▸ hlt
    · exact h ▸ hgt
    · exact h ▸ hquot
    · exact h ▸ hapos
  | inr h => exact h.2 ▸ hplain c h.1

/-- The replacements one after another do not meet each other's results. -/
theorem escape_eq (value : String) : escape value=value.toList.flatMap escapeChar := by
  have hchar : ∀ c : Char, replace '\'' apos (replace '"' quot (replace '>' gt (replace '<' lt
      (replace '&' amp [c]))))=escapeChar c := by
    refine escapeChar_induction (by decide) (by decide) (by decide) (by decide) (by decide) ?_
    rintro c ⟨hamp,hlt,hgt,hquot,hapos⟩
    simp [replace,hamp,hlt,hgt,hquot,hapos]
  rw [escape]
  induction value.toList with
  | nil => rfl
  | cons c rest ih =>
    rw [flatMap_cons,← hchar c,← ih]
    simp [replace]

theorem escapeChar_clean : ∀ c : Char, '<' ∉ escapeChar c :=
  escapeChar_induction (P := fun _ text => '<' ∉ text) (by decide) (by decide) (by decide)
    (by decide) (by decide) fun c hc h => hc.2.1 (mem_singleton.mp h).symm

theorem escape_clean (value : String) : '<' ∉ escape value := by
  rw [escape_eq,mem_flatMap]
  rintro ⟨c,-,h⟩
  exact escapeChar_clean c h

theorem unescapeChars_entity {entity : List Char × Char} {rest : List Char}
    (h : (entities.find? fun entity => entity.1.isPrefixOf ('&' :: rest))=some entity) :
    unescapeChars ('&' :: rest) =
      (unescapeChars (rest.drop (entity.1.length-1))).map (entity.2 :: ·) := by
  rw [unescapeChars,h]
  dsimp only
  cases unescapeChars (rest.drop (entity.1.length-1)) <;> rfl

theorem unescapeChars_escapeChar (c : Char) (rest : List Char) :
    unescapeChars (escapeChar c++rest)=(unescapeChars rest).map (c :: ·) := by
  have hentity : ∀ (text : List Char) (d : Char), text.head?=some '&' →
      (entities.find? fun entity => entity.1.isPrefixOf (text++rest))=some (text, d) →
      unescapeChars (text++rest)=(unescapeChars rest).map (d :: ·) := by
    intro text d hhead hfind
    cases text with
    | nil => cases hhead
    | cons c text =>
      cases Option.some.inj hhead
      rw [cons_append] at hfind ⊢
      rw [unescapeChars_entity hfind]
      simp
  refine escapeChar_induction
    (P := fun c text => unescapeChars (text++rest)=(unescapeChars rest).map (c :: ·))
    (hentity amp '&' rfl rfl) (hentity lt '<' rfl rfl) (hentity gt '>' rfl rfl)
    (hentity quot '"' rfl rfl) (hentity apos '\'' rfl rfl) ?_ c
  intro c hc
  rw [singleton_append,unescapeChars,if_neg hc.1]
  cases unescapeChars rest <;> rfl

theorem unescape_escape (value : String) : unescape (escape value)=.ok value := by
  have hchars : ∀ l : List Char, unescapeChars (l.flatMap escapeChar)=.ok l := by
    intro l
    induction l with
    | nil => rw [flatMap_nil,unescapeChars]
    | cons c rest ih => rw [flatMap_cons,unescapeChars_escapeChar,ih,Except.map]
  rw [unescape,escape_eq,hchars,Except.map,String.ofList_toList]

example : escape "5 < 'a'" = "5 &lt; &apos;a&apos;".toList := by decide +kernel

theorem escape_injective : Function.Injective escape := by
  intro s t h
  have hread := unescape_escape s
  rw [h,unescape_escape] at hread
  exact (Except.ok.inj hread).symm

/- The name of the payload stands at one place only. -/

theorem idShort_tag (rest : List Char) :
    "<idShort>".toList++rest = '<' :: ("idShort>".toList++rest) := by
  simp

theorem idShort_close (rest : List Char) :
    "</idShort>\n".toList++rest = '<' :: ("/idShort>\n".toList++rest) := by
  simp

theorem payloadIdShort_clean : '<' ∉ payloadIdShort.toList := by simp [payloadIdShort]

theorem escape_payloadIdShort : escape payloadIdShort=payloadIdShort.toList := by
  rw [escape_eq]
  simp [payloadIdShort,escapeChar]

theorem payloadMarker_split : payloadMarker =
    "<idShort>".toList++(payloadIdShort.toList ++ '<' :: "/idShort>".toList) := by
  unfold payloadMarker
  simp

theorem clear_of_plain {s : List Char} (h : '<' ∉ s) : Clear payloadMarker s := by
  exact clear_of_notMem h

theorem clear_idShort {idShort : String} (h : idShort≠payloadIdShort) :
    Clear payloadMarker ("<idShort>".toList++(escape idShort ++ "</idShort>\n".toList)) := by
  have hname : ∀ rest, ¬ payloadMarker <+:
      "<idShort>".toList++(escape idShort++("</idShort>\n".toList++rest)) := by
    intro rest hbegins
    rw [payloadMarker_split,prefix_append_right_inj,idShort_close] at hbegins
    obtain ⟨tail,htail⟩ := hbegins
    rw [append_assoc,cons_append] at htail
    have hsame := append_sep_inj payloadIdShort_clean (escape_clean idShort) htail
    rw [← escape_payloadIdShort] at hsame
    exact h (escape_injective hsame.1).symm
  have htext : Clear payloadMarker "idShort>".toList := clear_of_plain (by simp)
  have hend : Clear payloadMarker "</idShort>\n".toList := clear_of_isClear (by decide +kernel)
  have hrest := htext.append ((clear_of_plain (escape_clean idShort)).append hend)
  rw [idShort_tag]
  refine .cons (fun rest => ?_) hrest
  have hat := hname rest
  rwa [idShort_tag,← append_assoc (escape idShort),← append_assoc] at hat

/-- A write under another name than that of the payload. -/
def Write.Other : Write → Prop
  | .collectionStart idShort => idShort≠payloadIdShort
  | .property idShort _ _ => idShort≠payloadIdShort
  | .collectionEnd => True

theorem clear_text {write : Write} (h : write.Other) : Clear payloadMarker write.text := by
  have hfixed : ∀ {s : List Char}, isClear payloadMarker s=true → Clear payloadMarker s :=
    clear_of_isClear
  cases write with
  | collectionStart idShort =>
    unfold Write.text
    exact ((hfixed (by decide +kernel)).append ((hfixed (by decide +kernel)).append
      (clear_idShort h))).append (hfixed (by decide +kernel))
  | property idShort valueType value =>
    unfold Write.text
    have hvalue := clear_of_plain (escape_clean value)
    have hvalueType := clear_of_plain (escape_clean valueType)
    exact ((((hfixed (by decide +kernel)).append ((hfixed (by decide +kernel)).append
      (clear_idShort h))).append ((hfixed (by decide +kernel)).append (hvalueType.append
      (hfixed (by decide +kernel))))).append ((hfixed (by decide +kernel)).append
      ((hfixed (by decide +kernel)).append (hvalue.append ((hfixed (by decide +kernel)).append
      (hfixed (by decide +kernel))))))).append (hfixed (by decide +kernel))
  | collectionEnd =>
    unfold Write.text
    exact hfixed (by decide +kernel)

theorem other_collection {idShort : String} {members : List Write}
    (hname : idShort≠payloadIdShort) (hmembers : ∀ write∈members, write.Other) :
    ∀ write∈collection idShort members, write.Other := by
  intro write hwrite
  simp only [collection,cons_append,mem_cons,mem_append,not_mem_nil, or_false] at hwrite
  obtain rfl | hmember | rfl := hwrite
  · exact hname
  · exact hmembers write hmember
  · trivial

theorem other_numbered {α : Type} {f : Nat → α → List Write} {items : List α}
    (h : ∀ number item, ∀ write∈f number item, write.Other) :
    ∀ write∈numbered f items, write.Other := by
  intro write hwrite
  obtain ⟨entry,-,hmem⟩ := mem_flatMap.mp hwrite
  exact h _ _ write hmem

theorem other_append {left right : List Write} (hleft : ∀ write∈left, write.Other)
    (hright : ∀ write∈right, write.Other) : ∀ write∈left++right, write.Other :=
  forall_mem_append.mpr ⟨hleft,hright⟩

theorem other_optionalProperty {idShort valueType : String} (h : idShort≠payloadIdShort)
    (value : Option String) : ∀ write∈optionalProperty idShort valueType value, write.Other := by
  cases value with
  | none => simp [optionalProperty]
  | some value => simpa [optionalProperty,Write.Other] using h

/-- A numbered name is not that of the payload: they differ in their first letters. -/
theorem numbered_ne {stem : String} (h : Search.differ payloadIdShort.toList stem.toList=true)
    (number : Nat) : stem++toString number≠payloadIdShort := by
  intro heq
  apply not_prefix_of_differ h (toString number).toList
  rw [← String.toList_append,heq]

theorem other_pushIndexedValues {name itemName : String} (hname : name≠payloadIdShort)
    (hitem : Search.differ payloadIdShort.toList itemName.toList=true) (values : List String) :
    ∀ write∈pushIndexedValues name itemName values, write.Other :=
  other_collection hname (other_numbered fun number _ => forall_mem_singleton.mpr
    (numbered_ne hitem number))

section
variable (revision : CanonicalApparatusRevision)

theorem other_pushExecution : ∀ write∈pushExecution revision, write.Other := by
  refine other_collection (by decide) (other_append (other_append (other_append (other_append ?_
    (other_optionalProperty (by decide) _)) (other_optionalProperty (by decide) _))
    (other_optionalProperty (by decide) _)) ?_)
  · simp [Write.Other,payloadIdShort]
  · simp [Write.Other,payloadIdShort]

theorem other_pushMaterial (material : MaterialExecutionPolicy) :
    ∀ write∈pushMaterial material, write.Other := by
  have hgroups := other_pushIndexedValues (by decide : "ItemGroups" ≠ payloadIdShort)
    (by simp [payloadIdShort,differ] : differ payloadIdShort.toList "ItemGroup".toList=true)
  have hmode : "Mode" ≠ payloadIdShort := by decide
  cases material with
  | notRequired itemGroupIds =>
    refine forall_mem_cons.mpr ⟨hmode,?_⟩
    split
    · simp
    · exact hgroups itemGroupIds
  | allRequired itemGroupIds => exact forall_mem_cons.mpr ⟨hmode,hgroups itemGroupIds⟩
  | requirementSets sets =>
    refine forall_mem_cons.mpr ⟨hmode,other_collection (by decide) (other_numbered ?_)⟩
    intro number set
    refine other_collection (numbered_ne (by simp [payloadIdShort,differ]) number) (other_append ?_
      (hgroups set.itemGroupIds))
    simp [Write.Other,payloadIdShort]

theorem other_pushTooling (tooling : ToolingExecutionPolicy) :
    ∀ write∈pushTooling tooling, write.Other := by
  cases tooling <;> simp [pushTooling,Write.Other,payloadIdShort]

theorem other_pushPolicies : ∀ write∈pushPolicies revision, write.Other := by
  refine other_collection (by decide) (other_append (other_append (other_append ?_ ?_)
    (other_collection (by decide) (other_pushMaterial _)))
    (other_collection (by decide) (other_pushTooling _)))
  · split <;> simp [Write.Other,payloadIdShort]
  · simp [Write.Other,payloadIdShort]

theorem other_pushAvailability (availability : CapacityAvailability) :
    ∀ write∈pushAvailability availability, write.Other := by
  have hname : "Availability" ≠ payloadIdShort := by decide
  cases availability with
  | always => exact forall_mem_singleton.mpr hname
  | scheduled workingWindows =>
    refine forall_mem_cons.mpr ⟨hname,other_collection (by decide) (other_numbered ?_)⟩
    intro number window
    refine other_collection (numbered_ne (by simp [payloadIdShort,differ]) number) ?_
    simp [Write.Other,payloadIdShort]

theorem other_pushPlacement (placement : Option FactoryMapPlacement) :
    ∀ write∈pushPlacement placement, write.Other := by
  cases placement with
  | none => simp [pushPlacement]
  | some placement => exact other_collection (by decide) (by simp [Write.Other,payloadIdShort])

/-- No field of a revision is written under the name of the payload. -/
theorem other_revisionWrites : ∀ write∈revisionWrites revision, write.Other := by
  have hidentity : ∀ write∈pushIdentity revision, write.Other :=
    other_collection (by decide) (by simp [Write.Other,payloadIdShort])
  have hhierarchy : ∀ write∈pushHierarchy revision, write.Other :=
    other_collection (by decide) (by simp [Write.Other,payloadIdShort])
  have hcapabilities : ∀ write∈pushCapabilities revision, write.Other :=
    other_collection (by decide) (other_numbered fun number _ =>
      other_collection (numbered_ne (by simp [payloadIdShort,differ]) number)
        (by simp [Write.Other,payloadIdShort]))
  have hcapacity : ∀ write∈pushCapacity revision, write.Other :=
    other_collection (by decide) (other_append (by simp [Write.Other,payloadIdShort])
      (other_pushAvailability _))
  have hcontext : ∀ write∈pushLifecycleAndContext revision, write.Other :=
    other_append (other_append
      (other_collection (by decide) (forall_mem_cons.mpr
        ⟨(by decide : "State" ≠ payloadIdShort),other_optionalProperty (by decide) _⟩))
      (other_collection (by decide) (by simp [Write.Other,payloadIdShort])))
      (other_pushPlacement _)
  have hmetadata : ∀ write∈pushRevisionAndAas revision, write.Other :=
    other_append (other_collection (by decide) (other_append
      (by simp [Write.Other,payloadIdShort]) (other_optionalProperty (by decide) _)))
      (other_collection (by decide) (by simp [Write.Other,payloadIdShort]))
  exact other_append (other_append (other_append (other_append (other_append (other_append
    (other_append hidentity hhierarchy) hcapabilities) (other_pushExecution revision))
    (other_pushPolicies revision)) hcapacity) hcontext) hmetadata

theorem clear_environmentHead : Clear payloadMarker (environmentHead revision) := by
  have hfixed : ∀ {s : List Char}, isClear payloadMarker s=true → Clear payloadMarker s :=
    clear_of_isClear
  have hvalue : ∀ value : String, Clear payloadMarker (escape value) :=
    fun value => clear_of_plain (escape_clean value)
  unfold environmentHead aasXmlNamespace
  refine Clear.append (Clear.append (Clear.append (Clear.append (Clear.append (Clear.append
    (Clear.append (Clear.append (Clear.append (Clear.append (Clear.append (Clear.append ?_ ?_) ?_)
    (hvalue _)) ?_) (hvalue _)) ?_) (hvalue _)) ?_) (hvalue _)) ?_) (hvalue _)) ?_
  all_goals
    rw [String.toList_ofList]
    exact hfixed (by decide +kernel)

end

/- Reading the payload back. -/

theorem findFrom_eq_ok {pattern s : List Char} (h : Clear pattern s) (rest : List Char)
    (start : Nat) : findFrom pattern (s++(pattern++rest)) start=.ok (start+s.length) := by
  rw [findFrom,find_append h rest]
  rfl

theorem drop_append_add (left right : List Char) (n : Nat) :
    (left++right).drop (left.length+n)=right.drop n := by
  rw [drop_append,drop_eq_nil_of_le (Nat.le_add_right _ _),Nat.add_sub_cancel_left, nil_append]

theorem between_append (left middle right : List Char) :
    between (left++(middle++right)) left.length (left.length+middle.length)=middle := by
  rw [between,drop_left,Nat.add_sub_cancel_left,take_left]

/-- What is read from a text in which the payload is the only value under its name. -/
theorem extractCanonicalPayload_eq {specification : String}
    {before typeLine escaped indent after : List Char}
    (htext : specification.toList=before++(payloadMarker++(typeLine++("<value>".toList ++
      (escaped++("</value>".toList++(indent++("</property>".toList++after))))))))
    (hbefore : Clear payloadMarker before)
    (hafter : Clear payloadMarker (typeLine++("<value>".toList ++
      (escaped++("</value>".toList++(indent++("</property>".toList++after)))))))
    (hproperty : Clear "</property>".toList (payloadMarker++(typeLine++("<value>".toList ++
      (escaped++("</value>".toList++indent))))))
    (hvalue : Clear "<value>".toList (payloadMarker++typeLine))
    (hescaped : Clear "</value>".toList escaped) : extractCanonicalPayload specification =
      if (String.ofList escaped).utf8ByteSize ≤ maxCanonicalPayloadBytes then unescape escaped
      else .error .invalidCanonicalPayload := by
  have hmarker : payloadMarker ≠ [] := by exact cons_ne_nil _ _
  generalize hvalueTag : "<value>".toList=valueTag at *
  generalize hvalueEnd : "</value>".toList=valueEnd at *
  generalize hpropertyEnd : "</property>".toList=propertyEnd at *
  -- the property from its name on, and the start of the value in the whole text
  obtain ⟨inner,hinner⟩ : ∃ inner, inner =
    payloadMarker++(typeLine++(valueTag++(escaped++(valueEnd++indent)))) := ⟨_,rfl⟩
  obtain ⟨front,hfront⟩ : ∃ front, front=before++(payloadMarker++(typeLine++valueTag)) := ⟨_,rfl⟩
  have hmarkerAt : findFrom payloadMarker specification.toList 0=.ok (0+before.length) := by
    rw [htext]
    exact findFrom_eq_ok hbefore _ 0
  have honce : (find payloadMarker
      (specification.toList.drop (0+before.length+payloadMarker.length))).isNone=true := by
    rw [htext,Nat.zero_add,drop_append_add,drop_left,find_eq_none hmarker hafter]
    rfl
  have hwhole : specification.toList=before++(inner++(propertyEnd++after)) := by
    simp only [htext,hinner,append_assoc]
  have hpropertyAt : findFrom propertyEnd (specification.toList.drop (0+before.length))
      (0+before.length)=.ok (before.length+inner.length) := by
    rw [hwhole,Nat.zero_add,drop_left]
    exact findFrom_eq_ok (hinner ▸ hproperty) after before.length
  have hvalueAt : findFrom valueTag (between specification.toList (0+before.length)
      (before.length+inner.length)) (0+before.length) =
      .ok (before.length+(payloadMarker++typeLine).length) := by
    rw [hwhole,Nat.zero_add,between_append,hinner]
    exact findFrom_eq_ok hvalue _ before.length
  have hstart : before.length+(payloadMarker++typeLine).length+valueTag.length=front.length := by
    simp only [hfront,length_append]
    omega
  have hstop : before.length+inner.length=front.length+(escaped++(valueEnd++indent)).length := by
    simp only [hfront,hinner,length_append]
    omega
  have hsplit : specification.toList =
      front++((escaped++(valueEnd++indent))++(propertyEnd++after)) := by
    simp only [htext,hfront,append_assoc]
  have hendAt : findFrom valueEnd (between specification.toList front.length
      (front.length+(escaped++(valueEnd++indent)).length)) front.length =
      .ok (front.length+escaped.length) := by
    rw [hsplit,between_append]
    exact findFrom_eq_ok hescaped indent front.length
  have hescapedAt : between specification.toList front.length (front.length+escaped.length) =
      escaped := by
    rw [hsplit,append_assoc escaped]
    exact between_append front escaped _
  simp only [extractCanonicalPayload,hvalueTag,hvalueEnd,hpropertyEnd,hmarkerAt,honce,
    hpropertyAt,hvalueAt,ensure,bind,Except.bind,if_true]
  simp only [hstart,hstop,hendAt,hescapedAt]
  by_cases hsize : (String.ofList escaped).utf8ByteSize ≤ maxCanonicalPayloadBytes
  · simp only [hsize,decide_true,if_true]
  · simp only [hsize,decide_false,if_false,Bool.false_eq_true]

example : (extractCanonicalPayload "<value>film</value>").toOption=none := by decide +kernel

theorem text_payload (payload : String) : (Write.property payloadIdShort "xs:string" payload).text =
      "            <property>\n".toList++("              ".toList++(payloadMarker ++
      ("\n".toList++("              <valueType>".toList++(escape "xs:string" ++
      ("</valueType>\n".toList++("              ".toList++("<value>".toList++(escape payload ++
      ("</value>".toList++("\n            ".toList++("</property>".toList ++
      "\n".toList)))))))))))) := by
  have hidShort : "</idShort>\n".toList = "</idShort>".toList ++ "\n".toList := by simp
  have hproperty : "</property>\n".toList = "</property>".toList ++ "\n".toList := by simp
  unfold Write.text payloadMarker
  dsimp only
  rw [escape_payloadIdShort,hidShort,hproperty]
  simp only [append_assoc]

theorem clear_escape {pattern : String} (value : String) (h : pattern.toList.head?=some '<') :
    Clear pattern.toList (escape value) := by
  cases hpattern : pattern.toList with
  | nil => rw [hpattern] at h; cases h
  | cons c others =>
    rw [hpattern,head?_cons,Option.some.injEq] at h
    rw [h]
    exact clear_of_notMem (escape_clean value)

/-- Reading the payload of a specification: the length of its escaped text decides. -/
theorem extractCanonicalPayload_environmentText (revision : CanonicalApparatusRevision)
    (payload : String) :
    extractCanonicalPayload (String.ofList (environmentText revision payload)) =
      if (String.ofList (escape payload)).utf8ByteSize ≤ maxCanonicalPayloadBytes then .ok payload
      else .error .invalidCanonicalPayload := by
  have hname : "CanonicalPayload" ≠ payloadIdShort := by decide
  have hopen : Clear payloadMarker (Write.collectionStart "CanonicalPayload").text :=
    clear_text hname
  have hclose : Clear payloadMarker Write.collectionEnd.text := clear_text trivial
  rw [← unescape_escape payload]
  refine @extractCanonicalPayload_eq _
    (environmentHead revision++((revisionWrites revision).flatMap Write.text ++
      ((Write.collectionStart "CanonicalPayload").text ++
        ("            <property>\n".toList ++ "              ".toList))))
    ("\n".toList++("              <valueType>".toList++(escape "xs:string" ++
      ("</valueType>\n".toList ++ "              ".toList))))
    (escape payload) "\n            ".toList
    ("\n".toList++(Write.collectionEnd.text++environmentTail)) ?_ ?_ ?_ ?_ ?_ ?_
  · rw [String.toList_ofList,environmentText,collection,cons_append,singleton_append,
      flatMap_append,flatMap_cons,flatMap_cons,flatMap_singleton,text_payload]
    simp only [append_assoc]
  · exact (clear_environmentHead revision).append ((Clear.flatMap fun write hwrite =>
      clear_text (other_revisionWrites revision write hwrite)).append (hopen.append
      ((clear_of_isClear (by decide +kernel)).append (clear_of_isClear (by decide +kernel)))))
  · refine Clear.append (Clear.append ?_ (Clear.append ?_ (Clear.append
      (clear_of_plain (escape_clean _)) (Clear.append ?_ ?_)))) (Clear.append ?_ (Clear.append
      (clear_of_plain (escape_clean payload)) (Clear.append ?_ (Clear.append ?_ (Clear.append ?_
      (Clear.append ?_ (Clear.append hclose ?_)))))))
    all_goals exact clear_of_isClear (by decide +kernel)
  · refine Clear.append ?_ (Clear.append (Clear.append ?_ (Clear.append ?_ (Clear.append
      (clear_escape _ (by simp)) (Clear.append ?_ ?_)))) (Clear.append ?_ (Clear.append (clear_escape payload (by simp))
      (Clear.append ?_ ?_))))
    all_goals exact clear_of_isClear (by decide +kernel)
  · refine Clear.append ?_ (Clear.append ?_ (Clear.append ?_ (Clear.append (clear_escape _ (by simp))
      (Clear.append ?_ ?_))))
    all_goals exact clear_of_isClear (by decide +kernel)
  · exact clear_escape payload (by simp)

end MiniErp.Aasx
