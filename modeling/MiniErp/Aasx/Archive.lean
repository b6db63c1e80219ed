import MiniErp.Aasx.Zip
import MiniErp.Lib.Table

/-! The archive the ZIP writer lays out, that the reader gets every entry of it back, and what the
reader accepts. -/
namespace MiniErp.Aasx
open Text Std Run List
open Layout (At littleEndian ofLittleEndian numbers Readable)

def localRecord (entry : ZipEntry) : List UInt8 :=
  writeLocalHeader (bytes entry.name).length entry.contents.length (crc32 entry.contents).toNat ++
    (bytes entry.name++entry.contents)

def centralRecord (offset : Nat) (entry : ZipEntry) : List UInt8 :=
  writeCentralHeader (bytes entry.name).length entry.contents.length (crc32 entry.contents).toNat
    offset++bytes entry.name

def locals (entries : List ZipEntry) : List UInt8 := entries.flatMap localRecord

/-- The directory records of entries whose local records start at an offset. -/
def centrals : Nat → List ZipEntry → List UInt8
  | _, [] => []
  | offset, entry::rest =>
    centralRecord offset entry++centrals (offset+(localRecord entry).length) rest

def archive (entries : List ZipEntry) : List UInt8 :=
  locals entries++(centrals 0 entries ++
    writeEndRecord entries.length (centrals 0 entries).length (locals entries).length)

theorem length_localRecord (entry : ZipEntry) : (localRecord entry).length =
    30+(bytes entry.name).length+entry.contents.length := by
  simp [localRecord,writeLocalHeader,Layout.length_numbers,pushU16,pushU32,Nat.add_assoc]

theorem length_centralRecord (offset : Nat) (entry : ZipEntry) :
    (centralRecord offset entry).length=46+(bytes entry.name).length := by
  simp [centralRecord,writeCentralHeader,Layout.length_numbers,pushU16,pushU32]

theorem length_writeEndRecord (count centralSize centralOffset : Nat) :
    (writeEndRecord count centralSize centralOffset).length=22 := by
  simp [writeEndRecord,Layout.length_numbers,pushU16,pushU32]

/- The writer. -/

structure ZipEntry.Fits (entry : ZipEntry) : Prop where
  contents : entry.contents.length ≤ maxAasxPartSize
  name : (bytes entry.name).length<256^2

theorem tryFrom_eq_ok {width value n : Nat} :
    tryFrom width value=.ok n ↔ value<256^width ∧ value=n := by
  unfold tryFrom
  split <;> simp_all

variable {central package : List UInt8} {entries : List ZipEntry}

theorem writeEntry_eq_ok {entry : ZipEntry} {out : List UInt8 × List UInt8} :
    writeEntry (package, central) entry=.ok out ↔ entry.Fits ∧ package.length<256^4 ∧
    out=(package++localRecord entry, central++centralRecord package.length entry) := by
  have hpart : maxAasxPartSize<256^4 := by decide
  simp only [writeEntry,bind_eq_ok,ensure_eq_ok,tryFrom_eq_ok,decide_eq_true_eq]
  constructor
  · rintro ⟨-,hcontents,-,⟨-,rfl⟩,-,⟨hoffset,rfl⟩,-,⟨hname,rfl⟩,h⟩
    exact ⟨⟨hcontents,hname⟩,hoffset,(Except.ok.inj h).symm⟩
  · rintro ⟨hfits,hoffset,rfl⟩
    exact ⟨(),hfits.contents,_,⟨hfits.contents.trans_lt hpart,rfl⟩,_,⟨hoffset,rfl⟩,_,
      ⟨hfits.name,rfl⟩,rfl⟩

theorem writeEntries_of_ok {out : List UInt8 × List UInt8}
    (h : entries.foldlM writeEntry (package, central)=.ok out) : (∀ entry∈entries, entry.Fits) ∧
    out=(package++locals entries, central++centrals package.length entries) := by
  induction entries generalizing package central with
  | nil =>
    rw [← Except.ok.inj h]
    simp [locals,centrals]
  | cons entry rest ih =>
    rw [foldlM_cons,bind_eq_ok] at h
    obtain ⟨next,hnext,hrest⟩ := h
    obtain ⟨hfits,-,rfl⟩ := writeEntry_eq_ok.mp hnext
    obtain ⟨hall,rfl⟩ := ih hrest
    refine ⟨forall_mem_cons.mpr ⟨hfits,hall⟩,?_⟩
    simp [locals,centrals]

theorem writeEntries_eq_ok (hfits : ∀ entry∈entries, entry.Fits)
    (hsize : package.length+(locals entries).length<256^4) :
    entries.foldlM writeEntry (package, central) =
      .ok (package++locals entries, central++centrals package.length entries) := by
  induction entries generalizing package central with
  | nil => simp [locals,centrals,pure,Except.pure]
  | cons entry rest ih =>
    rw [forall_mem_cons] at hfits
    rw [locals,flatMap_cons,length_append] at hsize
    have hoffset : package.length<256^4 := by omega
    rw [foldlM_cons,bind_eq_ok]
    refine ⟨(package++localRecord entry, central++centralRecord package.length entry),
      writeEntry_eq_ok.mpr ⟨hfits.1,hoffset,rfl⟩,?_⟩
    rw [ih hfits.2 (by rw [length_append,locals]; omega)]
    simp [locals,centrals]

theorem writeZip_eq_ok :
    writeZip entries=.ok package ↔ entries.length≤65535 ∧ (∀ entry∈entries, entry.Fits) ∧
      (archive entries).length ≤ maxAasxPackageSize ∧ package=archive entries := by
  have hpackage : maxAasxPackageSize<256^4 := by decide
  simp only [writeZip,bind_eq_ok,ensure_eq_ok,tryFrom_eq_ok,decide_eq_true_eq]
  constructor
  · rintro ⟨-,hcount,written,hwritten,-,⟨-,rfl⟩,-,⟨-,rfl⟩,-,hsize,h⟩
    obtain ⟨hfits,rfl⟩ := writeEntries_of_ok hwritten
    exact ⟨hcount,hfits,hsize,(Except.ok.inj h).symm⟩
  · rintro ⟨hcount,hfits,hsize,rfl⟩
    have hparts : (archive entries).length =
        (locals entries).length+((centrals 0 entries).length+22) := by
      rw [archive,length_append,length_append,length_writeEndRecord]
    have hlocals : ([] : List UInt8).length+(locals entries).length<256^4 := by
      rw [length_nil]
      omega
    exact ⟨(),hcount,_,writeEntries_eq_ok hfits hlocals,_,⟨by simp; omega,rfl⟩,_,
      ⟨by simp; omega,rfl⟩,(),hsize,rfl⟩

/- The reader. -/

section
variable {package : List UInt8} {offset n : Nat}

theorem slice_eq_ok {start stop : Nat} {piece : List UInt8}
    (h : Layout.slice package start stop=some piece) : slice package start stop=.ok piece :=
  required_eq_ok.mpr h

theorem readU16_eq_ok (h : Layout.slice package offset (offset+2)=some (littleEndian 2 n))
    (hn : n<256^2) : readU16 package offset=.ok n := by
  rw [readU16,slice_eq_ok h,Except.map,Layout.ofLittleEndian_littleEndian hn]

theorem readU32_eq_ok (h : Layout.slice package offset (offset+4)=some (littleEndian 4 n))
    (hn : n<256^4) : readU32 package offset=.ok n := by
  rw [readU32,slice_eq_ok h,Except.map,Layout.ofLittleEndian_littleEndian hn]

end

theorem packageParts_named {name : String} (h : name∈packageParts) :
    name.toList.getLast? ≠ some '/' := by
  have hall : ∀ name∈packageParts, name.toList.getLast? ≠ some '/' := by decide
  exact hall name h

section
variable {package : List UInt8} {entry : ZipEntry} {offset cursor centralEnd centralOffset : Nat}

theorem crc32_lt (contents : List UInt8) : (crc32 contents).toNat<256^4 := (crc32 contents).toNat_lt

def ZipEntry.listed (entry : ZipEntry) (next offset : Nat) : CentralRecord where
  nextOffset := next
  localOffset := offset
  compression := 0
  crc := (crc32 entry.contents).toNat
  compressedSize := entry.contents.length
  uncompressedSize := entry.contents.length
  name := entry.name

theorem ZipEntry.Fits.size (h : entry.Fits) : entry.contents.length<256^4 :=
  h.contents.trans_lt (by decide)

theorem readCentralRecord_eq_ok (h : At package cursor (centralRecord offset entry))
    (hfits : entry.Fits) (hoffset : offset<256^4) (hname : entry.name∈packageParts)
    (hend : cursor+(centralRecord offset entry).length ≤ centralEnd) :
    readCentralRecord package cursor centralEnd =
      .ok (entry.listed (cursor+(centralRecord offset entry).length) offset) := by
  have hsize := hfits.size
  have hcrc := crc32_lt entry.contents
  have hfields := h.left.readable
  simp only [pushU16,pushU32,Readable,Nat.add_assoc,Nat.reduceAdd,and_true] at hfields
  obtain ⟨hsignature,-,-,hflags,hcompression,-,-,hcrcField,hcompressed,huncompressed,
    hnameLen,hextra,hcomment,hdisk,-,-,hlocal⟩ := hfields
  have hnameSlice := Layout.slice_of_at h.right
  have hlast := packageParts_named hname
  have hheader : (writeCentralHeader (bytes entry.name).length entry.contents.length
      (crc32 entry.contents).toNat offset).length=46 := by
    simp [writeCentralHeader,Layout.length_numbers,pushU16,pushU32]
  rw [hheader] at hnameSlice
  rw [length_centralRecord,← Nat.add_assoc] at hend ⊢
  simp only [readCentralRecord,bind_eq_ok,ensure_eq_ok,required_eq_ok,rejectFlags]
  exact ⟨_,readU32_eq_ok hsignature (by decide),(),rfl,_,readU16_eq_ok hflags (by decide),(),rfl,
    _,readU16_eq_ok hcompression (by decide),(),rfl,_,readU32_eq_ok hcrcField hcrc,
    _,readU32_eq_ok hcompressed hsize,
    _,readU32_eq_ok huncompressed hsize,(),decide_eq_true hfits.contents,
    _,readU16_eq_ok hnameLen hfits.name,_,readU16_eq_ok hextra (by decide),
    _,readU16_eq_ok hcomment (by decide),
    _,readU16_eq_ok hdisk (by decide),(),rfl,(),by simp [hend],
    _,slice_eq_ok hnameSlice,_,fromUtf8_bytes entry.name,(),bne_iff_ne.mpr hlast,
    _,readU32_eq_ok hlocal hoffset,rfl⟩

theorem readLocalRecord_eq_ok {next : Nat} (h : At package offset (localRecord entry))
    (hfits : entry.Fits) (hend : offset+(localRecord entry).length ≤ centralOffset) :
    readLocalRecord package centralOffset (entry.listed next offset) =
      .ok ((offset, offset+(localRecord entry).length), entry.contents) := by
  have hsize := hfits.size
  have hcrc := crc32_lt entry.contents
  have hfields := h.left.readable
  simp only [pushU16,pushU32,Readable,Nat.add_assoc,Nat.reduceAdd,and_true] at hfields
  obtain ⟨hsignature,-,hflags,hcompression,-,-,hcrcField,hcompressed,huncompressed,
    hnameLen,hextra⟩ := hfields
  have hheader : (writeLocalHeader (bytes entry.name).length entry.contents.length
      (crc32 entry.contents).toNat).length=30 := by
    simp [writeLocalHeader,Layout.length_numbers,pushU16,pushU32]
  have hnameSlice := Layout.slice_of_at h.right.left
  have hdata := Layout.slice_of_at h.right.right
  rw [hheader] at hnameSlice hdata
  rw [length_localRecord,← Nat.add_assoc,← Nat.add_assoc] at hend ⊢
  have hstart : offset < centralOffset := by omega
  simp only [readLocalRecord,ZipEntry.listed,bind_eq_ok,ensure_eq_ok,rejectFlags]
  exact ⟨(),decide_eq_true hstart,_,readU32_eq_ok hsignature (by decide),(),rfl,
    _,readU16_eq_ok hflags (by decide),(),rfl,_,readU16_eq_ok hcompression (by decide),
    _,readU32_eq_ok hcrcField hcrc,_,readU32_eq_ok hcompressed hsize,
    _,readU32_eq_ok huncompressed hsize,_,readU16_eq_ok hnameLen hfits.name,
    _,readU16_eq_ok hextra (by decide),(),rfl,(),by simp [hend],
    _,slice_eq_ok hnameSlice,(),beq_self_eq_true _,_,slice_eq_ok hdata,rfl⟩

end

section
variable (inflate : List UInt8 → Nat → Except AasxImportError (List UInt8))

variable {package : List UInt8}

/-- Reading one entry of the directory, when the entries before it end where it starts. -/
theorem readEntry_eq_ok {entry : ZipEntry} {state : ReadState}
    {offset centralOffset centralEnd : Nat}
    (hcentral : At package state.cursor (centralRecord offset entry))
    (hlocal : At package offset (localRecord entry)) (hfits : entry.Fits)
    (hname : entry.name∈packageParts) (hnew : entry.name∉state.parts)
    (hbefore : ∀ range∈state.localRanges, range.2≤offset)
    (hlocalEnd : offset+(localRecord entry).length ≤ centralOffset)
    (hcentralEnd : state.cursor+(centralRecord offset entry).length ≤ centralEnd)
    (hoffset : offset<256^4) : readEntry inflate package centralOffset centralEnd state=.ok {
      cursor := state.cursor+(centralRecord offset entry).length
      parts := state.parts.insert entry.name entry.contents
      localRanges := state.localRanges++[(offset, offset+(localRecord entry).length)] } := by
  have hoverlap : (!state.localRanges.any fun other =>
      decide (offset<other.2) && decide (other.1<offset+(localRecord entry).length)) =
      true := by
    rw [Bool.not_eq_true',any_eq_false]
    intro other hother
    have hend := hbefore other hother
    simp only [Bool.and_eq_true,decide_eq_true_eq]
    omega
  simp only [readEntry,bind_eq_ok,ensure_eq_ok]
  refine ⟨_,readCentralRecord_eq_ok hcentral hfits hoffset hname hcentralEnd,(),
    contains_iff_mem.mpr hname,(),?_,_,readLocalRecord_eq_ok hlocal hfits hlocalEnd,(),
    hoverlap,_,rfl,(),by simp [ZipEntry.listed],rfl⟩
  rw [Bool.not_eq_true',Bool.eq_false_iff]
  exact fun hmem => hnew (TreeMap.mem_iff_contains.mpr hmem)

theorem readEntries_eq_ok {package : List UInt8} {centralOffset centralEnd : Nat}
    {entries : List ZipEntry} {state : ReadState} {offset : Nat}
    (hcentrals : At package state.cursor (centrals offset entries))
    (hlocals : At package offset (locals entries)) (hfits : ∀ entry∈entries, entry.Fits)
    (hnames : ∀ entry∈entries, entry.name∈packageParts)
    (hnew : ∀ entry∈entries, entry.name∉state.parts)
    (hnodup : (entries.map ZipEntry.name).Nodup)
    (hbefore : ∀ range∈state.localRanges, range.2≤offset)
    (hlocalEnd : offset+(locals entries).length=centralOffset)
    (hcentralEnd : state.cursor+(centrals offset entries).length=centralEnd)
    (hoffset : centralOffset<256^4) :
    ∃ ranges, readEntries inflate package centralOffset centralEnd entries.length state=.ok {
      cursor := centralEnd
      parts := entries.foldl (fun parts entry => parts.insert entry.name entry.contents) state.parts
      localRanges := ranges } := by
  induction entries generalizing state offset with
  | nil =>
    rw [← hcentralEnd]
    exact ⟨state.localRanges,rfl⟩
  | cons entry rest ih =>
    rw [forall_mem_cons] at hfits hnames hnew
    rw [map_cons,nodup_cons] at hnodup
    rw [locals,flatMap_cons,length_append] at hlocalEnd
    rw [centrals,length_append] at hcentralEnd
    have hlocalFits : offset+(localRecord entry).length ≤ centralOffset := by omega
    have hcentralFits : state.cursor+(centralRecord offset entry).length ≤ centralEnd := by omega
    have hread := readEntry_eq_ok inflate hcentrals.left hlocals.left hfits.1 hnames.1 hnew.1
      hbefore hlocalFits hcentralFits (by omega)
    -- the entries behind it are new to the map it leaves, and start where it ends
    have hnewRest : ∀ other∈rest, other.name∉state.parts.insert entry.name entry.contents := by
      intro other hother hmem
      rw [TreeMap.mem_insert,LawfulEqOrd.compare_eq_iff_eq] at hmem
      cases hmem with
      | inl heq => exact hnodup.1 (mem_map.mpr ⟨other,hother,heq.symm⟩)
      | inr hold => exact hnew.2 other hother hold
    have hbeforeRest : ∀ range∈state.localRanges++[(offset, offset+(localRecord entry).length)],
        range.2≤offset+(localRecord entry).length := by
      intro range hrange
      rw [mem_append,mem_singleton] at hrange
      cases hrange with
      | inl hold => exact (hbefore range hold).trans (Nat.le_add_right _ _)
      | inr hlast => rw [hlast]
    obtain ⟨ranges,hrest⟩ := @ih ⟨state.cursor+(centralRecord offset entry).length,
      state.parts.insert entry.name entry.contents,
      state.localRanges++[(offset, offset+(localRecord entry).length)]⟩ _ hcentrals.right
      hlocals.right hfits.2 hnames.2 hnewRest hnodup.2 hbeforeRest (by rw [locals]; omega)
      (by rw [Nat.add_assoc]; exact hcentralEnd)
    refine ⟨ranges,?_⟩
    rw [length_cons,readEntries,hread]
    exact hrest

theorem at_writeEndRecord (entries : List ZipEntry) :
    At (archive entries) ((locals entries).length+(centrals 0 entries).length)
      (writeEndRecord entries.length (centrals 0 entries).length (locals entries).length) := by
  have happend := Layout.at_append (locals entries++centrals 0 entries)
    (writeEndRecord entries.length (centrals 0 entries).length (locals entries).length) []
  rwa [append_nil,append_assoc,length_append] at happend

theorem length_archive (entries : List ZipEntry) : (archive entries).length =
    (locals entries).length+(centrals 0 entries).length+22 := by
  rw [archive,length_append,length_append,length_writeEndRecord,Nat.add_assoc]

theorem findEocd_eq_ok {eocd count centralSize centralOffset : Nat}
    (h : At package eocd (writeEndRecord count centralSize centralOffset))
    (hlength : package.length=eocd+22) : findEocd package=.ok eocd := by
  have hfields := h.readable
  simp only [pushU16,pushU32,Readable,and_true] at hfields
  obtain ⟨hsignature,-,-,-,-,-,-,hcomment⟩ := hfields
  have hrecord : isEndRecord package eocd=.ok true := by
    rw [isEndRecord,readU32_eq_ok hsignature (by decide)]
    rw [readU16_eq_ok hcomment (by decide),hlength]
    simp [bind,Except.bind,pure,Except.pure]
  have hlast : package.length-(22+65535) +
      (package.length-22-(package.length-(22+65535)))=eocd := by omega
  have hlong : 22≤package.length := by omega
  rw [findEocd,ensure_bind_eq_ok]
  refine ⟨decide_eq_true hlong,?_⟩
  dsimp only
  rw [range'_1_concat,reverse_append,hlast,reverse_singleton, singleton_append,findEocdIn,hrecord]
  rfl

/-- The reader gets back what the writer wrote: the entries of the package, under their names. -/
theorem readZipParts_writeZip {entries : List ZipEntry}
    (hwrite : writeZip entries=.ok package) (hcount : entries.length≤packageParts.length)
    (hnames : ∀ entry∈entries, entry.name∈packageParts)
    (hnodup : (entries.map ZipEntry.name).Nodup) : readZipParts inflate package =
      .ok (entries.foldl (fun parts entry => parts.insert entry.name entry.contents) ∅) := by
  obtain ⟨-,hfits,hsize,rfl⟩ := writeZip_eq_ok.mp hwrite
  have hpackage : maxAasxPackageSize<256^4 := by decide
  have hparts : packageParts.length<256^2 := by decide
  have hend := at_writeEndRecord entries
  have hlength := length_archive entries
  have hlocals : At (archive entries) 0 (locals entries) := Layout.at_append [] (locals entries) _
  have hcentrals : At (archive entries) (locals entries).length (centrals 0 entries) :=
    Layout.at_append (locals entries) (centrals 0 entries) _
  obtain ⟨ranges,hread⟩ := @readEntries_eq_ok inflate (archive entries) (locals entries).length
    ((locals entries).length+(centrals 0 entries).length) entries
    ⟨(locals entries).length,∅,[]⟩ 0 hcentrals hlocals hfits hnames (by simp) hnodup (by simp)
    (Nat.zero_add _) rfl (by omega)
  have hlocalsLt : (locals entries).length<256^4 := by omega
  have hcentralsLt : (centrals 0 entries).length<256^4 := by omega
  generalize heocd : (locals entries).length+(centrals 0 entries).length=eocd at *
  have hfields := hend.readable
  obtain ⟨-,hdisk,hcentralDisk,hdiskEntries,hentries,hcentralSize,hcentralOffset,-⟩ := hfields
  have hcountLt : entries.length<256^2 := hcount.trans_lt hparts
  simp only [readZipParts,bind_eq_ok,ensure_eq_ok]
  refine ⟨(),decide_eq_true hsize,eocd,findEocd_eq_ok hend hlength,
    _,readU16_eq_ok hdisk (by decide),_,readU16_eq_ok hcentralDisk (by decide),
    _,readU16_eq_ok hdiskEntries hcountLt,_,readU16_eq_ok hentries hcountLt,
    _,readU32_eq_ok hcentralSize hcentralsLt,_,readU32_eq_ok hcentralOffset hlocalsLt,
    (),by simpa using hcount,(),?_,?_⟩
  · have hle : eocd≤(archive entries).length := by omega
    simpa [heocd] using hle
  · rw [heocd]
    exact ⟨_,hread,(),beq_self_eq_true eocd,rfl⟩

end

/- What the reader accepts. -/

structure ReadPart where
  record : CentralRecord
  range : Nat × Nat
  contents : List UInt8

section
variable (inflate : List UInt8 → Nat → Except AasxImportError (List UInt8)) (package : List UInt8)
  (centralOffset centralEnd : Nat)

/-- A part that is stored before the directory as the directory says. -/
structure ReadPart.Accepted (part : ReadPart) : Prop where
  listed : ∃ cursor, readCentralRecord package cursor centralEnd=.ok part.record
  stored : ∃ compressed, readLocalRecord package centralOffset part.record =
    .ok (part.range, compressed) ∧ entryContents inflate part.record compressed=.ok part.contents
  allowed : part.record.name∈packageParts
  size : part.contents.length ≤ maxAasxPartSize
  crc : (crc32 part.contents).toNat=part.record.crc
  before : part.range.2 ≤ centralOffset

def Apart (a b : Nat × Nat) : Prop := a.2≤b.1 ∨ b.2≤a.1

def ReadPart.insert (parts : TreeMap String (List UInt8)) (part : ReadPart) :
    TreeMap String (List UInt8) := parts.insert part.record.name part.contents

variable {inflate package centralOffset centralEnd} {state next : ReadState}

theorem readEntry_ok (h : readEntry inflate package centralOffset centralEnd state=.ok next) :
    ∃ part : ReadPart, part.Accepted inflate package centralOffset centralEnd ∧
      part.record.name∉state.parts ∧ (∀ range∈state.localRanges, Apart range part.range) ∧
      next.parts=part.insert state.parts ∧ next.localRanges=state.localRanges++[part.range] := by
  simp only [readEntry,bind_eq_ok,ensure_eq_ok] at h
  obtain ⟨record,hrecord,_,hname,_,hnew,⟨range,compressed⟩,hlocal,_,hapart,contents,hcontents,_,
    hcheck,h⟩ := h
  rw [Bool.and_eq_true,beq_iff_eq,beq_iff_eq] at hcheck
  rw [Bool.not_eq_true'] at hnew hapart
  have hsize : record.uncompressedSize ≤ maxAasxPartSize := by
    simp only [readCentralRecord,bind_eq_ok,ensure_eq_ok] at hrecord
    obtain ⟨_,-,_,-,_,-,_,-,_,-,_,-,_,-,_,-,_,-,_,hsize,_,-,_,-,_,-,_,-,_,-,_,-,_,-,_,-,_,-,_,-,h⟩ :=
      hrecord
    rw [← Except.ok.inj h]
    exact of_decide_eq_true hsize
  have hbefore : range.2 ≤ centralOffset := by
    simp only [readLocalRecord,bind_eq_ok,ensure_eq_ok] at hlocal
    obtain ⟨_,-,_,-,_,-,_,-,_,-,_,-,_,-,_,-,_,-,_,-,_,-,_,-,_,hfields,_,-,_,-,_,-,h⟩ := hlocal
    rw [← (Prod.mk.inj (Except.ok.inj h)).1]
    rw [Bool.and_assoc,Bool.and_assoc,Bool.and_assoc,Bool.and_assoc,Bool.and_eq_true] at hfields
    exact of_decide_eq_true hfields.1
  rw [← Except.ok.inj h]
  refine ⟨⟨record,range,contents⟩,⟨⟨_,hrecord⟩,⟨_,hlocal,hcontents⟩,contains_iff_mem.mp hname,
    hcheck.1.trans_le hsize,hcheck.2,hbefore⟩,?_,fun other hother => ?_,rfl,rfl⟩
  · rw [TreeMap.mem_iff_contains,hnew]
    exact Bool.false_ne_true
  · have hother : ¬(range.1<other.2 ∧ other.1 < range.2) := by
      simpa using any_eq_false.mp hapart other hother
    change other.2 ≤ range.1 ∨ range.2≤other.1
    omega

theorem readEntries_ok {count : Nat}
    (h : readEntries inflate package centralOffset centralEnd count state=.ok next) :
    ∃ read : List ReadPart, (∀ part∈read, part.Accepted inflate package centralOffset centralEnd ∧
      part.record.name∉state.parts ∧ ∀ range∈state.localRanges, Apart range part.range) ∧
      (read.map (·.record.name)).Nodup ∧ read.Pairwise (fun a b => Apart a.range b.range) ∧
      next.parts=read.foldl (fun parts part => part.insert parts) state.parts := by
  induction count generalizing state with
  | zero =>
    refine ⟨[],by simp,nodup_nil,.nil,?_⟩
    rw [← Except.ok.inj h]
    rfl
  | succ count ih =>
    rw [readEntries,bind_eq_ok] at h
    obtain ⟨middle,hentry,h⟩ := h
    obtain ⟨part,haccepted,hnew,hapart,hparts,hranges⟩ := readEntry_ok hentry
    obtain ⟨read,hread,hnodup,hpairwise,hnext⟩ := ih h
    rw [hparts] at hread hnext
    rw [hranges] at hread
    have hother : ∀ other∈read, other.record.name≠part.record.name ∧
        other.record.name∉state.parts := by
      intro other hmem
      have habsent := (hread other hmem).2.1
      rw [ReadPart.insert,TreeMap.mem_insert,LawfulEqOrd.compare_eq_iff_eq,not_or] at habsent
      exact ⟨Ne.symm habsent.1,habsent.2⟩
    refine ⟨part::read,?_,nodup_cons.mpr ⟨?_,hnodup⟩,pairwise_cons.mpr ⟨?_,hpairwise⟩, hnext⟩
    · refine forall_mem_cons.mpr ⟨⟨haccepted,hnew,hapart⟩,fun other hmem => ?_⟩
      exact ⟨(hread other hmem).1,(hother other hmem).2,fun range hrange =>
        (hread other hmem).2.2 range (mem_append_left _ hrange)⟩
    · intro hmem
      obtain ⟨other,hmem,heq⟩ := mem_map.mp hmem
      exact (hother other hmem).1 heq
    · exact fun other hmem => (hread other hmem).2.2 _ (by simp)

end

end MiniErp.Aasx
