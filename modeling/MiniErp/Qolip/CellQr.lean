import MiniErp.Lib.Bytes
import MiniErp.Lib.ListMove
import MiniErp.Qolip.LocationId
import MiniErp.Qolip.Stock

/-! The QR codes of cells. The code of a cell is a hash of its identity, and it is read by hashing
the cells of every block in turn. -/
namespace MiniErp.Qolip
open Text Run Auth List

structure QolipCellQrInput where
  block : String
  warehouse : String
  rowLetter : String
  columnNumber : Option Int

section
variable (warehouse block rowLetter : String) (columnNumber : Int)

def qolipCellIdFromCompact : String :=
  "qolip-cell:" ++ warehouse ++ ":" ++ block ++ ":" ++ rowLetter ++ ":" ++ toString columnNumber

def qolipCellId : String :=
  qolipCellIdFromCompact (compactKey warehouse) (compactKey block) (compactKey rowLetter)
    columnNumber

end

def qolipCellQrPayload (cellId : String) : String :=
  let hash := (fnv1a64 cellId).toNat
  let checksum := hash%2^16
  "4002" ++ String.ofList (upperHex 16 hash)++String.ofList (upperHex 4 checksum)

def normalizeCellQr (input : QolipCellQrInput) (principal : Principal) :
    Except QolipError QolipCellQr := do
  let block := trim input.block
  ensure (block ≠ "") .missingBlock
  let rowLetter ← required (← normalizeRowLetterOwned input.rowLetter) .invalidLocation
  let columnNumber ←
    required (← normalizeColumnNumber input.columnNumber (some rowLetter)) .invalidLocation
  let warehouse := trim input.warehouse
  let id := qolipCellId warehouse block rowLetter columnNumber
  return {
    id
    block
    warehouse
    rowLetter
    columnNumber
    locationLabel := cellLabel (some rowLetter) (some columnNumber)
    qrPayload := qolipCellQrPayload id
    createdByRole := roleCode principal.role
    createdByRef := trim principal.ref
    createdByName := trim principal.displayName }

/-- The slices are taken of bytes: a text that has other characters is refused by its digits, if
not by a slice that ends inside one of them. -/
def parseQolipCellQrPayload (payload : String) : Option UInt64 :=
  let payload := bytes (trim payload)
  if payload.length≠24 || (payload.take 4).map lowerByte != (bytes "4002").map lowerByte then none
  else
    (fromStrRadix16 ((payload.drop 4).take 16)).bind fun hash =>
      (fromStrRadix16 ((payload.drop 20).take 4)).bind fun checksum =>
        if checksum=hash%2^16 then some (UInt64.ofNat hash) else none

def columnDigits (column : Int) : List UInt8 :=
  if 10 ≤ column then [48+UInt8.ofInt (column/10),48+UInt8.ofInt (column%10)]
  else [48+UInt8.ofInt column]

def qolipCellHash (warehouse block : String) (row : UInt8) (column : Int) : UInt64 :=
  let hash := [bytes "qolip-cell:",bytes warehouse,bytes ":",bytes block,bytes ":",[row],
    bytes ":"].foldl fnv1a64Extend 0xcbf29ce484222325
  fnv1a64Extend hash (columnDigits column)

/-- The bytes of `A` to `Z`. -/
def cellRows : List UInt8 := (List.range 26).map fun i => UInt8.ofNat (65+i)

def cellColumns : List Int := (List.range 13).map fun i : Nat => (i : Int)+1

def letterOf (row : UInt8) : String := String.singleton (Char.ofUInt8 row)

/-- The text of a cell of the block. -/
def blockCellId (block : QolipBlock) (row : UInt8) (column : Int) : String :=
  qolipCellIdFromCompact (compactKey (trim block.warehouse)) (compactKey (trim block.name))
    (letterOf (lowerByte row)) column

/-- What is answered when the hash of a cell is the one that was read. -/
def resolvedCell (block : QolipBlock) (principal : Principal) (row : UInt8) (column : Int) :
    QolipCellQr :=
  let id := blockCellId block row column
  { id
    block := trim block.name
    warehouse := trim block.warehouse
    rowLetter := letterOf row
    columnNumber := column
    locationLabel := letterOf row++toString column
    qrPayload := qolipCellQrPayload id
    createdByRole := roleCode principal.role
    createdByRef := trim principal.ref
    createdByName := trim principal.displayName }

def resolveInBlock (expectedHash : UInt64) (principal : Principal) (block : QolipBlock) :
    Option QolipCellQr :=
  let blockKey := compactKey (trim block.name)
  let warehouseKey := compactKey (trim block.warehouse)
  cellRows.findSome? fun row => cellColumns.findSome? fun column =>
    if qolipCellHash warehouseKey blockKey (lowerByte row) column≠expectedHash then none
    else some (resolvedCell block principal row column)

def resolveCellQrFromPayload (payload : String) (blocks : List QolipBlock)
    (principal : Principal) : Option QolipCellQr :=
  (parseQolipCellQrPayload payload).bind fun expectedHash =>
    blocks.findSome? (resolveInBlock expectedHash principal)

/- The payload. -/

theorem trim_qolipCellQrPayload (cellId : String) :
    trim (qolipCellQrPayload cellId)=qolipCellQrPayload cellId := by
  apply trim_of_forall
  intro c hc
  simp only [qolipCellQrPayload,String.toList_append,String.toList_ofList,mem_append] at hc
  have hdigit : ∀ width n, c∈upperHex width n → isWhitespace c=false := by
    intro width n h
    obtain ⟨d,hd,rfl⟩ := mem_upperHex h
    exact (upperHex_digit hd).1
  cases hc with
  | inl hfront =>
    cases hfront with
    | inl htag =>
      have hall : "4002".toList.all (fun c => !isWhitespace c)=true := by decide
      simpa using all_eq_true.mp hall c htag
    | inr hhash => exact hdigit _ _ hhash
  | inr hchecksum => exact hdigit _ _ hchecksum

theorem parse_qolipCellQrPayload (cellId : String) :
    parseQolipCellQrPayload (qolipCellQrPayload cellId)=some (fnv1a64 cellId) := by
  have hhash : (fnv1a64 cellId).toNat<16^16 := (fnv1a64 cellId).toNat_lt
  have hchecksum : (fnv1a64 cellId).toNat%2^16<16^4 := Nat.mod_lt _ (by decide)
  have hread := fromStrRadix16_upperHex (by decide : 0<16) hhash
  have hcheck := fromStrRadix16_upperHex (by decide : 0<4) hchecksum
  have hlength : ∀ width n, (bytes (String.ofList (upperHex width n))).length=width := by
    intro width n
    rw [bytes_upperHex,length_map,length_upperHex]
  have htag : (bytes "4002").length=4 := by decide
  have hpayload : bytes (qolipCellQrPayload cellId)=bytes "4002" ++
      (bytes (String.ofList (upperHex 16 (fnv1a64 cellId).toNat)) ++
        bytes (String.ofList (upperHex 4 ((fnv1a64 cellId).toNat%2^16)))) := by
    simp only [qolipCellQrPayload,bytes_append,append_assoc]
  have hdrop : (bytes (qolipCellQrPayload cellId)).drop 20 =
      bytes (String.ofList (upperHex 4 ((fnv1a64 cellId).toNat%2^16))) := by
    rw [hpayload,← append_assoc]
    apply drop_left'
    rw [length_append,htag,hlength]
  have hfront : (bytes (qolipCellQrPayload cellId)).take 4=bytes "4002" := by
    rw [hpayload]
    exact take_left' htag
  have hmiddle : ((bytes (qolipCellQrPayload cellId)).drop 4).take 16 =
      bytes (String.ofList (upperHex 16 (fnv1a64 cellId).toNat)) := by
    rw [hpayload,drop_left' htag]
    exact take_left' (hlength 16 _)
  have hsize : (bytes (qolipCellQrPayload cellId)).length=24 := by
    rw [hpayload,length_append,length_append,htag,hlength,hlength]
  simp only [parseQolipCellQrPayload,trim_qolipCellQrPayload,hsize,hfront,hmiddle,hread]
  rw [hdrop,take_of_length_le (hlength 4 _).le,hcheck]
  simp

/- The hash of a cell is the hash of its text. -/

theorem bytes_toString_column : ∀ n<100,
    columnDigits (n : Nat)=bytes (toString ((n : Nat) : Int)) := by
  decide +kernel

variable {row : UInt8} {column : Int} {block : QolipBlock}

theorem bytes_letterOf (h : row<128) : bytes (letterOf row)=[row] := by
  have hcode : (Char.ofUInt8 row).toNat=row.toNat := rfl
  have hlt : row.toNat<128 := h
  simp only [bytes,letterOf,String.toList_singleton,flatMap_cons,flatMap_nil, append_nil]
  rw [utf8EncodeChar_of_ascii (by omega),hcode,UInt8.ofNat_toNat]

theorem qolipCellIdFromCompact_toList (warehouse block rowLetter : String) (column : Int) :
    (qolipCellIdFromCompact warehouse block rowLetter column).toList =
      joined ':' [['q','o','l','i','p','-','c','e','l','l'],warehouse.toList,block.toList,
        rowLetter.toList,(toString column).toList] := by
  have hword : "qolip-cell:".toList=['q','o','l','i','p','-','c','e','l','l',':'] := by decide
  have hsep : ":".toList=[':'] := by decide
  unfold qolipCellIdFromCompact
  simp only [joined,String.toList_append,hword,hsep,append_assoc,cons_append, nil_append]

theorem trim_qolipCellIdFromCompact (warehouse block rowLetter : String) (column : Int) :
    trim (qolipCellIdFromCompact warehouse block rowLetter column) =
      qolipCellIdFromCompact warehouse block rowLetter column := by
  apply trim_of_ends
  · intro c hc
    simp only [qolipCellIdFromCompact_toList,joined,cons_append,head?_cons,
      Option.mem_some_iff] at hc
    rw [← hc]
    decide
  · intro c hc
    unfold qolipCellIdFromCompact at hc
    rw [String.toList_append, getLast?_append_of_ne_nil _ (toList_toString_int_ne_nil column)] at hc
    cases mem_toString_int (mem_of_mem_getLast? hc) with
    | inl hsign =>
      rw [hsign]
      decide
    | inr hdigit => exact isWhitespace_of_range (by omega) (by omega)

theorem qolipCellHash_eq {warehouse block : String} {row : UInt8} {column : Int} (hrow : row<128)
    (hlow : 0 ≤ column) (hhigh : column<100) : qolipCellHash warehouse block row column =
    fnv1a64 (qolipCellIdFromCompact warehouse block (letterOf row) column) := by
  obtain ⟨n,rfl⟩ := Int.eq_ofNat_of_zero_le hlow
  have hdigits := bytes_toString_column n (by omega)
  have htext : bytes (qolipCellIdFromCompact warehouse block (letterOf row) (n : Int)) =
      bytes "qolip-cell:" ++ bytes warehouse++bytes ":" ++ bytes block++bytes ":" ++ [row] ++
        bytes ":" ++ columnDigits (n : Int) := by
    unfold qolipCellIdFromCompact
    simp only [bytes_append,bytes_letterOf hrow,hdigits]
  rw [fnv1a64,trim_qolipCellIdFromCompact,htext]
  simp only [qolipCellHash,fnv1a64Extend_append,foldl_cons,foldl_nil]

/- A cell of the grid. -/

theorem mem_cellColumns : column∈cellColumns ↔ 1 ≤ column ∧ column≤13 := by
  simp only [cellColumns,mem_map,mem_range]
  constructor
  · rintro ⟨i,hi,rfl⟩
    omega
  · intro h
    exact ⟨(column-1).toNat,by omega,by omega⟩

/-- The key of a row letter is its small letter, which tells the rows apart. -/
theorem cellRows_letters : ∀ row∈cellRows, lowerByte row<128 ∧
    compactKey (letterOf row)=letterOf (lowerByte row) ∧
    ∀ other∈cellRows, letterOf (lowerByte row)=letterOf (lowerByte other) → row=other := by
  decide +kernel

theorem toAsciiUpper_row : ∀ n<128, isAsciiAlphabetic (Char.ofNat n)=true →
    ∃ row∈cellRows, toAsciiUpper (Char.ofNat n)=Char.ofUInt8 row := by
  decide +kernel

theorem normalizeRowLetterOwned_ok {value letter : String}
    (h : normalizeRowLetterOwned value=.ok (some letter)) :
    ∃ row∈cellRows, letter=letterOf row := by
  simp only [normalizeRowLetterOwned] at h
  split at h
  · cases h
  · split at h
    · cases h
    · rename_i hsingle
      simp only [Bool.or_eq_true,decide_eq_true_eq,Bool.not_eq_eq_eq_not,Bool.not_true,
        not_or,not_not,Bool.not_eq_false] at hsingle
      obtain ⟨hsize,hletter⟩ := hsingle
      cases hchars : (trim value).toList with
      | nil => simp [hchars] at hletter
      | cons c rest =>
        rw [hchars,head?_cons,Option.any_some] at hletter
        have hrest : rest=[] := by
          have hbytes : (String.ofList (c::rest)).utf8ByteSize=1 := by
            rw [← hchars,String.ofList_toList,hsize]
          rw [String.utf8ByteSize_ofList,String.utf8Len_cons] at hbytes
          have hc := c.utf8Size_pos
          cases rest with
          | nil => rfl
          | cons d rest =>
            have hd := d.utf8Size_pos
            rw [String.utf8Len_cons] at hbytes
            omega
        have halnum : isAsciiAlphanumeric c=true := by simp [isAsciiAlphanumeric,hletter]
        have hrange := isAsciiAlphanumeric_iff.mp halnum
        have hupper := toAsciiUpper_row c.toNat (by omega)
        rw [Char.ofNat_toNat] at hupper
        obtain ⟨row,hrow,hupper⟩ := hupper hletter
        refine ⟨row,hrow,?_⟩
        rw [← Option.some.inj (Except.ok.inj h),toAsciiUppercase,hchars,hrest,
          map_singleton,hupper,letterOf,String.singleton_eq_ofList]

theorem blockCellId_eq_iff {other : QolipBlock} {row' : UInt8} {column' : Int}
    (hrow : row∈cellRows) (hrow' : row'∈cellRows) :
    blockCellId other row' column'=blockCellId block row column ↔
      (compactKey other.warehouse=compactKey block.warehouse ∧
        compactKey other.name=compactKey block.name) ∧ row'=row ∧ column'=column := by
  have hkey := colon_notMem_compactKey
  have hint := colon_notMem_toString_int
  have hword : ':' ∉ ['q','o','l','i','p','-','c','e','l','l'] := by decide
  have hletter : ∀ r∈cellRows, ':' ∉ (letterOf (lowerByte r)).toList := by
    intro r hr
    rw [← (cellRows_letters r hr).2.1]
    exact hkey _
  have hletters : letterOf (lowerByte row')=letterOf (lowerByte row) ↔ row'=row :=
    ⟨(cellRows_letters row' hrow').2.2 row hrow,fun h => by rw [h]⟩
  have htrim : ∀ s, compactKey (trim s)=compactKey s := by
    intro s
    rw [compactKey,trim_trim,compactKey]
  rw [blockCellId,blockCellId,← String.toList_inj,qolipCellIdFromCompact_toList,
    qolipCellIdFromCompact_toList]
  refine Iff.trans (joined_inj ?_ ?_ ?_) ?_
  · simp only [length_cons]
  · simp only [forall_mem_cons]
    exact ⟨hword,hkey _,hkey _,hletter _ hrow',hint _,by simp⟩
  · simp only [forall_mem_cons]
    exact ⟨hword,hkey _,hkey _,hletter _ hrow,hint _,by simp⟩
  · simp only [cons.injEq,String.toList_inj,toString_int_inj,hletters,htrim,and_true,
      true_and,and_assoc]

theorem normalizeCellQr_ok {rowLetter : String} {columnNumber : Option Int} {principal : Principal}
    {cell : QolipCellQr}
    (h : normalizeCellQr ⟨block.name,block.warehouse,rowLetter,columnNumber⟩ principal=.ok cell) :
    ∃ row∈cellRows, ∃ column∈cellColumns, cell.block=trim block.name ∧
    cell.warehouse=trim block.warehouse ∧ cell.rowLetter=letterOf row ∧ cell.columnNumber=column ∧
    cell.id=blockCellId block row column ∧ cell.qrPayload=qolipCellQrPayload cell.id := by
  simp only [normalizeCellQr,bind_eq_ok,required_eq_ok] at h
  obtain ⟨_,-,_,hletter,letter,rfl,_,hcolumn,column,rfl,h⟩ := h
  obtain ⟨row,hrow,rfl⟩ := normalizeRowLetterOwned_ok hletter
  have hmem : column∈cellColumns := by
    rw [mem_cellColumns]
    cases columnNumber with
    | none => cases hcolumn
    | some number =>
      simp only [normalizeColumnNumber] at hcolumn
      split at hcolumn
      · rename_i hrange
        cases hcolumn
        simpa using hrange
      · cases hcolumn
  cases h
  refine ⟨row,hrow,column,hmem,rfl,rfl,rfl,rfl,?_,rfl⟩
  rw [qolipCellId,(cellRows_letters row hrow).2.1,blockCellId]

/- Reading a code. -/

def cellIds (blocks : List QolipBlock) : List String :=
  blocks.flatMap fun block => cellRows.flatMap fun row => cellColumns.map (blockCellId block row)

theorem mem_cellIds {blocks : List QolipBlock} (hblock : block∈blocks) (hrow : row∈cellRows)
    (hcolumn : column∈cellColumns) : blockCellId block row column∈cellIds blocks :=
  mem_flatMap.mpr ⟨block,hblock,mem_flatMap.mpr ⟨row,hrow,mem_map_of_mem hcolumn⟩⟩

/-- Blocks whose cells have the same texts. -/
def sameKeys (block other : QolipBlock) : Bool :=
  compactKey other.warehouse == compactKey block.warehouse &&
    compactKey other.name == compactKey block.name

section Resolve
variable {blocks : List QolipBlock} {block other : QolipBlock} {row : UInt8} {column : Int}
  {scanner : Principal}

theorem hash_eq_iff (hrow : row∈cellRows)
    (hinj : ∀ id∈cellIds blocks, fnv1a64 id=fnv1a64 (blockCellId block row column) →
      id=blockCellId block row column)
    (hother : other∈blocks) {row' : UInt8} {column' : Int} (hrow' : row'∈cellRows)
    (hcolumn' : column'∈cellColumns) :
    qolipCellHash (compactKey (trim other.warehouse)) (compactKey (trim other.name))
        (lowerByte row') column'=fnv1a64 (blockCellId block row column) ↔
      sameKeys block other=true ∧ row'=row ∧ column'=column := by
  have hrange := mem_cellColumns.mp hcolumn'
  have hhash := @qolipCellHash_eq (compactKey (trim other.warehouse)) (compactKey (trim other.name))
    (lowerByte row') column' (cellRows_letters row' hrow').1 (by omega) (by omega)
  have hsame : sameKeys block other=true ↔ compactKey other.warehouse=compactKey block.warehouse ∧
      compactKey other.name=compactKey block.name := by simp [sameKeys]
  rw [hhash,hsame,← blockCellId_eq_iff hrow hrow']
  exact ⟨hinj _ (mem_cellIds hother hrow' hcolumn'),fun h => congrArg fnv1a64 h⟩

section
variable (hrow : row∈cellRows) (hcolumn : column∈cellColumns)
  (hinj : ∀ id∈cellIds blocks, fnv1a64 id=fnv1a64 (blockCellId block row column) → id=blockCellId block row column)
include hrow hcolumn hinj

theorem resolveInBlock_eq (hother : other∈blocks) :
    resolveInBlock (fnv1a64 (blockCellId block row column)) scanner other =
      if sameKeys block other then some (resolvedCell other scanner row column) else none := by
  simp only [resolveInBlock]
  split
  · rename_i hsame
    -- only the place of the cell itself answers, in the rows and in the columns
    apply ListMove.findSome?_of_unique hrow
    · apply ListMove.findSome?_of_unique hcolumn
      · rw [if_neg]
        rw [not_not,hash_eq_iff hrow hinj hother hrow hcolumn]
        exact ⟨hsame,rfl,rfl⟩
      · intro column' hcolumn' hne
        rw [if_pos]
        rw [ne_eq,hash_eq_iff hrow hinj hother hrow hcolumn']
        exact fun h => hne h.2.2
    · intro row' hrow' hne
      rw [findSome?_eq_none_iff]
      intro column' hcolumn'
      rw [if_pos]
      rw [ne_eq,hash_eq_iff hrow hinj hother hrow' hcolumn']
      exact fun h => hne h.2.1
  · rename_i hsame
    rw [findSome?_eq_none_iff]
    intro row' hrow'
    rw [findSome?_eq_none_iff]
    intro column' hcolumn'
    rw [if_pos]
    rw [ne_eq,hash_eq_iff hrow hinj hother hrow' hcolumn']
    exact fun h => hsame h.1

/-- The answer is the cell of the first block with the same keys. -/
theorem resolveCellQrFromPayload_eq :
    resolveCellQrFromPayload (qolipCellQrPayload (blockCellId block row column)) blocks scanner =
      (blocks.find? (sameKeys block)).map fun other => resolvedCell other scanner row column := by
  rw [resolveCellQrFromPayload,parse_qolipCellQrPayload]
  apply ListMove.findSome?_eq_map_find?
  intro other hother
  exact resolveInBlock_eq hrow hcolumn hinj hother

end

end Resolve

/-- The code of a cell leads back to it exactly when the first block whose names compact as those
of its block is that block, up to outer blanks; the hash computed in parts is the hash of the
text. -/
theorem cell_qr_resolves_iff {blocks : List QolipBlock} {block : QolipBlock} {rowLetter : String}
    {columnNumber : Option Int} {principal : Principal} {cell : QolipCellQr}
    (hcell : normalizeCellQr ⟨block.name,block.warehouse,rowLetter,columnNumber⟩ principal =
      .ok cell)
    (hinj : ∀ id∈cellIds blocks, fnv1a64 id=fnv1a64 cell.id → id=cell.id)
    (scanner : Principal) :
    ((∃ found, resolveCellQrFromPayload cell.qrPayload blocks scanner=some found ∧
        found.block=cell.block ∧ found.warehouse=cell.warehouse ∧
        found.rowLetter=cell.rowLetter ∧ found.columnNumber=cell.columnNumber) ↔
      ∃ first, blocks.find? (sameKeys block)=some first ∧ trim first.name=trim block.name ∧
        trim first.warehouse=trim block.warehouse) ∧
    ∀ (warehouse block : String) (row : UInt8) (column : Int), row<128 → 0 ≤ column →
      column<100 → qolipCellHash warehouse block row column =
        fnv1a64 (qolipCellIdFromCompact warehouse block (letterOf row) column) := by
  obtain ⟨row,hrow,column,hcolumn,hname,hwarehouse,hletter,hnumber,hid,hpayload⟩ :=
    normalizeCellQr_ok hcell
  rw [hid] at hinj hpayload
  refine ⟨?_,fun _ _ _ _ => qolipCellHash_eq⟩
  rw [hpayload,resolveCellQrFromPayload_eq hrow hcolumn hinj,hname,hwarehouse,hletter,hnumber]
  constructor
  · rintro ⟨found,hfound,hblock,hhouse,-,-⟩
    obtain ⟨first,hfirst,rfl⟩ := Option.map_eq_some_iff.mp hfound
    exact ⟨first,hfirst,hblock,hhouse⟩
  · rintro ⟨first,hfirst,hblock,hhouse⟩
    refine ⟨resolvedCell first scanner row column,?_,hblock,hhouse,rfl,rfl⟩
    rw [hfirst,Option.map_some]

/-- The code of the cell A1 of a block of the warehouse `main`. -/
def firstCell (block : String) : QolipCellQr where
  id := qolipCellId "main" block "A" 1
  block := block
  warehouse := "main"
  rowLetter := "A"
  columnNumber := 1
  locationLabel := "A1"
  qrPayload := qolipCellQrPayload (qolipCellId "main" block "A" 1)
  createdByRole := "qolipchi"
  createdByRef := "q-1"
  createdByName := "Keeper"

example : (firstCell "A 1").qrPayload = "400241EBD660D5C45F655F65" := by decide +kernel

/-- The hash up to the row letter. -/
def blockHash (block : QolipBlock) : UInt64 :=
  [bytes "qolip-cell:",bytes (compactKey (trim block.warehouse)),bytes ":",
    bytes (compactKey (trim block.name)),bytes ":"].foldl fnv1a64Extend 0xcbf29ce484222325

def cellHash (hash : UInt64) (row : UInt8) (column : Int) : UInt64 :=
  [[lowerByte row],bytes ":",columnDigits column].foldl fnv1a64Extend hash

/-- Only the last bytes differ between the cells of a block. -/
theorem fnv1a64_blockCellId (hrow : row∈cellRows) (hcolumn : column∈cellColumns) :
    fnv1a64 (blockCellId block row column)=cellHash (blockHash block) row column := by
  have hrange := mem_cellColumns.mp hcolumn
  rw [blockCellId,← qolipCellHash_eq (cellRows_letters row hrow).1 (by omega) (by omega)]
  simp only [qolipCellHash,cellHash,blockHash,foldl_cons,foldl_nil]

theorem cellIds_injective {blocks : List QolipBlock}
    (hrow : row∈cellRows) (hcolumn : column∈cellColumns)
    (h : ∀ other∈blocks, ∀ row'∈cellRows, ∀ column'∈cellColumns,
      cellHash (blockHash other) row' column'=cellHash (blockHash block) row column →
        sameKeys block other=true ∧ row'=row ∧ column'=column) :
    ∀ id∈cellIds blocks, fnv1a64 id=fnv1a64 (blockCellId block row column) →
      id=blockCellId block row column := by
  intro id hid hhash
  obtain ⟨other,hother,hid⟩ := mem_flatMap.mp hid
  obtain ⟨row',hrow',hid⟩ := mem_flatMap.mp hid
  obtain ⟨column',hcolumn',rfl⟩ := mem_map.mp hid
  rw [fnv1a64_blockCellId hrow' hcolumn',fnv1a64_blockCellId hrow hcolumn] at hhash
  obtain ⟨hsame,hplace⟩ := h other hother row' hrow' column' hcolumn' hhash
  rw [blockCellId_eq_iff hrow hrow']
  exact ⟨by simpa [sameKeys] using hsame,hplace⟩

theorem blockHash_sample : blockHash ⟨"A 1","main"⟩=10290641491120398329 ∧
    blockHash ⟨"A-1","main"⟩=10290641491120398329 ∧ blockHash ⟨"B","main"⟩=7808570399845724110 := by
  decide +kernel

theorem cellHash_sample : ∀ row∈cellRows, ∀ column∈cellColumns,
    (cellHash 10290641491120398329 row column=cellHash 10290641491120398329 65 1 →
      row=65 ∧ column=1) ∧
    cellHash 7808570399845724110 row column≠cellHash 10290641491120398329 65 1 := by
  decide +kernel

theorem firstCell_id : (firstCell "A 1").id=blockCellId ⟨"A 1","main"⟩ 65 1 := by decide +kernel

theorem firstCell_normalized :
    normalizeCellQr ⟨"A 1","main","a",some 1⟩ keeper=.ok (firstCell "A 1") := by
  rw [← toOption_eq_some]
  decide +kernel

example : resolveCellQrFromPayload (firstCell "A 1").qrPayload [] keeper=none := by decide +kernel

/-- The code of the block `A 1` leads to `A-1`, though no other text shares its hash. -/
theorem cell_qr_names_other_block :
    normalizeCellQr ⟨"A 1","main","a",some 1⟩ keeper=.ok (firstCell "A 1") ∧
    (∀ id∈cellIds [⟨"A-1","main"⟩,⟨"A 1","main"⟩],
      fnv1a64 id=fnv1a64 (firstCell "A 1").id → id=(firstCell "A 1").id) ∧
    (resolveCellQrFromPayload (firstCell "A 1").qrPayload
      [⟨"A-1","main"⟩,⟨"A 1","main"⟩] keeper).map (fun found => found.block)=some "A-1" := by
  have hinj : ∀ id∈cellIds [⟨"A-1","main"⟩,⟨"A 1","main"⟩],
      fnv1a64 id=fnv1a64 (blockCellId ⟨"A 1","main"⟩ 65 1) →
        id=blockCellId ⟨"A 1","main"⟩ 65 1 := by
    apply cellIds_injective (by decide) (by decide)
    simp only [List.forall_mem_cons,blockHash_sample]
    refine ⟨fun row hrow column hcolumn h => ?_,fun row hrow column hcolumn h => ?_,by simp⟩
    · exact ⟨by decide +kernel,(cellHash_sample row hrow column hcolumn).1 h⟩
    · exact ⟨by decide +kernel,(cellHash_sample row hrow column hcolumn).1 h⟩
  have hpayload : (firstCell "A 1").qrPayload =
      qolipCellQrPayload (blockCellId ⟨"A 1","main"⟩ 65 1) := by
    rw [← firstCell_id,firstCell]
  refine ⟨firstCell_normalized,?_,?_⟩
  · rw [firstCell_id]
    exact hinj
  · rw [hpayload,resolveCellQrFromPayload_eq (by decide) (by decide) hinj]
    decide +kernel

theorem cell_qr_resolves_two_blocks : ∃ found, resolveCellQrFromPayload (firstCell "A 1").qrPayload
        [⟨"B","main"⟩,⟨"A 1","main"⟩] keeper=some found ∧
      found.block = "A 1" ∧ found.warehouse = "main" ∧ found.rowLetter = "A" ∧
      found.columnNumber=1 := by
  have hinj : ∀ id∈cellIds [⟨"B","main"⟩,⟨"A 1","main"⟩],
      fnv1a64 id=fnv1a64 (firstCell "A 1").id → id=(firstCell "A 1").id := by
    rw [firstCell_id]
    apply cellIds_injective (by decide) (by decide)
    simp only [List.forall_mem_cons,blockHash_sample]
    refine ⟨fun row hrow column hcolumn h => ?_,fun row hrow column hcolumn h => ?_,by simp⟩
    · exact absurd h (cellHash_sample row hrow column hcolumn).2
    · exact ⟨by decide +kernel,(cellHash_sample row hrow column hcolumn).1 h⟩
  exact (@cell_qr_resolves_iff _ ⟨"A 1","main"⟩ _ _ _ _ firstCell_normalized hinj keeper).1.mpr
    ⟨⟨"A 1","main"⟩,by decide +kernel,rfl,rfl⟩

end MiniErp.Qolip
