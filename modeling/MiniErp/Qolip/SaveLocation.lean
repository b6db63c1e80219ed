import MiniErp.Lib.Table
import MiniErp.Qolip.Places

/-! `save_location` of the database. The row of a mold goes under the text made from its identity;
a row of another mold that has the same text is written over. -/
namespace MiniErp.Qolip
open Text Run Auth

structure QolipProductSpec where
  itemCode : String
  itemName : String
  itemGroup : String
  qolipCode : String
  size : Int
  createdByRole : String
  createdByRef : String
  createdByName : String
  warehouse : String
  deriving DecidableEq, Repr

/-- What the statements read besides their own tables: `lower` of the database, the group of an
item and the warehouse a principal is assigned to. -/
structure Database where
  lower : String → String
  itemGroup : String → Option String
  assignedWarehouse : String → String → Option String

structure MoldTables where
  specs : List QolipProductSpec
  locations : Table QolipLocation.id

/-- The first placing of a mold also records what it is for. -/
def insertSpec (db : Database) (location : QolipLocation) (specs : List QolipProductSpec) :
    List QolipProductSpec :=
  if specs.any fun spec => db.lower spec.qolipCode == db.lower location.qolipCode then specs
  else specs++[{
    itemCode := location.itemCode
    itemName := location.itemName
    itemGroup := (db.itemGroup location.itemCode).getD ""
    qolipCode := location.qolipCode
    size := location.size
    createdByRole := location.createdByRole
    createdByRef := location.createdByRef
    createdByName := location.createdByName
    warehouse := (db.assignedWarehouse location.createdByRole location.createdByRef).getD
      location.warehouse }]

def boundRow (location : QolipLocation) : QolipLocation where
  id := trim location.id
  block := trim location.block
  warehouse := trim location.warehouse
  itemCode := trim location.itemCode
  itemName := trim location.itemName
  qolipCode := trim location.qolipCode
  size := location.size
  quantity := location.quantity
  rowLetter := trim location.rowLetter
  columnNumber := location.columnNumber
  locationLabel := trim location.locationLabel
  createdByRole := trim location.createdByRole
  createdByRef := trim location.createdByRef
  createdByName := trim location.createdByName

def saveLocation (db : Database) (location : QolipLocation) (tables : MoldTables) :
    QolipLocation × MoldTables :=
  let kept := tables.locations.deleteWhere fun row =>
    db.lower row.qolipCode == db.lower (trim location.qolipCode) && row.id != trim location.id
  (boundRow location, {
    specs := insertSpec db location tables.specs
    locations := kept.insert (boundRow location) })

section Frame
variable {db : Database} {tables : MoldTables} {location row : QolipLocation}

theorem mem_saveLocation : row∈(saveLocation db location tables).2.locations.values ↔
    row=boundRow location ∨ row∈tables.locations.values ∧
      db.lower row.qolipCode≠db.lower (trim location.qolipCode) ∧ row.id≠trim location.id := by
  have hid : (boundRow location).id=trim location.id := rfl
  simp only [saveLocation,Table.mem_values_insert,Table.mem_values_deleteWhere,hid,
    Bool.and_eq_false_iff,beq_eq_false_iff_ne,bne_eq_false_iff_eq]
  constructor
  · intro h
    cases h with
    | inl hnew => exact .inl hnew
    | inr hold => exact .inr ⟨hold.1.1,hold.1.2.resolve_right hold.2,hold.2⟩
  · intro h
    cases h with
    | inl hnew => exact .inl hnew
    | inr hold => exact .inr ⟨⟨hold.1,.inl hold.2.1⟩,hold.2.2⟩

theorem Keyed.trim_id (h : location.Keyed) : trim location.id=location.id := by
  rw [h]
  exact trim_qolipLocationId ..

theorem normalizeLocation_trim_code {input : QolipLocationUpsert} {principal : Principal}
    (h : normalizeLocation input principal=.ok location) :
    trim location.qolipCode=location.qolipCode := by
  simp only [normalizeLocation,bind_eq_ok] at h
  obtain ⟨_,-,_,-,_,-,_,-,rowLetter,-,columnNumber,-,h⟩ := h
  cases h
  exact trim_trim input.qolipCode

/-- A row of another mold stays as it is unless it has the text of the new one. -/
theorem mem_saveLocation_other (hkeyed : location.Keyed)
    (hcode : trim location.qolipCode=location.qolipCode)
    (hother : db.lower row.qolipCode≠db.lower location.qolipCode) :
    row∈(saveLocation db location tables).2.locations.values ↔
      row∈tables.locations.values ∧ row.id≠location.id := by
  have hnew : row≠boundRow location := by
    intro heq
    apply hother
    rw [heq,boundRow,hcode]
  rw [mem_saveLocation,Keyed.trim_id hkeyed,hcode]
  simp [hnew,hother]

end Frame

section Sample

/-- A place in the cell A1 of the block `A` for the mold code. -/
def cellRequest (qolipCode : String) : QolipLocationUpsert :=
  ⟨"A","main","film","Film",qolipCode,30,1,"A",some 1⟩

def plainDatabase : Database := ⟨toAsciiLowercase,fun _ => none,fun _ _ => none⟩

/-- The table after the mold was placed, if the request is in order. -/
def placedTable (qolipCode : String) (tables : MoldTables) : MoldTables :=
  match normalizeLocation (cellRequest qolipCode) keeper with
  | .ok location => (saveLocation plainDatabase location tables).2
  | .error _ => tables

def codesAndIds (tables : MoldTables) : List (String × String) :=
  tables.locations.values.map fun row => (row.qolipCode, row.id)

example : codesAndIds (placedTable "K-1" ⟨[],.empty⟩)=[("K-1", "qolip:a:film:k_1:30:a:1")] := by
  decide +kernel

def filmMold (qolipCode : String) : QolipLocation :=
  { threeMolds with
    id := qolipLocationId "A" "film" qolipCode 30 "A" (some 1), qolipCode, quantity := 1 }

end Sample

end MiniErp.Qolip
