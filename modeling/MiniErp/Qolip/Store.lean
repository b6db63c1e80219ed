import Mathlib.Data.List.Sort
import MiniErp.Lib.Rows
import MiniErp.Qolip.Normalize

/-! The memory store of molds. Every operation answers and leaves a store, also when it fails. -/
namespace MiniErp.Qolip
open Text Run Rows Auth

structure QolipCellQr where
  id : String
  block : String
  warehouse : String
  rowLetter : String
  columnNumber : Int
  locationLabel : String
  qrPayload : String
  createdByRole : String
  createdByRef : String
  createdByName : String
  deriving DecidableEq, Repr

structure MemoryQolipStore where
  blocks : List QolipBlock
  locations : List QolipLocation
  cellQrs : List QolipCellQr
  checkouts : List QolipCheckout

/-- A store that has blocks and nothing in them. -/
def MemoryQolipStore.new (blocks : List QolipBlock) : MemoryQolipStore where
  blocks := blocks
  locations := []
  cellQrs := []
  checkouts := []

/-- Rows outside the grid have no column and come first, as `None` does. -/
def compareLocations (left right : QolipLocation) : Ordering :=
  (compare left.rowLetter right.rowLetter).then
    ((compare left.columnNumber right.columnNumber).then (compare left.itemName right.itemName))

section
variable (locations : List QolipLocation)

def sortLocations : List QolipLocation :=
  locations.insertionSort fun left right => compareLocations left right ≠ .gt

theorem sortLocations_perm : (sortLocations locations).Perm locations :=
  List.perm_insertionSort _ locations

/-- Taking a part of the row at `index`, which goes when nothing remains. -/
def takeQuantity (index : Nat) (location : QolipLocation) (quantity : Int) : List QolipLocation :=
  let remaining := location.quantity-quantity
  if 0 < remaining then locations.set index { location with quantity := remaining }
  else locations.eraseIdx index

def addLocation (found : Option (Nat × QolipLocation))
    (incoming : QolipLocation) : List QolipLocation :=
  match found with
  | some (index, existing) =>
    locations.set index { existing with quantity := existing.quantity+incoming.quantity }
  | none => locations++[incoming]

end

def putLocation (location : QolipLocation) (store : MemoryQolipStore) :
    Except QolipError QolipLocation × MemoryQolipStore :=
  let kept := store.locations.filter fun item => !sameText item.qolipCode location.qolipCode
  (.ok location, { store with locations := sortLocations (kept++[location]) })

def issueCheckout (checkout : QolipCheckout) (store : MemoryQolipStore) :
    Except QolipError QolipCheckout × MemoryQolipStore :=
  match findAt? (fun location => location.id == checkout.locationId) store.locations with
  | none => (.error .locationNotFound, store)
  | some (index, location) =>
    if !locationIdentityMatches location (locationFromCheckout checkout) then
      (.error .locationIdentityMismatch, store)
    else if location.quantity < checkout.quantity then (.error .insufficientStock, store)
    else
      let saved :=
        if checkout.issuedAt = "" then { checkout with issuedAt := "1970-01-01T00:00:00Z" }
        else checkout
      (.ok saved, { store with
        locations := takeQuantity store.locations index location checkout.quantity
        checkouts := store.checkouts++[saved] })

def QolipCheckout.isOpen (checkout : QolipCheckout) : Bool :=
  eqIgnoreAsciiCase checkout.status "open"

def returnCheckout (checkoutId rowLetter : String) (columnNumber : Option Int)
    (store : MemoryQolipStore) : Except QolipError QolipCheckout × MemoryQolipStore :=
  match findAt? (fun checkout => checkout.id == trim checkoutId) store.checkouts with
  | none => (.error .checkoutNotFound, store)
  | some (index, checkout) =>
    if !checkout.isOpen then (.error .checkoutNotReturnable, store)
    else
      match locationFromCheckoutTarget checkout rowLetter columnNumber with
      | .error e => (.error e, store)
      | .ok restore =>
        let found := findAt? (fun item => item.id == restore.id) store.locations
        if found.any fun entry => !locationIdentityMatches entry.2 restore then
          (.error .locationIdentityMismatch, store)
        else
          let returned := { checkout with status := "returned" }
          (.ok returned, { store with
            locations := sortLocations (addLocation store.locations found restore)
            checkouts := store.checkouts.set index returned })

/-- Where the row at `index` stands after the one at `sourceIndex` was taken from. -/
def shiftedIndex (sourceIndex : Nat) (remaining : Int) (index : Nat) : Nat :=
  if 0 < remaining then index else if sourceIndex < index then index-1 else index

def applyMemoryLocationMove (locations : List QolipLocation) (input : QolipLocationMove) :
    Except QolipError (List QolipLocation × QolipLocation) := do
  let locationId := trim input.locationId
  let (sourceIndex, source) ←
    required (findAt? (fun item => item.id == locationId) locations) .locationNotFound
  let columnNumber ← required input.columnNumber .invalidLocation
  let target ← normalizeMoveTarget source input.block input.warehouse input.rowLetter columnNumber
    input.quantity
  let found := findAt? (fun item => item.id == target.id) locations
  ensure (found.all fun entry => locationIdentityMatches entry.2 target) .locationIdentityMismatch
  let remaining := source.quantity-input.quantity
  let working := takeQuantity locations sourceIndex source input.quantity
  let shifted := found.map fun entry => (shiftedIndex sourceIndex remaining entry.1, entry.2)
  let saved := (found.map fun entry =>
    { entry.2 with quantity := entry.2.quantity+target.quantity }).getD target
  return (addLocation working shifted target, saved)

def applyMoves (working : List QolipLocation × List QolipLocation)
    (moves : List QolipLocationMove) :
    Except QolipError (List QolipLocation × List QolipLocation) :=
  moves.foldlM (fun working input => do
    let (locations, saved) ← applyMemoryLocationMove working.1 input
    return (locations, working.2++[saved])) working

def moveLocations (moves : List QolipLocationMove) (store : MemoryQolipStore) :
    Except QolipError (List QolipLocation) × MemoryQolipStore :=
  match applyMoves (store.locations, []) moves with
  | .error e => (.error e, store)
  | .ok (working, saved) => (.ok saved, { store with locations := sortLocations working })

/-- The block that is renamed and the one it becomes; another block must not have the new name. -/
def renamedBlock (blocks : List QolipBlock) (block newBlock warehouse : String) :
    Except QolipError (Nat × QolipBlock) := do
  let (index, current) ←
    required (findAt? (fun item => sameText item.name block) blocks) .missingBlock
  ensure (!(blocks.eraseIdx index).any fun item => sameText item.name newBlock) .storeFailed
  let resolvedWarehouse := if trim warehouse = "" then current.warehouse else trim warehouse
  return (index, ⟨trim newBlock,resolvedWarehouse⟩)

def renameBlock (block newBlock warehouse : String) (store : MemoryQolipStore) :
    Except QolipError QolipBlock × MemoryQolipStore :=
  match renamedBlock store.blocks block newBlock warehouse with
  | .error e => (.error e, store)
  | .ok (index, renamed) =>
    (.ok renamed, {
      blocks := store.blocks.set index renamed
      locations := store.locations.map fun location =>
        if sameText location.block block then
          { location with block := renamed.name, warehouse := renamed.warehouse }
        else location
      cellQrs := store.cellQrs.map fun cell =>
        if sameText cell.block block then
          { cell with block := renamed.name, warehouse := renamed.warehouse }
        else cell
      checkouts := store.checkouts.map fun checkout =>
        if sameText checkout.block block then
          { checkout with block := renamed.name, warehouse := renamed.warehouse }
        else checkout })

/-- `issue_checkout_from_location` of the service; the checkout gets the random identity `id`. -/
def issueCheckoutFromLocation (id : String) (location : QolipLocation) (quantity : Int)
    (workerId workerName : String) (principal : Principal) (store : MemoryQolipStore) :
    Except QolipError QolipCheckout × MemoryQolipStore :=
  match normalizeCheckout id location quantity workerId workerName principal with
  | .error e => (.error e, store)
  | .ok checkout => issueCheckout checkout store

/-- The end of `upsert_location`, after the request was completed from the catalog. -/
def placeLocation (input : QolipLocationUpsert) (principal : Principal)
    (store : MemoryQolipStore) : Except QolipError QolipLocation × MemoryQolipStore :=
  match normalizeLocation input principal with
  | .error e => (.error e, store)
  | .ok location => putLocation location store

/-- The operations that move stock between cells and workers. -/
inductive StockOperation where
  | issue (id : String) (location : QolipLocation) (quantity : Int)
      (workerId workerName : String) (principal : Principal)
  | giveBack (checkoutId rowLetter : String) (columnNumber : Option Int)
  | move (moves : List QolipLocationMove)

/-- The error of a call, if it fails, and the store it leaves. -/
def outcome {α : Type} (answer : Except QolipError α × MemoryQolipStore) :
    Option QolipError × MemoryQolipStore :=
  (rejection answer.1, answer.2)

def StockOperation.perform (store : MemoryQolipStore) :
    StockOperation → Option QolipError × MemoryQolipStore
  | .issue id location quantity workerId workerName principal =>
    outcome (issueCheckoutFromLocation id location quantity workerId workerName principal store)
  | .giveBack checkoutId rowLetter columnNumber =>
    outcome (returnCheckout checkoutId rowLetter columnNumber store)
  | .move moves => outcome (moveLocations moves store)

def performAll (store : MemoryQolipStore) (operations : List StockOperation) : MemoryQolipStore :=
  operations.foldl (fun store operation => (operation.perform store).2) store

end MiniErp.Qolip
