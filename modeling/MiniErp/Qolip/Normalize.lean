import MiniErp.Auth.Principal
import MiniErp.Lib.Run
import MiniErp.Lib.Text

/-! Molds (`qolip`): the records of a stored mold and of a mold given out, how a request is
normalized into them, and the text that identifies a stored row. -/
namespace MiniErp.Qolip
open Text Run Auth

inductive QolipError where
  | missingBlock
  | missingQolipCode
  | invalidSize
  | invalidQuantity
  | invalidLocation
  | locationNotFound
  | missingWorker
  | insufficientStock
  | checkoutNotFound
  | checkoutNotReturnable
  | locationIdentityMismatch
  | storeFailed
  deriving DecidableEq, Repr

structure QolipBlock where
  name : String
  warehouse : String
  deriving DecidableEq, Repr

structure QolipLocation where
  id : String
  block : String
  warehouse : String
  itemCode : String
  itemName : String
  qolipCode : String
  size : Int
  quantity : Int
  rowLetter : String
  columnNumber : Option Int
  locationLabel : String
  createdByRole : String
  createdByRef : String
  createdByName : String
  deriving DecidableEq, Repr

structure QolipCheckout where
  id : String
  locationId : String
  block : String
  warehouse : String
  itemCode : String
  itemName : String
  itemGroup : String
  qolipCode : String
  size : Int
  quantity : Int
  rowLetter : String
  columnNumber : Option Int
  locationLabel : String
  issuedToRef : String
  issuedToName : String
  status : String
  issuedByRole : String
  issuedByRef : String
  issuedByName : String
  issuedAt : String
  deriving DecidableEq, Repr

structure QolipLocationUpsert where
  block : String
  warehouse : String
  itemCode : String
  itemName : String
  qolipCode : String
  size : Int
  quantity : Int
  rowLetter : String
  columnNumber : Option Int

structure QolipLocationMove where
  locationId : String
  block : String
  warehouse : String
  quantity : Int
  rowLetter : String
  columnNumber : Option Int

def isAsciiAlphabetic (c : Char) : Bool := isAsciiLowercase c || ('A' ≤ c && c ≤ 'Z')

def isAsciiAlphanumeric (c : Char) : Bool := isAsciiAlphabetic c || isAsciiDigit c

/-- `char::to_lowercase` as far as ASCII letters and digits go: apart from the capital letters
only the dotted capital I and the Kelvin sign have one in their lower case. -/
def lowercaseAscii (c : Char) : List Char :=
  if c.toNat=0x130 then ['i',Char.ofNat 0x307]
  else if c.toNat=0x212A then ['k']
  else [toAsciiLower c]

/-- One character of the loop, with the key so far and whether a separator is pending. -/
def compactStep (state : List Char × Bool) (c : Char) : List Char × Bool :=
  let (key, separatorPending) := state
  if isAsciiAlphanumeric c then
    ((if separatorPending && !key.isEmpty then key++['_'] else key)++[c], false)
  else if !key.isEmpty then (key, true)
  else (key, separatorPending)

def compactChars (chars : List Char) : List Char :=
  ((chars.flatMap lowercaseAscii).foldl compactStep ([], false)).1

def compactKey (value : String) : String := String.ofList (compactChars (trim value).toList)

example : compactKey " Milano Premium 30/40 " = "milano_premium_30_40" := by decide +kernel

def qolipLocationId (block itemCode qolipCode : String) (size : Int) (rowLetter : String)
    (columnNumber : Option Int) : String :=
  "qolip:" ++ compactKey block ++ ":" ++ compactKey itemCode ++ ":" ++ compactKey qolipCode ++
    ":" ++ toString size ++ ":" ++ compactKey rowLetter ++ ":" ++ toString (columnNumber.getD 0)

def normalizeRowLetterOwned (value : String) : Except QolipError (Option String) :=
  let value := trim value
  if value = "" then .ok none
  else if value.utf8ByteSize≠1 || !value.toList.head?.any isAsciiAlphabetic then
    .error .invalidLocation
  else .ok (some (toAsciiUppercase value))

def normalizeRowLetter (value : String) : Except QolipError (Option String) :=
  match (trim value).toList with
  | [] => .ok none
  | [c] =>
    if isAsciiAlphabetic c then .ok (some (String.singleton (toAsciiUpper c)))
    else .error .invalidLocation
  | _ => .error .invalidLocation

def normalizeColumnNumber (value : Option Int) (rowLetter : Option String) :
    Except QolipError (Option Int) :=
  match rowLetter, value with
  | none, none => .ok none
  | some _, some column =>
    if 1 ≤ column && column≤13 then .ok (some column) else .error .invalidLocation
  | _, _ => .error .invalidLocation

def trimmedOr (value fallback : String) : String :=
  let value := trim value
  if value = "" then fallback else value

/-- The label of a cell, empty outside the grid. -/
def cellLabel : Option String → Option Int → String
  | some row, some column => row++toString column
  | _, _ => ""

def normalizeLocation (input : QolipLocationUpsert) (principal : Principal) :
    Except QolipError QolipLocation := do
  let block := trim input.block
  ensure (block ≠ "") .missingBlock
  let qolipCode := trim input.qolipCode
  ensure (qolipCode ≠ "") .missingQolipCode
  let itemCode := trimmedOr input.itemCode qolipCode
  let itemName := trimmedOr input.itemName qolipCode
  ensure (0 < input.size) .invalidSize
  ensure (0 < input.quantity) .invalidQuantity
  let rowLetter ← normalizeRowLetterOwned input.rowLetter
  let columnNumber ← normalizeColumnNumber input.columnNumber rowLetter
  return {
    id := qolipLocationId block itemCode qolipCode input.size (rowLetter.getD "") columnNumber
    block
    warehouse := trim input.warehouse
    itemCode
    itemName
    qolipCode
    size := input.size
    quantity := input.quantity
    rowLetter := rowLetter.getD ""
    columnNumber
    locationLabel := cellLabel rowLetter columnNumber
    createdByRole := roleCode principal.role
    createdByRef := trim principal.ref
    createdByName := trim principal.displayName }

/-- The checkout of a part of a stored mold. `id` is the random identity it gets. -/
def normalizeCheckout (id : String) (location : QolipLocation) (quantity : Int)
    (workerId workerName : String) (principal : Principal) : Except QolipError QolipCheckout := do
  ensure (0<quantity) .invalidQuantity
  ensure (quantity≤location.quantity) .insufficientStock
  let workerId := trim workerId
  let workerName := trim workerName
  ensure (workerId ≠ "") .missingWorker
  ensure (workerName ≠ "") .missingWorker
  return {
    id
    locationId := location.id
    block := location.block
    warehouse := location.warehouse
    itemCode := location.itemCode
    itemName := location.itemName
    itemGroup := ""
    qolipCode := location.qolipCode
    size := location.size
    quantity
    rowLetter := location.rowLetter
    columnNumber := location.columnNumber
    locationLabel := location.locationLabel
    issuedToRef := workerId
    issuedToName := workerName
    status := "open"
    issuedByRole := roleCode principal.role
    issuedByRef := trim principal.ref
    issuedByName := trim principal.displayName
    issuedAt := "" }

def locationFromCheckout (checkout : QolipCheckout) : QolipLocation where
  id := qolipLocationId checkout.block checkout.itemCode checkout.qolipCode checkout.size
    checkout.rowLetter checkout.columnNumber
  block := checkout.block
  warehouse := checkout.warehouse
  itemCode := checkout.itemCode
  itemName := checkout.itemName
  qolipCode := checkout.qolipCode
  size := checkout.size
  quantity := checkout.quantity
  rowLetter := checkout.rowLetter
  columnNumber := checkout.columnNumber
  locationLabel := checkout.locationLabel
  createdByRole := checkout.issuedByRole
  createdByRef := checkout.issuedByRef
  createdByName := checkout.issuedByName

def normalizeCell (rowLetter : String) (columnNumber : Option Int) :
    Except QolipError (String × Int) := do
  let rowLetter ← required (← normalizeRowLetter rowLetter) .invalidLocation
  let columnNumber ←
    required (← normalizeColumnNumber columnNumber (some rowLetter)) .invalidLocation
  return (rowLetter, columnNumber)

def locationFromCheckoutTarget (checkout : QolipCheckout) (rowLetter : String)
    (columnNumber : Option Int) : Except QolipError QolipLocation :=
  if trim rowLetter = "" && columnNumber.isNone then .ok (locationFromCheckout checkout)
  else do
    let (rowLetter, columnNumber) ← normalizeCell rowLetter columnNumber
    let location := locationFromCheckout checkout
    return { location with
      rowLetter
      columnNumber := some columnNumber
      locationLabel := cellLabel (some rowLetter) (some columnNumber)
      id := qolipLocationId location.block location.itemCode location.qolipCode location.size
        rowLetter (some columnNumber) }

/-- The block a move names, by default the one of the source. -/
def moveBlock (source : QolipLocation) (block : String) : String :=
  if trim block = "" then trim source.block else trim block

def moveWarehouse (source : QolipLocation) (block warehouse : String) : String :=
  if trim warehouse = "" && eqIgnoreAsciiCase block (trim source.block) then trim source.warehouse
  else trim warehouse

def normalizeMoveTarget (source : QolipLocation) (block warehouse rowLetter : String)
    (columnNumber quantity : Int) : Except QolipError QolipLocation := do
  ensure (0<quantity) .invalidQuantity
  ensure (quantity ≤ source.quantity) .insufficientStock
  let (rowLetter, columnNumber) ← normalizeCell rowLetter (some columnNumber)
  let block := moveBlock source block
  let warehouse := moveWarehouse source block warehouse
  ensure (block ≠ "" && warehouse ≠ "") .invalidLocation
  let targetId := qolipLocationId block source.itemCode source.qolipCode source.size rowLetter
    (some columnNumber)
  ensure (targetId≠source.id) .invalidLocation
  return { source with
    id := targetId
    block
    warehouse
    quantity
    rowLetter
    columnNumber := some columnNumber
    locationLabel := cellLabel (some rowLetter) (some columnNumber) }

def sameText (s t : String) : Bool := eqIgnoreAsciiCase (trim s) (trim t)

def locationIdentityMatches (existing incoming : QolipLocation) : Bool :=
  sameText existing.block incoming.block && sameText existing.warehouse incoming.warehouse &&
    sameText existing.itemCode incoming.itemCode &&
    sameText existing.qolipCode incoming.qolipCode && existing.size == incoming.size &&
    sameText existing.rowLetter incoming.rowLetter && existing.columnNumber == incoming.columnNumber

/-- The text that two codes of one mold share: `trim` and `eq_ignore_ascii_case`. -/
def moldKey (qolipCode : String) : String := toAsciiLowercase (trim qolipCode)

theorem sameText_iff {s t : String} : sameText s t=true ↔ moldKey s=moldKey t := by
  simp [sameText,eqIgnoreAsciiCase,moldKey]

end MiniErp.Qolip
