import MiniErp.Qolip.Store

/-! Mold stock. Molds lie in cells or are given out to workers; giving out, returning and moving
neither create nor lose a mold, over any sequence of calls, and a call that fails changes
nothing. -/
namespace MiniErp.Qolip
open Text Run Rows Auth List

def QolipLocation.stockOf (mold : String) (location : QolipLocation) : Int :=
  if moldKey location.qolipCode=mold then location.quantity else 0

def QolipCheckout.stockOf (mold : String) (checkout : QolipCheckout) : Int :=
  if checkout.isOpen ∧ moldKey checkout.qolipCode=mold then checkout.quantity else 0

/-- The molds in cells and with workers. -/
def MemoryQolipStore.stock (store : MemoryQolipStore) (mold : String) : Int :=
  total (QolipLocation.stockOf mold) store.locations +
    total (QolipCheckout.stockOf mold) store.checkouts

structure MemoryQolipStore.Positive (store : MemoryQolipStore) : Prop where
  locations : ∀ location∈store.locations, 0<location.quantity
  checkouts : ∀ checkout∈store.checkouts, 0 < checkout.quantity

/- One row. -/

section Row
variable {locations : List QolipLocation} {location existing incoming : QolipLocation}
  {index i : Nat} {quantity : Int} {mold : String}

theorem total_takeQuantity (hrow : locations[index]?=some location)
    (hle : quantity≤location.quantity) :
    total (QolipLocation.stockOf mold) (takeQuantity locations index location quantity) =
      total (QolipLocation.stockOf mold) locations -
        QolipLocation.stockOf mold { location with quantity := quantity } := by
  simp only [takeQuantity]
  split
  · rw [total_set hrow]
    simp only [QolipLocation.stockOf]
    split <;> omega
  · have hall : quantity=location.quantity := by omega
    rw [total_eraseIdx hrow,hall]

theorem positive_takeQuantity (hpositive : ∀ l∈locations, 0<l.quantity) :
    ∀ l∈takeQuantity locations index location quantity, 0<l.quantity := by
  intro l hl
  simp only [takeQuantity] at hl
  split at hl
  · rename_i hremaining
    cases mem_or_eq_of_mem_set hl with
    | inl hmem => exact hpositive l hmem
    | inr heq =>
      rw [heq]
      exact hremaining
  · exact hpositive l (mem_of_mem_eraseIdx hl)

theorem getElem?_takeQuantity (hi : locations[i]?=some existing) (hne : index≠i) :
    (takeQuantity locations index location
      quantity)[shiftedIndex index (location.quantity-quantity) i]?=some existing := by
  simp only [takeQuantity,shiftedIndex]
  split
  · rw [getElem?_set_ne hne,hi]
  · exact getElem?_eraseIdx_of_ne hi hne

def Mergeable (locations : List QolipLocation) (found : Option (Nat × QolipLocation))
    (incoming : QolipLocation) : Prop :=
  ∀ entry∈found, locations[entry.1]?=some entry.2 ∧ locationIdentityMatches entry.2 incoming=true

theorem moldKey_of_matches (h : locationIdentityMatches existing incoming=true) :
    moldKey existing.qolipCode=moldKey incoming.qolipCode := by
  simp only [locationIdentityMatches,Bool.and_eq_true] at h
  exact sameText_iff.mp h.1.1.1.2

theorem total_addLocation {found : Option (Nat × QolipLocation)}
    (hfound : Mergeable locations found incoming) :
    total (QolipLocation.stockOf mold) (addLocation locations found incoming) =
      total (QolipLocation.stockOf mold) locations+incoming.stockOf mold := by
  cases found with
  | none => exact total_append_singleton locations incoming
  | some entry =>
    obtain ⟨hrow,hmatch⟩ := hfound entry rfl
    simp only [addLocation]
    rw [total_set hrow]
    simp only [QolipLocation.stockOf,moldKey_of_matches hmatch]
    split <;> omega

theorem positive_addLocation {found : Option (Nat × QolipLocation)}
    (hfound : Mergeable locations found incoming)
    (hpositive : ∀ l∈locations, 0<l.quantity) (hincoming : 0 < incoming.quantity) :
    ∀ l∈addLocation locations found incoming, 0<l.quantity := by
  intro l hl
  cases found with
  | none =>
    simp only [addLocation,mem_append,mem_singleton] at hl
    cases hl with
    | inl hmem => exact hpositive l hmem
    | inr heq =>
      rw [heq]
      exact hincoming
  | some entry =>
    obtain ⟨hrow,-⟩ := hfound entry rfl
    cases mem_or_eq_of_mem_set hl with
    | inl hmem => exact hpositive l hmem
    | inr heq =>
      have hold := hpositive entry.2 (mem_of_getElem? hrow)
      rw [heq]
      exact Int.add_pos hold hincoming

end Row

/- What one call can do. -/

section Calls
variable {store : MemoryQolipStore}

theorem normalizeCheckout_ok {id workerId workerName : String} {location : QolipLocation}
    {quantity : Int} {principal : Principal} {checkout : QolipCheckout}
    (h : normalizeCheckout id location quantity workerId workerName principal=.ok checkout) :
    0 < checkout.quantity ∧ checkout.isOpen=true := by
  simp only [normalizeCheckout,bind_eq_ok,ensure_eq_ok,decide_eq_true_eq] at h
  obtain ⟨_,hquantity,_,-,_,-,_,-,h⟩ := h
  cases h
  exact ⟨hquantity,by simp [QolipCheckout.isOpen,eqIgnoreAsciiCase]⟩

theorem issueCheckout_cases (checkout : QolipCheckout) (store : MemoryQolipStore) :
    (∃ e, issueCheckout checkout store=(.error e, store)) ∨
    ∃ index location saved, store.locations[index]?=some location ∧
      locationIdentityMatches location (locationFromCheckout checkout)=true ∧
      checkout.quantity≤location.quantity ∧
      (∃ issuedAt, saved={ checkout with issuedAt := issuedAt }) ∧
      issueCheckout checkout store=(.ok saved, { store with
        locations := takeQuantity store.locations index location checkout.quantity
        checkouts := store.checkouts++[saved] }) := by
  simp only [issueCheckout]
  split
  · exact .inl ⟨_,rfl⟩
  · rename_i index location hfound
    split
    · exact .inl ⟨_,rfl⟩
    · rename_i hmatch
      split
      · exact .inl ⟨_,rfl⟩
      · refine .inr ⟨index,location,_,(findAt?_eq_some hfound).1,by simpa using hmatch,
          by omega,?_,rfl⟩
        split
        · exact ⟨_,rfl⟩
        · exact ⟨checkout.issuedAt,rfl⟩

theorem mergeable_findAt? {locations : List QolipLocation} {incoming : QolipLocation}
    {p : QolipLocation → Bool}
    (h : ∀ entry∈findAt? p locations, locationIdentityMatches entry.2 incoming=true) :
    Mergeable locations (findAt? p locations) incoming :=
  fun entry hentry => ⟨(findAt?_eq_some hentry).1,h entry hentry⟩

theorem locationFromCheckoutTarget_ok {checkout : QolipCheckout} {rowLetter : String}
    {columnNumber : Option Int} {restore : QolipLocation}
    (h : locationFromCheckoutTarget checkout rowLetter columnNumber=.ok restore) :
    restore.qolipCode=checkout.qolipCode ∧ restore.quantity=checkout.quantity := by
  simp only [locationFromCheckoutTarget] at h
  split at h
  · cases h
    exact ⟨rfl,rfl⟩
  · obtain ⟨cell,-,h⟩ := bind_eq_ok.mp h
    cases h
    exact ⟨rfl,rfl⟩

theorem returnCheckout_cases (checkoutId rowLetter : String) (columnNumber : Option Int)
    (store : MemoryQolipStore) :
    (∃ e, returnCheckout checkoutId rowLetter columnNumber store=(.error e, store)) ∨
    ∃ index checkout restore, store.checkouts[index]?=some checkout ∧ checkout.isOpen=true ∧
      locationFromCheckoutTarget checkout rowLetter columnNumber=.ok restore ∧
      Mergeable store.locations (findAt? (fun item => item.id == restore.id) store.locations)
        restore ∧
      returnCheckout checkoutId rowLetter columnNumber store =
        (.ok { checkout with status := "returned" }, { store with
          locations := sortLocations (addLocation store.locations
            (findAt? (fun item => item.id == restore.id) store.locations) restore)
          checkouts := store.checkouts.set index { checkout with status := "returned" } }) := by
  simp only [returnCheckout]
  split
  · exact .inl ⟨_,rfl⟩
  · rename_i index checkout hfound
    split
    · exact .inl ⟨_,rfl⟩
    · rename_i hopen
      split
      · exact .inl ⟨_,rfl⟩
      · rename_i restore hrestore
        split
        · exact .inl ⟨_,rfl⟩
        · rename_i hmatch
          refine .inr ⟨index,checkout,restore,(findAt?_eq_some hfound).1,by simpa using hopen,
            hrestore,mergeable_findAt? fun entry hentry => ?_,rfl⟩
          rw [hentry,Option.any_some] at hmatch
          simpa using hmatch

theorem normalizeMoveTarget_ok {source target : QolipLocation} {block warehouse rowLetter : String}
    {columnNumber quantity : Int}
    (h : normalizeMoveTarget source block warehouse rowLetter columnNumber quantity=.ok target) :
    0<quantity ∧ quantity ≤ source.quantity ∧ target.qolipCode=source.qolipCode ∧
      target.quantity=quantity ∧ target.id≠source.id := by
  simp only [normalizeMoveTarget,bind_eq_ok,ensure_eq_ok,decide_eq_true_eq] at h
  obtain ⟨_,hpositive,_,hstock,cell,-,_,-,_,hid,h⟩ := h
  cases h
  exact ⟨hpositive,hstock,rfl,rfl,hid⟩

theorem applyMemoryLocationMove_ok {locations next : List QolipLocation} {input : QolipLocationMove}
    {saved : QolipLocation} (h : applyMemoryLocationMove locations input=.ok (next, saved)) :
    ∃ index source column target shifted, locations[index]?=some source ∧
    normalizeMoveTarget source input.block input.warehouse input.rowLetter column input.quantity =
    .ok target ∧ Mergeable (takeQuantity locations index source input.quantity) shifted target ∧
    (shifted=none ↔ ∀ item∈locations, item.id≠target.id) ∧
    next=addLocation (takeQuantity locations index source input.quantity) shifted target := by
  simp only [applyMemoryLocationMove,bind_eq_ok,ensure_eq_ok,required_eq_ok] at h
  obtain ⟨⟨index,source⟩,hsource,column,-,target,htarget,_,hmatch,h⟩ := h
  obtain ⟨hrow,hid,-⟩ := findAt?_eq_some hsource
  have hother : target.id≠source.id := (normalizeMoveTarget_ok htarget).2.2.2.2
  refine ⟨index,source,column,target,_,hrow,htarget,?_,?_,(Prod.mk.inj (Except.ok.inj h)).1.symm⟩
  · intro entry hentry
    obtain ⟨found,hfound,rfl⟩ := Option.mem_map.mp hentry
    rw [hfound] at hmatch
    have hne : index≠found.1 := findAt?_ne hsource hfound (by simpa using Ne.symm hother)
    exact ⟨getElem?_takeQuantity (findAt?_eq_some hfound).1 hne,hmatch⟩
  · rw [Option.map_eq_none_iff,findAt?_eq_none]
    simp

end Calls

/- What it does to the stock. -/

structure Conserved (store next : MemoryQolipStore) : Prop where
  stock : ∀ mold, next.stock mold=store.stock mold
  positive : store.Positive → next.Positive

theorem Conserved.refl (store : MemoryQolipStore) : Conserved store store := ⟨fun _ => rfl,id⟩

theorem Conserved.trans {first second third : MemoryQolipStore} (h : Conserved first second)
    (h' : Conserved second third) : Conserved first third :=
  ⟨fun mold => (h'.stock mold).trans (h.stock mold),fun hfirst => h'.positive (h.positive hfirst)⟩

theorem issueCheckout_conserved {checkout : QolipCheckout} (store : MemoryQolipStore)
    (hquantity : 0 < checkout.quantity) (hopen : checkout.isOpen=true) :
    Conserved store (issueCheckout checkout store).2 := by
  obtain ⟨e,he⟩ | ⟨index,location,_,hrow,hmatch,hle,⟨issuedAt,rfl⟩,hissue⟩ :=
    issueCheckout_cases checkout store
  · rw [he]
    exact Conserved.refl store
  · rw [hissue]
    constructor
    · have hkey := moldKey_of_matches hmatch
      simp only [locationFromCheckout] at hkey
      simp only [MemoryQolipStore.stock,total_takeQuantity hrow hle,total_append_singleton,
        QolipLocation.stockOf,QolipCheckout.stockOf,hkey]
      have hstill : QolipCheckout.isOpen { checkout with issuedAt := issuedAt }=true := hopen
      simp only [hstill,true_and]
      omega
    · intro hpositive
      refine ⟨positive_takeQuantity hpositive.locations,fun c hc => ?_⟩
      cases mem_append.mp hc with
      | inl hmem => exact hpositive.checkouts c hmem
      | inr hnew =>
        rw [mem_singleton.mp hnew]
        exact hquantity

theorem returnCheckout_conserved (checkoutId rowLetter : String) (columnNumber : Option Int)
    (store : MemoryQolipStore) :
    Conserved store (returnCheckout checkoutId rowLetter columnNumber store).2 := by
  obtain ⟨e,he⟩ | ⟨index,checkout,restore,hrow,hopen,hrestore,hmerge,hreturn⟩ :=
    returnCheckout_cases checkoutId rowLetter columnNumber store
  · rw [he]
    exact Conserved.refl store
  · obtain ⟨hcode,hquantity⟩ := locationFromCheckoutTarget_ok hrestore
    rw [hreturn]
    constructor
    · have hclosed : QolipCheckout.isOpen { checkout with status := "returned" }=false := by
        simp only [QolipCheckout.isOpen]
        decide
      simp only [MemoryQolipStore.stock,total_perm (sortLocations_perm _),total_addLocation hmerge,
        total_set hrow,QolipLocation.stockOf,QolipCheckout.stockOf,hcode,hquantity,hopen,
        hclosed,true_and,Bool.false_eq_true,false_and,if_false]
      omega
    · intro hpositive
      have hheld := hpositive.checkouts checkout (mem_of_getElem? hrow)
      constructor
      · intro l hl
        refine positive_addLocation hmerge hpositive.locations (hquantity ▸ hheld) l ?_
        exact (sortLocations_perm _).mem_iff.mp hl
      · intro c hc
        cases mem_or_eq_of_mem_set hc with
        | inl hmem => exact hpositive.checkouts c hmem
        | inr heq =>
          rw [heq]
          exact hheld

theorem applyMemoryLocationMove_conserved {locations next : List QolipLocation}
    {input : QolipLocationMove} {saved : QolipLocation}
    (h : applyMemoryLocationMove locations input=.ok (next, saved)) :
    (∀ mold, total (QolipLocation.stockOf mold) next =
      total (QolipLocation.stockOf mold) locations) ∧
    ((∀ l∈locations, 0<l.quantity) → ∀ l∈next, 0<l.quantity) := by
  obtain ⟨index,source,column,target,shifted,hrow,htarget,hmerge,-,rfl⟩ :=
    applyMemoryLocationMove_ok h
  obtain ⟨hpositive,hstock,hcode,hquantity,-⟩ := normalizeMoveTarget_ok htarget
  constructor
  · intro mold
    rw [total_addLocation hmerge,total_takeQuantity hrow hstock]
    simp only [QolipLocation.stockOf,hcode,hquantity]
    omega
  · intro hall
    exact positive_addLocation hmerge (positive_takeQuantity hall) (hquantity ▸ hpositive)

theorem applyMoves_conserved (moves : List QolipLocationMove)
    {working final : List QolipLocation × List QolipLocation}
    (h : applyMoves working moves=.ok final) :
    (∀ mold, total (QolipLocation.stockOf mold) final.1 =
      total (QolipLocation.stockOf mold) working.1) ∧
    ((∀ l∈working.1, 0<l.quantity) → ∀ l∈final.1, 0<l.quantity) := by
  induction moves generalizing working with
  | nil =>
    cases h
    exact ⟨fun _ => rfl,id⟩
  | cons input rest ih =>
    obtain ⟨middle,hfirst,hrest⟩ := bind_eq_ok.mp h
    obtain ⟨⟨next,saved⟩,hmove,hmiddle⟩ := bind_eq_ok.mp hfirst
    cases hmiddle
    obtain ⟨htotal,hpositive⟩ := applyMemoryLocationMove_conserved hmove
    obtain ⟨htotal',hpositive'⟩ := ih hrest
    exact ⟨fun mold => (htotal' mold).trans (htotal mold),fun hall => hpositive' (hpositive hall)⟩

theorem moveLocations_conserved (moves : List QolipLocationMove) (store : MemoryQolipStore) :
    Conserved store (moveLocations moves store).2 := by
  simp only [moveLocations]
  split
  · exact Conserved.refl store
  · rename_i working saved hmoves
    obtain ⟨htotal,hpositive⟩ := applyMoves_conserved moves hmoves
    constructor
    · intro mold
      simp only [MemoryQolipStore.stock,total_perm (sortLocations_perm _),htotal]
    · intro hall
      refine ⟨fun l hl => hpositive hall.locations l ?_,hall.checkouts⟩
      exact (sortLocations_perm _).mem_iff.mp hl

theorem perform_conserved (operation : StockOperation) (store : MemoryQolipStore) :
    Conserved store (operation.perform store).2 := by
  cases operation with
  | issue id location quantity workerId workerName principal =>
    simp only [StockOperation.perform,issueCheckoutFromLocation]
    split
    · exact Conserved.refl store
    · rename_i checkout hcheckout
      obtain ⟨hquantity,hopen⟩ := normalizeCheckout_ok hcheckout
      exact issueCheckout_conserved store hquantity hopen
  | giveBack checkoutId rowLetter columnNumber =>
    exact returnCheckout_conserved checkoutId rowLetter columnNumber store
  | move moves => exact moveLocations_conserved moves store

theorem performAll_conserved (operations : List StockOperation) (store : MemoryQolipStore) :
    Conserved store (performAll store operations) := by
  induction operations generalizing store with
  | nil => exact Conserved.refl store
  | cons operation rest ih => exact (perform_conserved operation store).trans (ih _)

theorem perform_failed {operation : StockOperation} {store : MemoryQolipStore} {e : QolipError}
    (h : (operation.perform store).1=some e) : (operation.perform store).2=store := by
  cases operation with
  | issue id location quantity workerId workerName principal =>
    simp only [StockOperation.perform,outcome,issueCheckoutFromLocation] at h ⊢
    split
    · rfl
    · rename_i checkout hcheckout
      simp only [hcheckout] at h
      obtain ⟨_,he⟩ | ⟨_,_,_,_,_,_,_,hissue⟩ := issueCheckout_cases checkout store
      · rw [he]
      · rw [hissue] at h
        cases h
  | giveBack checkoutId rowLetter columnNumber =>
    simp only [StockOperation.perform,outcome] at h ⊢
    obtain ⟨_,he⟩ | ⟨_,_,_,_,_,_,_,hreturn⟩ :=
      returnCheckout_cases checkoutId rowLetter columnNumber store
    · rw [he]
    · rw [hreturn] at h
      cases h
  | move moves =>
    simp only [StockOperation.perform,moveLocations] at h ⊢
    split
    · rfl
    · rename_i working saved hmoves
      rw [hmoves] at h
      cases h

/-- A stored quantity is bounded by the stock of its mold. Sums of quantities fit their 32 bits
when the stock of every mold does. -/
theorem quantity_le_stock {store : MemoryQolipStore} (hstore : store.Positive)
    {location : QolipLocation} (hlocation : location∈store.locations) :
    location.quantity ≤ store.stock (moldKey location.qolipCode) := by
  have hheld : 0≤total (QolipCheckout.stockOf (moldKey location.qolipCode)) store.checkouts := by
    apply total_nonneg
    intro checkout hcheckout
    have hpositive := hstore.checkouts checkout hcheckout
    simp only [QolipCheckout.stockOf]
    split <;> omega
  have hcell := le_total (f := QolipLocation.stockOf (moldKey location.qolipCode))
    (fun other hother => by
      have hpositive := hstore.locations other hother
      simp only [QolipLocation.stockOf]
      split <;> omega) hlocation
  simp only [QolipLocation.stockOf,if_true] at hcell
  simp only [MemoryQolipStore.stock]
  omega

theorem performAll_quantity_le {start : MemoryQolipStore} (hstart : start.Positive)
    (operations : List StockOperation) {location : QolipLocation}
    (hlocation : location∈(performAll start operations).locations) :
    location.quantity ≤ start.stock (moldKey location.qolipCode) := by
  have hconserved := performAll_conserved operations start
  rw [← hconserved.stock]
  exact quantity_le_stock (hconserved.positive hstart) hlocation

/-- Over every run of giving out, returning and moving: for each mold the molds in cells and with
workers stay as many as they were, every stored quantity stays positive, and a call that fails,
a whole batch of moves included, leaves the store as it is. -/
theorem mold_stock_conserved (start : MemoryQolipStore) (hstart : start.Positive)
    (operations : List StockOperation) :
    (∀ mold, (performAll start operations).stock mold=start.stock mold) ∧
    (performAll start operations).Positive ∧
    ∀ operation e, (StockOperation.perform (performAll start operations) operation).1=some e →
      (StockOperation.perform (performAll start operations) operation).2 =
        performAll start operations :=
  ⟨(performAll_conserved operations start).stock,
    (performAll_conserved operations start).positive hstart,fun _ _ => perform_failed⟩

section Sample

def threeMolds : QolipLocation where
  id := qolipLocationId "A" "film" "K-1" 30 "A" (some 1)
  block := "A"
  warehouse := "main"
  itemCode := "film"
  itemName := "Film"
  qolipCode := "K-1"
  size := 30
  quantity := 3
  rowLetter := "A"
  columnNumber := some 1
  locationLabel := "A1"
  createdByRole := "qolipchi"
  createdByRef := "q-1"
  createdByName := "Keeper"

def keeper : Principal := ⟨.qolipchi,"Keeper","q-1"⟩

def oneBlock : MemoryQolipStore where
  blocks := [⟨"A","main"⟩]
  locations := [threeMolds]
  cellQrs := []
  checkouts := []

/-- One mold is given out, one is moved to the next cell and the first is returned there. -/
def giveMoveReturn : List StockOperation :=
  [.issue "c-1" threeMolds 1 "w-1" "Worker" keeper,.move [⟨threeMolds.id,"","",1,"A",some 2⟩],
    .giveBack "c-1" "a" (some 2)]

theorem mold_stock_conserved_sample : (performAll oneBlock giveMoveReturn).locations.map
      (fun location => (location.locationLabel, location.quantity))=[("A1", 1),("A2", 2)] ∧
    (performAll oneBlock giveMoveReturn).stock "k-1" = 3 := by
  have hpositive : oneBlock.Positive := ⟨by decide,by decide⟩
  have hstock : oneBlock.stock "k-1" = 3 := by decide +kernel
  refine ⟨by decide +kernel,?_⟩
  rw [(mold_stock_conserved oneBlock hpositive giveMoveReturn).1 "k-1",hstock]

end Sample

end MiniErp.Qolip
