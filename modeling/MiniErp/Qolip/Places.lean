import MiniErp.Qolip.LocationId
import MiniErp.Qolip.Stock

/-! One row for one physical place. The row of a place is found by the text made from its fields
when it was written; a renamed block changes the fields and leaves the text. -/
namespace MiniErp.Qolip
open Text Run Rows Auth List

/-- What `location_identity_matches` compares. -/
structure PhysicalPlace where
  block : String
  warehouse : String
  itemCode : String
  qolipCode : String
  size : Int
  rowLetter : String
  columnNumber : Option Int
  deriving DecidableEq

def QolipLocation.place (location : QolipLocation) : PhysicalPlace where
  block := moldKey location.block
  warehouse := moldKey location.warehouse
  itemCode := moldKey location.itemCode
  qolipCode := moldKey location.qolipCode
  size := location.size
  rowLetter := moldKey location.rowLetter
  columnNumber := location.columnNumber

theorem locationIdentityMatches_iff {existing incoming : QolipLocation} :
    locationIdentityMatches existing incoming=true ↔ existing.place=incoming.place := by
  simp only [locationIdentityMatches,Bool.and_eq_true,sameText_iff,beq_iff_eq,
    QolipLocation.place,PhysicalPlace.mk.injEq,and_assoc]

/-- At most one stored row has a given identity. -/
def OneRowPerPlace (locations : List QolipLocation) : Prop :=
  (locations.map QolipLocation.place).Nodup

inductive MoldOperation where
  | put (input : QolipLocationUpsert) (principal : Principal)
  | stock (operation : StockOperation)
  | rename (block newBlock warehouse : String)

def MoldOperation.perform (store : MemoryQolipStore) :
    MoldOperation → Option QolipError × MemoryQolipStore
  | .put input principal => outcome (placeLocation input principal store)
  | .stock operation => operation.perform store
  | .rename block newBlock warehouse => outcome (renameBlock block newBlock warehouse store)

def runMolds (store : MemoryQolipStore) (operations : List MoldOperation) : MemoryQolipStore :=
  operations.foldl (fun store operation => (operation.perform store).2) store

/- Rows that carry the text of their own fields stay one for each place. -/

structure Placed (locations : List QolipLocation) : Prop where
  oneRow : OneRowPerPlace locations
  keyed : ∀ location∈locations, location.Keyed

section Rows
variable {locations : List QolipLocation} {location incoming : QolipLocation} {index : Nat}
  {quantity : Int}

theorem Placed.perm {locations' : List QolipLocation} (h : Placed locations)
    (hperm : locations'.Perm locations) : Placed locations' :=
  ⟨(hperm.map _).nodup_iff.mpr h.oneRow,fun l hl => h.keyed l (hperm.mem_iff.mp hl)⟩

theorem mem_takeQuantity (hrow : locations[index]?=some location) {l : QolipLocation}
    (hl : l∈takeQuantity locations index location quantity) :
    ∃ old∈locations, ∃ remaining, l={ old with quantity := remaining } := by
  simp only [takeQuantity] at hl
  split at hl
  · cases mem_or_eq_of_mem_set hl with
    | inl hmem => exact ⟨l,hmem,l.quantity,rfl⟩
    | inr heq => exact ⟨location,mem_of_getElem? hrow,_,heq⟩
  · exact ⟨l,mem_of_mem_eraseIdx hl,l.quantity,rfl⟩

theorem Placed.takeQuantity (h : Placed locations) (hrow : locations[index]?=some location) :
    Placed (takeQuantity locations index location quantity) := by
  constructor
  · simp only [Qolip.takeQuantity]
    split
    · rw [OneRowPerPlace,map_set_same hrow (by rfl)]
      exact h.oneRow
    · exact h.oneRow.sublist ((eraseIdx_sublist locations index).map _)
  · intro l hl
    obtain ⟨old,hold,remaining,rfl⟩ := mem_takeQuantity hrow hl
    exact h.keyed old hold

theorem Placed.append (h : Placed locations) (hincoming : incoming.Keyed)
    (hnew : ∀ item∈locations, locationIdentityMatches item incoming=false) :
    Placed (locations++[incoming]) := by
  constructor
  · rw [OneRowPerPlace,map_append,map_singleton,nodup_append]
    refine ⟨h.oneRow,nodup_singleton _,?_⟩
    intro p hp q hq heq
    obtain ⟨item,hitem,rfl⟩ := mem_map.mp hp
    rw [mem_singleton] at hq
    have hmatch := locationIdentityMatches_iff.mpr (heq.trans hq)
    rw [hnew item hitem] at hmatch
    cases hmatch
  · intro l hl
    cases mem_append.mp hl with
    | inl hmem => exact h.keyed l hmem
    | inr hlast =>
      rw [mem_singleton.mp hlast]
      exact hincoming

theorem Placed.addLocation {found : Option (Nat × QolipLocation)} (h : Placed locations)
    (hfound : Mergeable locations found incoming) (hincoming : incoming.Keyed)
    (hnew : found=none → ∀ item∈locations, item.id≠incoming.id) :
    Placed (addLocation locations found incoming) := by
  cases found with
  | some entry =>
    obtain ⟨hrow,-⟩ := hfound entry rfl
    constructor
    · rw [OneRowPerPlace,Qolip.addLocation,map_set_same hrow (by rfl)]
      exact h.oneRow
    · intro l hl
      cases mem_or_eq_of_mem_set hl with
      | inl hmem => exact h.keyed l hmem
      | inr heq =>
        rw [heq]
        exact h.keyed entry.2 (mem_of_getElem? hrow)
  | none =>
    refine h.append hincoming fun item hitem => ?_
    rw [Bool.eq_false_iff]
    intro hmatch
    exact hnew rfl item hitem (id_eq_of_matches (h.keyed item hitem) hincoming hmatch)

end Rows

/- What a call does to the rows. -/

section Calls
variable {store : MemoryQolipStore}

theorem normalizeLocation_keyed {input : QolipLocationUpsert} {principal : Principal}
    {location : QolipLocation} (h : normalizeLocation input principal=.ok location) :
    location.Keyed := by
  simp only [normalizeLocation,bind_eq_ok] at h
  obtain ⟨_,-,_,-,_,-,_,-,rowLetter,-,columnNumber,-,h⟩ := h
  cases h
  rfl

theorem locationFromCheckoutTarget_keyed {checkout : QolipCheckout} {rowLetter : String}
    {columnNumber : Option Int} {restore : QolipLocation}
    (h : locationFromCheckoutTarget checkout rowLetter columnNumber=.ok restore) :
    restore.Keyed := by
  simp only [locationFromCheckoutTarget] at h
  split at h
  · cases h
    rfl
  · obtain ⟨cell,-,h⟩ := bind_eq_ok.mp h
    cases h
    rfl

theorem normalizeMoveTarget_keyed {source target : QolipLocation}
    {block warehouse rowLetter : String} {columnNumber quantity : Int}
    (h : normalizeMoveTarget source block warehouse rowLetter columnNumber quantity=.ok target) :
    target.Keyed := by
  simp only [normalizeMoveTarget,bind_eq_ok] at h
  obtain ⟨_,-,_,-,cell,-,_,-,_,-,h⟩ := h
  cases h
  rfl

/-- The rows of the mold go, so the new one has no rival. -/
theorem putLocation_placed {location : QolipLocation} (h : Placed store.locations)
    (hlocation : location.Keyed) : Placed (putLocation location store).2.locations := by
  have hkept : Placed (store.locations.filter fun item =>
      !sameText item.qolipCode location.qolipCode) :=
    ⟨h.oneRow.sublist (filter_sublist.map _), fun l hl => h.keyed l (mem_of_mem_filter hl)⟩
  refine Placed.perm (hkept.append hlocation fun item hitem => ?_) (sortLocations_perm _)
  have hother := (mem_filter.mp hitem).2
  rw [Bool.eq_false_iff]
  intro hmatch
  rw [sameText_iff.mpr (moldKey_of_matches hmatch)] at hother
  cases hother

theorem issueCheckout_placed (checkout : QolipCheckout) (h : Placed store.locations) :
    Placed (issueCheckout checkout store).2.locations := by
  obtain ⟨e,he⟩ | ⟨index,location,saved,hrow,-,-,-,hissue⟩ := issueCheckout_cases checkout store
  · rw [he]
    exact h
  · rw [hissue]
    exact h.takeQuantity hrow

theorem returnCheckout_placed (checkoutId rowLetter : String) (columnNumber : Option Int)
    (h : Placed store.locations) :
    Placed (returnCheckout checkoutId rowLetter columnNumber store).2.locations := by
  obtain ⟨e,he⟩ | ⟨index,checkout,restore,-,-,hrestore,hmerge,hreturn⟩ :=
    returnCheckout_cases checkoutId rowLetter columnNumber store
  · rw [he]
    exact h
  · rw [hreturn]
    refine Placed.perm (h.addLocation hmerge (locationFromCheckoutTarget_keyed hrestore) ?_)
      (sortLocations_perm _)
    intro hnone item hitem
    simpa using findAt?_eq_none.mp hnone item hitem

theorem applyMemoryLocationMove_placed {locations next : List QolipLocation}
    {input : QolipLocationMove} {saved : QolipLocation} (h : Placed locations)
    (hmove : applyMemoryLocationMove locations input=.ok (next, saved)) : Placed next := by
  obtain ⟨index,source,column,target,shifted,hrow,htarget,hmerge,hnone,rfl⟩ :=
    applyMemoryLocationMove_ok hmove
  refine (h.takeQuantity hrow).addLocation hmerge (normalizeMoveTarget_keyed htarget) ?_
  intro hshifted item hitem
  obtain ⟨old,hold,remaining,rfl⟩ := mem_takeQuantity hrow hitem
  exact hnone.mp hshifted old hold

theorem applyMoves_placed {moves : List QolipLocationMove}
    {working final : List QolipLocation × List QolipLocation} (h : Placed working.1)
    (hmoves : applyMoves working moves=.ok final) : Placed final.1 := by
  induction moves generalizing working with
  | nil =>
    cases hmoves
    exact h
  | cons input rest ih =>
    simp only [applyMoves,foldlM_cons,bind_eq_ok] at hmoves
    obtain ⟨next,⟨⟨locations,saved⟩,hmove,hnext⟩,hrest⟩ := hmoves
    cases hnext
    exact ih (applyMemoryLocationMove_placed h hmove) hrest

theorem moveLocations_placed (moves : List QolipLocationMove) (h : Placed store.locations) :
    Placed (moveLocations moves store).2.locations := by
  simp only [moveLocations]
  cases hmoves : applyMoves (store.locations, []) moves with
  | error e => exact h
  | ok final => exact (applyMoves_placed h hmoves).perm (sortLocations_perm _)

/-- Only a rename that goes through can part a row from its text. -/
theorem perform_placed {operation : MoldOperation}
    (hrename : ∀ block newBlock warehouse, operation=.rename block newBlock warehouse →
      (operation.perform store).2=store)
    (h : Placed store.locations) : Placed (operation.perform store).2.locations := by
  cases operation with
  | put input principal =>
    simp only [MoldOperation.perform,placeLocation]
    cases hlocation : normalizeLocation input principal with
    | error e => exact h
    | ok location => exact putLocation_placed h (normalizeLocation_keyed hlocation)
  | stock operation =>
    cases operation with
    | issue id location quantity workerId workerName principal =>
      simp only [MoldOperation.perform,StockOperation.perform,issueCheckoutFromLocation]
      cases normalizeCheckout id location quantity workerId workerName principal with
      | error e => exact h
      | ok checkout => exact issueCheckout_placed checkout h
    | giveBack checkoutId rowLetter columnNumber =>
      exact returnCheckout_placed checkoutId rowLetter columnNumber h
    | move moves => exact moveLocations_placed moves h
  | rename block newBlock warehouse =>
    rw [hrename block newBlock warehouse rfl]
    exact h

theorem perform_blocks {operation : MoldOperation}
    (hrename : ∀ block newBlock warehouse, operation=.rename block newBlock warehouse →
      (operation.perform store).2=store) :
    (operation.perform store).2.blocks=store.blocks := by
  cases operation with
  | put input principal =>
    simp only [MoldOperation.perform,placeLocation]
    cases normalizeLocation input principal with
    | error e => rfl
    | ok location => rfl
  | stock operation =>
    cases operation with
    | issue id location quantity workerId workerName principal =>
      simp only [MoldOperation.perform,StockOperation.perform,outcome,issueCheckoutFromLocation]
      cases normalizeCheckout id location quantity workerId workerName principal with
      | error e => rfl
      | ok checkout =>
        obtain ⟨e,he⟩ | ⟨_,_,_,-,-,-,-,hissue⟩ := issueCheckout_cases checkout store
        · simp only [he]
        · simp only [hissue]
    | giveBack checkoutId rowLetter columnNumber =>
      simp only [MoldOperation.perform,StockOperation.perform,outcome]
      obtain ⟨e,he⟩ | ⟨_,_,_,-,-,-,-,hreturn⟩ :=
        returnCheckout_cases checkoutId rowLetter columnNumber store
      · rw [he]
      · rw [hreturn]
    | move moves =>
      simp only [MoldOperation.perform,StockOperation.perform,outcome,moveLocations]
      cases applyMoves (store.locations, []) moves with
      | error e => rfl
      | ok final => rfl
  | rename block newBlock warehouse => rw [hrename block newBlock warehouse rfl]

theorem renameBlock_no_blocks (block newBlock warehouse : String) (h : store.blocks=[]) :
    (renameBlock block newBlock warehouse store).2=store := by
  have hmissing : renamedBlock [] block newBlock warehouse=.error .missingBlock := rfl
  simp only [renameBlock,h,hmissing]

theorem runMolds_placed (operations : List MoldOperation) (hblocks : store.blocks=[])
    (h : Placed store.locations) : Placed (runMolds store operations).locations := by
  induction operations generalizing store with
  | nil => exact h
  | cons operation rest ih =>
    have hrename : ∀ block newBlock warehouse, operation=.rename block newBlock warehouse →
        (operation.perform store).2=store := by
      intro block newBlock warehouse heq
      rw [heq]
      exact renameBlock_no_blocks block newBlock warehouse hblocks
    exact ih ((perform_blocks hrename).trans hblocks) (perform_placed hrename h)

end Calls

/- A block renamed twice around a placed mold: the first name is one no other block has. -/

section Stale

/-- A name of `n` letters. -/
def letters (n : Nat) : String := String.ofList (List.replicate n 'a')

theorem trim_letters (n : Nat) : trim (letters n)=letters n := by
  apply trim_of_forall
  intro c hc
  rw [letters,String.toList_ofList] at hc
  rw [eq_of_mem_replicate hc]
  rfl

theorem moldKey_letters (n : Nat) : moldKey (letters n)=letters n := by
  have hlower : toAsciiLower 'a' = 'a' := by decide
  rw [moldKey,trim_letters,letters,toAsciiLowercase,String.toList_ofList,map_replicate,hlower]

theorem compactKey_letters (n : Nat) : compactKey (letters n)=letters n := by
  have hlower : lowercaseAscii 'a'=['a'] := by decide
  have hall : (List.replicate n 'a').all isAsciiLowercase=true := by
    rw [all_eq_true]
    intro c hc
    rw [eq_of_mem_replicate hc]
    rfl
  have hflat : (List.replicate n 'a').flatMap lowercaseAscii=List.replicate n 'a' := by
    rw [flatMap_replicate,hlower,flatten_replicate_singleton]
  rw [compactKey,trim_letters,letters,String.toList_ofList,compactChars,hflat,
    foldl_compactStep_letters hall]
  rfl

variable {m n : Nat}

theorem letters_injective (h : letters n=letters m) : n=m := by
  have hlength := congrArg (fun s => s.toList.length) h
  simpa [letters] using hlength

theorem letters_ne_empty (hn : 0<n) : letters n ≠ "" := by
  intro h
  have hzero : letters n=letters 0 := h
  have := letters_injective hzero
  omega

theorem sameText_letters : sameText (letters n) (letters m)=true ↔ n=m := by
  rw [sameText_iff,moldKey_letters,moldKey_letters]
  exact ⟨letters_injective,congrArg letters⟩

theorem length_moldKey_le (s : String) : (moldKey s).toList.length ≤ s.toList.length := by
  rw [moldKey,toAsciiLowercase,String.toList_ofList,length_map,toList_trim]
  exact ((List.rdropWhile_prefix _ _).length_le).trans (List.length_dropWhile_le _ _)

theorem sameText_letters_of_lt {s : String} (h : s.toList.length<n) :
    sameText s (letters n)=false := by
  rw [Bool.eq_false_iff,ne_eq,sameText_iff,moldKey_letters]
  intro heq
  have hle := length_moldKey_le s
  rw [heq,letters,String.toList_ofList,length_replicate] at hle
  omega

/-- A row whose text was made for the block `letters keyed` and that lies in `letters named`. -/
def staleMold (keyed named : Nat) (quantity : Int) : QolipLocation where
  id := qolipLocationId (letters keyed) "m" "m" 1 "A" (some 1)
  block := letters named
  warehouse := "W"
  itemCode := "m"
  itemName := "m"
  qolipCode := "m"
  size := 1
  quantity := quantity
  rowLetter := "A"
  columnNumber := some 1
  locationLabel := "A1"
  createdByRole := roleCode keeper.role
  createdByRef := trim keeper.ref
  createdByName := trim keeper.displayName

def renameAndMove (first : QolipBlock) (n : Nat) : List MoldOperation :=
  [.rename first.name (letters n) "W",.put ⟨letters n,"W","m","m","m",1,2,"A",some 1⟩ keeper,
    .rename (letters n) (letters (n+1)) "W",
    .stock (.move [⟨(staleMold n n 2).id,letters (n+1),"W",1,"A",some 1⟩])]

example : letters 3 = "aaa" := by decide +kernel

theorem renamedBlock_first {first : QolipBlock} {rest : List QolipBlock}
    (hfresh : ∀ block∈rest, block.name.toList.length<n) :
    renamedBlock (first::rest) first.name (letters n) "W" = .ok (0, ⟨letters n,"W"⟩) := by
  have hfound : findAt? (fun item : QolipBlock => sameText item.name first.name) (first::rest) =
      some (0, first) := by
    have hsame : sameText first.name first.name=true := sameText_iff.mpr rfl
    simp [findAt?,findIdx?_cons,hsame]
  have hother : (!rest.any fun item => sameText item.name (letters n))=true := by
    rw [Bool.not_eq_true',any_eq_false]
    intro block hblock
    rw [sameText_letters_of_lt (hfresh block hblock)]
    decide
  have hwarehouse : trim "W" = "W" := by decide +kernel
  simp only [renamedBlock,bind_eq_ok,ensure_eq_ok,required_eq_ok,trim_letters,hwarehouse]
  exact ⟨(0, first),hfound,(),hother,rfl⟩

theorem normalizeLocation_letters (hn : 0<n) :
    normalizeLocation ⟨letters n,"W","m","m","m",1,2,"A",some 1⟩ keeper =
      .ok (staleMold n n 2) := by
  have hblock : letters n ≠ "" := letters_ne_empty hn
  have htrim : trim "W" = "W" ∧ trim "m" = "m" ∧ trimmedOr "m" "m" = "m" := by decide +kernel
  have hrow : normalizeRowLetterOwned "A" = .ok (some "A") := by decide +kernel
  simp only [normalizeLocation,bind_eq_ok,ensure_eq_ok,trim_letters,decide_eq_true_eq,htrim]
  exact ⟨(),hblock,(),by decide,(),by decide,(),by decide,some "A",hrow,some 1,by decide,rfl⟩

theorem staleMold_id_ne (h : n≠m) {named named' : Nat} {quantity quantity' : Int} :
    (staleMold n named quantity).id≠(staleMold m named' quantity').id := by
  intro heq
  have hkeys := qolipLocationId_inj.mp heq
  rw [compactKey_letters,compactKey_letters] at hkeys
  exact h (letters_injective hkeys.1)

theorem normalizeMoveTarget_stale (n : Nat) :
    normalizeMoveTarget (staleMold n (n+1) 2) (letters (n+1)) "W" "A" 1 1 =
      .ok (staleMold (n+1) (n+1) 1) := by
  have hblock : letters (n+1) ≠ "" := letters_ne_empty (by omega)
  have hmove : moveBlock (staleMold n (n+1) 2) (letters (n+1))=letters (n+1) := by
    rw [moveBlock,trim_letters,if_neg hblock]
  have hwarehouse : moveWarehouse (staleMold n (n+1) 2) (letters (n+1)) "W" = "W" := by
    have htrim : trim "W" = "W" := by decide +kernel
    rw [moveWarehouse,htrim]
    rfl
  have hid : (staleMold (n+1) (n+1) 1).id≠(staleMold n (n+1) 2).id := staleMold_id_ne (by omega)
  simp only [normalizeMoveTarget,bind_eq_ok,ensure_eq_ok,hmove,hwarehouse,decide_eq_true_eq]
  exact ⟨(),by decide,(),by simp [staleMold],("A", 1),by decide +kernel,(),by simp [hblock],(),
    hid,rfl⟩

theorem applyMemoryLocationMove_stale (n : Nat) : applyMemoryLocationMove [staleMold n (n+1) 2]
        ⟨(staleMold n n 2).id,letters (n+1),"W",1,"A",some 1⟩ =
      .ok ([staleMold n (n+1) 1,staleMold (n+1) (n+1) 1], staleMold (n+1) (n+1) 1) := by
  have hid : trim (staleMold n n 2).id=(staleMold n (n+1) 2).id := trim_qolipLocationId ..
  have hsource : findAt? (fun item => item.id == trim (staleMold n n 2).id)
      [staleMold n (n+1) 2]=some (0, staleMold n (n+1) 2) := by
    simp [findAt?,hid]
  have hnone : findAt? (fun item => item.id == (staleMold (n+1) (n+1) 1).id)
      [staleMold n (n+1) 2]=none := by
    rw [findAt?_eq_none]
    intro item hitem
    rw [mem_singleton.mp hitem,beq_eq_false_iff_ne]
    exact staleMold_id_ne (by omega)
  simp only [applyMemoryLocationMove,bind_eq_ok,required_eq_ok]
  refine ⟨(0, staleMold n (n+1) 2),hsource,1,rfl,staleMold (n+1) (n+1) 1,
    normalizeMoveTarget_stale n,(),?_,?_⟩
  · rw [hnone]
    rfl
  · simp only [hnone]
    rfl

theorem renameBlock_first {first : QolipBlock} {rest : List QolipBlock} {n : Nat}
    {locations : List QolipLocation} (hfresh : ∀ block∈rest, block.name.toList.length<n) :
    (renameBlock first.name (letters n) "W" ⟨first::rest,locations,[],[]⟩).2 =
      ⟨⟨letters n,"W"⟩::rest,locations.map fun location =>
        if sameText location.block first.name then
          { location with block := letters n, warehouse := "W" }
        else location,[],[]⟩ := by
  simp only [renameBlock,renamedBlock_first hfresh,set_cons_zero,map_nil]

theorem runMolds_stale {first : QolipBlock} {rest : List QolipBlock} (hn : 0<n)
    (hfresh : ∀ block∈rest, block.name.toList.length<n) :
    (runMolds (.new (first::rest)) (renameAndMove first n)).locations =
      sortLocations [staleMold n (n+1) 1,staleMold (n+1) (n+1) 1] := by
  have hnext : ∀ block∈rest, block.name.toList.length<n+1 :=
    fun block hblock => Nat.lt_succ_of_lt (hfresh block hblock)
  have hsame : sameText (staleMold n n 2).block (letters n)=true := sameText_letters.mpr rfl
  have hplace : (placeLocation ⟨letters n,"W","m","m","m",1,2,"A",some 1⟩ keeper
      ⟨⟨letters n,"W"⟩::rest,[],[],[]⟩).2=⟨⟨letters n,"W"⟩::rest,[staleMold n n 2],[],[]⟩ := by
    simp only [placeLocation,normalizeLocation_letters hn]
    rfl
  have hrename : (renameBlock (letters n) (letters (n+1)) "W"
      ⟨⟨letters n,"W"⟩::rest,[staleMold n n 2],[],[]⟩).2 =
        ⟨⟨letters (n+1),"W"⟩::rest,[staleMold n (n+1) 2],[],[]⟩ := by
    have h := @renameBlock_first ⟨letters n,"W"⟩ rest (n+1) [staleMold n n 2] hnext
    simp only [map_cons,hsame] at h
    exact h
  simp only [runMolds,renameAndMove,foldl_cons,foldl_nil,MoldOperation.perform,
    StockOperation.perform,outcome,MemoryQolipStore.new,renameBlock_first hfresh,map_nil,
    hplace,hrename,moveLocations,applyMoves,foldlM_cons,foldlM_nil,
    applyMemoryLocationMove_stale]
  rfl

theorem not_oneRowPerPlace_stale (n : Nat) :
    ¬ OneRowPerPlace (sortLocations [staleMold n (n+1) 1,staleMold (n+1) (n+1) 1]) := by
  intro h
  have hplace : (staleMold n (n+1) 1).place=(staleMold (n+1) (n+1) 1).place := by
    simp only [QolipLocation.place,staleMold]
  have hpair := ((sortLocations_perm _).map QolipLocation.place).nodup_iff.mp h
  rw [map_cons,map_singleton,nodup_cons,mem_singleton] at hpair
  exact hpair.1 hplace

end Stale

/-- Two molds are placed in `A`, which becomes `B`, and one is moved to the cell both are in. -/
def placeRenameMove : List MoldOperation :=
  [.put ⟨"A","main","film","Film","K-1",30,2,"A",some 1⟩ keeper,.rename "A" "B" "",
    .stock (.move [⟨threeMolds.id,"B","",1,"A",some 1⟩])]

end MiniErp.Qolip
