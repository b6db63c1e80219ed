import MiniErp.Lib.Base64
import MiniErp.Lib.JsonText
import MiniErp.Lib.Run
import MiniErp.Lib.Utf8

/-! Pages of the admin's orders: the pending intake first, then the orders, cut by one offset that a
cursor carries together with the version it was issued for. -/
namespace MiniErp.Live
open Text Run List

inductive AdminError where
  | badRequest (code : String)
  | conflict (code : String)
  deriving DecidableEq, Repr

structure Cursor where
  version : String
  offset : Nat
  deriving DecidableEq

def cursorText (cursor : Cursor) : List Char :=
  (Json.object [("version", .string cursor.version),("offset", .number (.int cursor.offset))]).text

/-- `serde_json::to_vec` of a cursor. -/
def cursorBytes (cursor : Cursor) : List UInt8 := encode (cursorText cursor)

/-- Reading a cursor from its JSON, which gives back what was written. -/
structure CursorJson where
  read : List UInt8 → Option Cursor
  read_cursorBytes : ∀ cursor, cursor.offset<2^64 → read (cursorBytes cursor)=some cursor

structure PageKey where
  scope : String
  epoch : String
  revision : Nat
  pending : String

def PageKey.text (key : PageKey) : String :=
  key.scope ++ "\x00" ++ key.epoch ++ "\x00" ++ toString key.revision ++ "\x00" ++ key.pending

/-- The version of a page, with SHA-256 as a number of 256 bits. -/
def version (digest : String → Nat) (key : PageKey) : String :=
  String.ofList (hexDigits 64 (digest key.text))

def offset (json : CursorJson) (cursor version : String) : Except AdminError Nat :=
  if cursor = "" then .ok 0
  else if cursor.utf8ByteSize > 512 then .error (.badRequest "invalid_order_page_cursor")
  else
    match (Base64.decode cursor.toList).bind json.read with
    | none => .error (.badRequest "invalid_order_page_cursor")
    | some decoded =>
      if decoded.version≠version then .error (.conflict "order_page_changed")
      else .ok decoded.offset

def nextCursor (version : String) (stop total : Nat) : Option String :=
  if stop<total then some (String.ofList (Base64.encode (cursorBytes ⟨version,stop⟩))) else none

/-- The pending intake and the orders a page is cut from; their number is a machine word. -/
structure Listing (π : Type) where
  pending : List π
  ids : List String
  fits : ids.length+pending.length<2^64

structure Page (π : Type) where
  pending : List π
  ids : List String
  nextCursor : Option String

variable {π : Type}

def Listing.total (listing : Listing π) : Nat := listing.ids.length+listing.pending.length

/-- The page from an offset; the sum of offset and limit saturates at the largest word. -/
def pageAt (version : String) (limit : Nat) (listing : Listing π) (start : Nat) : Page π :=
  let stop := min (min (start+limit) (2^64-1)) listing.total
  let intake := listing.pending.length
  { pending := (listing.pending.drop start).take (stop-start)
    ids := (listing.ids.drop (start-intake)).take (stop-intake-(start-intake))
    nextCursor := nextCursor version stop listing.total }

def readPage (json : CursorJson) (version : String) (limit : Nat) (listing : Listing π)
    (cursor : String) : Except AdminError (Page π) := do
  let start ← offset json cursor version
  ensure (start≤listing.total) (.conflict "order_page_changed")
  return pageAt version limit listing start

/-- A client that follows the cursors: `none` when the fuel ends before the pages. -/
def follow (json : CursorJson) (version : String) (limit : Nat) (listing : Listing π) :
    Nat → String → Except AdminError (Option (List (Page π)))
  | 0, _ => .ok none
  | fuel+1, cursor => do
    let page ← readPage json version limit listing cursor
    match page.nextCursor with
    | none => return some [page]
    | some next => return (← follow json version limit listing fuel next).map (page :: ·)

def Page.items (page : Page π) : List (π ⊕ String) := page.pending.map .inl++page.ids.map .inr

def Listing.items (listing : Listing π) : List (π ⊕ String) :=
  listing.pending.map .inl++listing.ids.map .inr

section Coding
variable {digest : String → Nat} {key : PageKey} {n : Nat}

theorem hexDigits_plain {width m : Nat} {c : Char} (h : c∈hexDigits width m) :
    Json.escapeChar c=[c] ∧ c.toNat≤127 := by
  have hdigit : ∀ d<16, Json.escapeChar (Nat.digitChar d)=[Nat.digitChar d] ∧
      (Nat.digitChar d).toNat≤127 := by decide
  obtain ⟨d,hd,rfl⟩ := exists_of_mem_hexDigits h
  exact hdigit d hd

theorem escape_hexDigits (width m : Nat) : Json.escape (hexDigits width m)=hexDigits width m := by
  have hplain : ∀ c∈hexDigits width m, Json.escapeChar c=[c] := fun c hc => (hexDigits_plain hc).1
  rw [Json.escape,flatMap_congr hplain,flatMap_singleton']

theorem cursorText_version (digest : String → Nat) (key : PageKey) (n : Nat) :
    cursorText ⟨version digest key,n⟩ = "\x7b\"version\":\"".toList ++
      hexDigits 64 (digest key.text) ++ "\",\"offset\":".toList++Nat.toDigits 10 n++['}'] := by
  have hversion : Json.stringText "version" = "\"version\"".toList := by decide
  have hoffset : Json.stringText "offset" = "\"offset\"".toList := by decide
  have hhash : Json.stringText (version digest key) =
      '"' :: (hexDigits 64 (digest key.text) ++ ['"']) := by
    rw [Json.stringText,version,String.toList_ofList,escape_hexDigits]
  simp only [cursorText,Json.text,Json.fieldsText,hversion,hoffset,Json.numberText,hhash]
  simp [Json.intText]

theorem cursorText_ascii {c : Char} (h : c∈cursorText ⟨version digest key,n⟩) : c.toNat≤127 := by
  have hhead : "\x7b\"version\":\"".toList.all (fun c => c.toNat≤127)=true := by decide +kernel
  have hmiddle : "\",\"offset\":".toList.all (fun c => c.toNat≤127)=true := by decide +kernel
  have hdigits : ∀ c∈Nat.toDigits 10 n, c.toNat≤127 := by
    intro c hc
    have hdigit := Nat.isDigit_of_mem_toDigits (by decide) (by decide) hc
    simp only [Char.isDigit,Bool.and_eq_true,decide_eq_true_eq] at hdigit
    have hlast : c.toNat ≤ '9'.toNat := hdigit.2
    exact hlast.trans (by decide)
  rw [cursorText_version] at h
  simp only [mem_append,mem_singleton] at h
  rcases h with (((h | h) | h) | h) | rfl
  · exact of_decide_eq_true (all_eq_true.mp hhead c h)
  · exact (hexDigits_plain h).2
  · exact of_decide_eq_true (all_eq_true.mp hmiddle c h)
  · exact hdigits c h
  · decide

theorem length_cursorBytes (h : n<2^64) : (cursorBytes ⟨version digest key,n⟩).length≤108 := by
  have hdigits : (Nat.toDigits 10 n).length≤20 := by
    rw [Nat.length_toDigits_le_iff (by decide) (by decide)]
    omega
  rw [cursorBytes,length_encode_of_ascii fun c hc => cursorText_ascii hc,cursorText_version]
  simp only [length_append,length_hexDigits,length_singleton]
  have hhead : "\x7b\"version\":\"".toList.length=12 := by decide
  have hmiddle : "\",\"offset\":".toList.length=11 := by decide
  omega

/-- A cursor is read under its own version and refused under any other one. -/
theorem offset_nextCursor (json : CursorJson) {total : Nat} {cursor : String} (hn : n<2^64)
    (h : nextCursor (version digest key) n total=some cursor) (current : String) :
    offset json cursor current=if version digest key≠current
      then .error (.conflict "order_page_changed") else .ok n := by
  have hcursor : String.ofList (Base64.encode (cursorBytes ⟨version digest key,n⟩))=cursor := by
    unfold nextCursor at h
    split at h
    · exact Option.some.inj h
    · cases h
  have hread : (Base64.decode cursor.toList).bind json.read=some ⟨version digest key,n⟩ := by
    rw [← hcursor,String.toList_ofList,Base64.decode_encode,Option.bind_some,
      json.read_cursorBytes _ hn]
  have hsize : cursor.utf8ByteSize≤144 := by
    have hlength := Base64.length_encode_le (cursorBytes ⟨version digest key,n⟩)
    have hbytes : (cursorBytes ⟨version digest key,n⟩).length≤108 := length_cursorBytes hn
    rw [← hcursor,utf8ByteSize_ofList_of_ascii fun c hc => Base64.utf8Size_of_mem_encode hc]
    omega
  have hne : cursor ≠ "" := by
    intro hempty
    have hbytes : cursorBytes ⟨version digest key,n⟩ ≠ [] := by
      have hlength : (cursorBytes ⟨version digest key,n⟩).length=_ :=
        length_encode_of_ascii fun c hc => cursorText_ascii hc
      exact ne_nil_of_length_eq_add_one hlength
    rw [hempty,← String.toList_inj,String.toList_ofList] at hcursor
    exact Base64.encode_ne_nil hbytes hcursor
  rw [offset,if_neg hne,if_neg (by omega),hread]

end Coding

section Pages
variable {json : CursorJson} {digest : String → Nat} {key : PageKey} {limit start : Nat}
  {listing : Listing π} {cursor : String}

theorem items_slice (listing : Listing π) {start stop : Nat} (h : start ≤ stop) :
    ((listing.pending.drop start).take (stop-start)).map Sum.inl ++
        ((listing.ids.drop (start-listing.pending.length)).take
          (stop-listing.pending.length-(start-listing.pending.length))).map Sum.inr =
      (listing.items.drop start).take (stop-start) := by
  have hrest : stop-start-(listing.pending.length-start) =
      stop-listing.pending.length-(start-listing.pending.length) := by omega
  rw [Listing.items,drop_append,take_append,length_drop,length_map,hrest,
    map_take,map_drop,map_take,map_drop]

theorem stop_eq (listing : Listing π) (start limit : Nat) :
    min (min (start+limit) (2^64-1)) listing.total=min (start+limit) listing.total := by
  have hfits : listing.total<2^64 := listing.fits
  omega

theorem items_pageAt (version : String) (hstart : start≤listing.total) :
    (pageAt version limit listing start).items =
      (listing.items.drop start).take (min (start+limit) listing.total-start) := by
  rw [← items_slice listing (by omega : start ≤ min (start+limit) listing.total),Page.items,pageAt,
    stop_eq]

theorem nextCursor_pageAt (version : String) : (pageAt version limit listing start).nextCursor =
      nextCursor version (min (start+limit) listing.total) listing.total := by
  rw [pageAt,stop_eq]

theorem readPage_at (hoffset : offset json cursor (version digest key)=.ok start)
    (hstart : start≤listing.total) : readPage json (version digest key) limit listing cursor =
      .ok (pageAt (version digest key) limit listing start) := by
  rw [readPage,hoffset]
  simp only [bind,Except.bind,ensure,decide_eq_true hstart]
  rfl

theorem length_items (listing : Listing π) : listing.items.length=listing.total := by
  rw [Listing.items,length_append,length_map,length_map,Listing.total,Nat.add_comm]

/-- From an offset the client reads all that is left. -/
theorem follow_from (hlimit : 1≤limit) (left : Nat) :
    ∀ {start : Nat} {cursor : String}, start≤listing.total → listing.total-start<left →
      offset json cursor (version digest key)=.ok start → ∃ pages, (∀ fuel, left≤fuel →
          follow json (version digest key) limit listing fuel cursor=.ok (some pages)) ∧
        pages.flatMap Page.items=listing.items.drop start := by
  induction left with
  | zero => omega
  | succ left ih =>
    intro start cursor hstart hleft hoffset
    have hpage : readPage json (version digest key) limit listing cursor=_ :=
      readPage_at hoffset hstart
    have hitems : (pageAt (version digest key) limit listing start).items=_ :=
      items_pageAt (version digest key) hstart
    have hnext : (pageAt (version digest key) limit listing start).nextCursor=_ :=
      nextCursor_pageAt (version digest key)
    cases hcursor : nextCursor (version digest key) (min (start+limit) listing.total)
        listing.total with
    | none =>
      -- the last page reaches the end
      have hend : listing.total ≤ start+limit := by
        unfold nextCursor at hcursor
        split at hcursor
        · cases hcursor
        · omega
      refine ⟨[pageAt (version digest key) limit listing start],?_,?_⟩
      · intro fuel hfuel
        obtain ⟨fuel,rfl⟩ := Nat.exists_eq_add_one_of_ne_zero (by omega : fuel≠0)
        rw [follow,hpage]
        simp only [bind,Except.bind,hnext,hcursor]
        rfl
      · rw [flatMap_singleton,hitems,Nat.min_eq_right hend,take_of_length_le]
        rw [length_drop,length_items]
    | some next =>
      have hmore : start+limit<listing.total := by
        unfold nextCursor at hcursor
        split at hcursor
        · omega
        · cases hcursor
      have hstop : min (start+limit) listing.total=start+limit := by omega
      have hfits : listing.total<2^64 := listing.fits
      rw [hstop] at hcursor hitems hnext
      have hread : offset json next (version digest key)=.ok (start+limit) := by
        rw [offset_nextCursor json (by omega) hcursor,if_neg (not_not.mpr rfl)]
      obtain ⟨pages,hpages,hflat⟩ := ih (by omega) (by omega) hread
      refine ⟨pageAt (version digest key) limit listing start::pages,?_,?_⟩
      · intro fuel hfuel
        obtain ⟨fuel,rfl⟩ := Nat.exists_eq_add_one_of_ne_zero (by omega : fuel≠0)
        rw [follow,hpage]
        simp only [bind,Except.bind,hnext,hcursor,hpages fuel (by omega)]
        rfl
      · have hlimited : start+limit-start=limit := by omega
        rw [flatMap_cons,hitems,hflat,hlimited,← drop_drop,take_append_drop]

/-- Following the cursors from the first page reads the pending intake and then the orders, each
once; a cursor of another version is refused. -/
theorem follow_reads_all (json : CursorJson) (digest : String → Nat) (key : PageKey)
    (listing : Listing π) (limit : Nat) (hlimit : 1≤limit) :
    (∃ pages, (∀ fuel, listing.total<fuel →
        follow json (version digest key) limit listing fuel "" = .ok (some pages)) ∧
      pages.flatMap Page.items=listing.items) ∧
    ∀ (other : PageKey) (others : Listing π) (size : Nat) (cursor next : String) (page : Page π),
      readPage json (version digest other) size others cursor=.ok page →
      page.nextCursor=some next → version digest other≠version digest key →
      readPage json (version digest key) limit listing next =
        .error (.conflict "order_page_changed") := by
  constructor
  · have hfirst : offset json "" (version digest key)=.ok 0 := rfl
    exact follow_from hlimit (listing.total+1) (Nat.zero_le _) (by omega) hfirst
  · intro other others size cursor next page hpage hnext hother
    simp only [readPage,bind_eq_ok] at hpage
    obtain ⟨start,-,_,-,hat⟩ := hpage
    cases hat
    rw [nextCursor_pageAt] at hnext
    have hstop : min (start+size) others.total<2^64 := by
      have hfits : others.total<2^64 := others.fits
      omega
    rw [readPage,offset_nextCursor json hstop hnext,if_pos hother]
    rfl

theorem cursorBytes_injective : Function.Injective cursorBytes := by
  intro first second h
  have htext : String.ofList (cursorText first)=String.ofList (cursorText second) := by
    have hread := congrArg fromUtf8 h
    rwa [cursorBytes,cursorBytes,fromUtf8_encode,fromUtf8_encode,Option.some.injEq] at hread
  have hjson := Json.text_injective (String.ofList_injective htext)
  cases first
  cases second
  simpa using hjson

/-- The reader that accepts exactly what is written. -/
noncomputable def exactJson : CursorJson where
  read := Function.partialInv cursorBytes
  read_cursorBytes := fun cursor _ => Function.partialInv_left cursorBytes_injective cursor

theorem follow_reads_all_intake : (∃ pages, (∀ fuel, 3<fuel →
        follow exactJson (version String.length ⟨"orders","e",7,""⟩) 2
          ⟨[1,2],["a"],by decide⟩ fuel "" = .ok (some pages)) ∧
      pages.flatMap Page.items=[.inl 1,.inl 2,.inr "a"]) ∧
    ∀ (other : PageKey) (others : Listing Nat) (size : Nat) (cursor next : String)
      (page : Page Nat),
      readPage exactJson (version String.length other) size others cursor=.ok page →
      page.nextCursor=some next →
      version String.length other≠version String.length ⟨"orders","e",7,""⟩ →
      readPage exactJson (version String.length ⟨"orders","e",7,""⟩) 2
        ⟨[1,2],["a"],by decide⟩ next=.error (.conflict "order_page_changed") :=
  follow_reads_all exactJson String.length ⟨"orders","e",7,""⟩ ⟨[1,2],["a"],by decide⟩ 2 (by decide)

end Pages

end MiniErp.Live
