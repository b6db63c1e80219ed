import Mathlib.Algebra.Group.Int.Defs
import Mathlib.Algebra.Group.Nat.Defs
import MiniErp.Lib.Text

/-! JSON values as `serde_json` keeps them, objects ordered by key, with field access and
indexed assignment. -/
namespace MiniErp
open List Option

def isNumberChar (c : Char) : Bool :=
  Text.isAsciiDigit c || c == '-' || c == '+' || c == '.' || c == 'e'

/-- A finite float, carried as the shortest text that is printed for it. -/
structure FloatText where
  text : String
  numeric : text.toList.all isNumberChar=true
  marked : text.toList.any (fun c => c == '.' || c == 'e')=true

inductive Number where
  | int (n : Int)
  | float (f : FloatText)

inductive Json where
  | null
  | bool (b : Bool)
  | number (n : Number)
  | string (s : String)
  | array (items : List Json)
  | object (fields : List (String × Json))

namespace Json

def get (value : Json) (key : String) : Option Json :=
  match value with
  | .object fields => fields.lookup key
  | _ => none

def asStr : Json → Option String
  | .string s => some s
  | _ => none

def asBool : Json → Option Bool
  | .bool b => some b
  | _ => none

def asU64 : Json → Option Nat
  | .number (.int n) => if 0≤n ∧ n<2^64 then some n.toNat else none
  | _ => none

def asI64 : Json → Option Int
  | .number (.int n) => if -2^63≤n ∧ n<2^63 then some n else none
  | _ => none

def asStrings : Json → Option (List String)
  | .array items => items.mapM asStr
  | _ => none

/-- `Map::insert` on fields ordered by key. -/
def setField (key : String) (value : Json) : List (String × Json) → List (String × Json)
  | [] => [(key, value)]
  | (k, v)::rest =>
    if key=k then (key, value)::rest
    else if key<k then (key, value)::(k, v)::rest
    else (k, v)::setField key value rest

/-- `value[key] = v`: null becomes an object, any other non-object panics. -/
def set (value : Json) (key : String) (v : Json) : Option Json :=
  match value with
  | .object fields => some (.object (setField key v fields))
  | .null => some (.object [(key, v)])
  | _ => none

/-- `as_object_mut().map(|fields| fields.remove(key))`. -/
def remove (value : Json) (key : String) : Json :=
  match value with
  | .object fields => .object (fields.filter fun f => f.1≠key)
  | other => other

/-- The `json!` literal of an object. -/
def ofFields (fields : List (String × Json)) : Json :=
  .object (fields.foldl (fun acc f => setField f.1 f.2 acc) [])

/-- The value itself when it is an object, the empty object otherwise. -/
def asObject (value : Json) : Json :=
  match value with
  | .object fields => .object fields
  | _ => .object []

def extend (value : Json) (fields : List (String × Json)) : Option Json :=
  fields.foldlM (fun value field => value.set field.1 field.2) value

/-- The named fields that `source` has, written over those of `value`. -/
def copyFields (source value : Json) (keys : List String) : Option Json :=
  keys.foldlM (fun value key =>
    match source.get key with
    | some field => value.set key field
    | none => some value) value

@[simp] theorem asStr_string (s : String) : (string s).asStr=some s := rfl

theorem asStrings_map_string (texts : List String) :
    (array (texts.map .string)).asStrings=some texts := by
  simp only [asStrings]
  induction texts with
  | nil => rfl
  | cons text rest ih => simp [ih]

theorem lookup_cons_ite (k key : String) (v : Json) (rest : List (String × Json)) :
    List.lookup k ((key, v)::rest)=if k=key then some v else rest.lookup k := by
  by_cases h : k=key
  · simp [h]
  · have hb : (k == key)=false := beq_eq_false_iff_ne.mpr h
    simp [lookup_cons,hb,h]

theorem lookup_setField (key k : String) (v : Json) (fields : List (String × Json)) :
    (setField key v fields).lookup k=if k=key then some v else fields.lookup k := by
  induction fields with
  | nil => rw [setField,lookup_cons_ite]
  | cons f rest ih =>
    obtain ⟨name,old⟩ := f
    simp only [setField]
    split
    · rename_i hk
      subst hk
      by_cases h : k=key <;> simp [lookup_cons_ite,h]
    · split
      · exact lookup_cons_ite k key v _
      · rename_i hk _
        by_cases h : k=name
        · have hne : name≠key := fun e => hk e.symm
          simp [h,hne]
        · simp [lookup_cons_ite,h,ih]

variable {fields : List (String × Json)} {key : String} {next value : Json}

theorem lookup_foldl_setField (h : (fields.map Prod.fst).Nodup) (base : List (String × Json))
    (key : String) : (fields.foldl (fun acc f => setField f.1 f.2 acc) base).lookup key =
    (fields.lookup key).or (base.lookup key) := by
  induction fields generalizing base with
  | nil => simp
  | cons f rest ih =>
    obtain ⟨name,value⟩ := f
    obtain ⟨hname,hrest⟩ := nodup_cons.mp h
    rw [foldl_cons,ih hrest,lookup_setField,lookup_cons_ite]
    by_cases hkey : key=name
    · have hnone : rest.lookup key=none := by
        rw [lookup_eq_none_iff]
        intro entry hentry
        rw [bne_iff_ne,hkey]
        intro heq
        rw [heq] at hname
        exact hname (List.mem_map.mpr ⟨entry,hentry,rfl⟩)
      rw [hnone,if_pos hkey,if_pos hkey]
      rfl
    · rw [if_neg hkey,if_neg hkey]

theorem lookup_filter_ne (key k : String) (fields : List (String × Json)) (h : k≠key) :
    (fields.filter fun f => f.1≠key).lookup k=fields.lookup k := by
  induction fields with
  | nil => rfl
  | cons f rest ih =>
    obtain ⟨name,old⟩ := f
    by_cases hname : name=key
    · rw [filter_cons_of_neg (by simp [hname]),ih,lookup_cons_ite,hname,if_neg h]
    · rw [filter_cons_of_pos (by simp [hname]),lookup_cons_ite,lookup_cons_ite,ih]

theorem get_set {v : Json} (h : value.set key v=some next)
    (k : String) : next.get k=if k=key then some v else value.get k := by
  cases value with
  | object fields =>
    simp only [set,some.injEq] at h
    subst h
    exact lookup_setField key k v fields
  | null =>
    simp only [set,some.injEq] at h
    subst h
    simp only [get,lookup_cons_ite,lookup_nil]
  | _ => simp [set] at h

theorem get_remove_ne (value : Json) {k : String} (h : k≠key) :
    (value.remove key).get k=value.get k := by
  cases value with
  | object fields => exact lookup_filter_ne key k fields h
  | _ => rfl

theorem get_extend_ne (h : value.extend fields=some next) (hkey : key∉fields.map Prod.fst) :
    next.get key=value.get key := by
  induction fields generalizing value with
  | nil => rw [some.inj h]
  | cons field rest ih =>
    simp only [extend,foldlM_cons,bind_eq_bind,bind_eq_some_iff] at h
    simp only [map_cons,mem_cons,not_or] at hkey
    obtain ⟨first,hfirst,hrest⟩ := h
    rw [ih hrest hkey.2,get_set hfirst,if_neg hkey.1]

theorem get_copyFields_ne {source : Json} {keys : List String}
    (h : source.copyFields value keys=some next) (hkey : key∉keys) :
    next.get key=value.get key := by
  induction keys generalizing value with
  | nil => rw [some.inj h]
  | cons name rest ih =>
    simp only [copyFields,foldlM_cons,bind_eq_bind,bind_eq_some_iff] at h
    simp only [mem_cons,not_or] at hkey
    obtain ⟨first,hfirst,hrest⟩ := h
    rw [ih hrest hkey.2]
    split at hfirst
    · rw [get_set hfirst,if_neg hkey.1]
    · rw [some.inj hfirst]

theorem get_ofFields_ne (hkey : key∉fields.map Prod.fst) : (ofFields fields).get key=none := by
  have hfold : ∀ base : List (String × Json), base.lookup key=none →
      (fields.foldl (fun acc f => setField f.1 f.2 acc) base).lookup key=none := by
    induction fields with
    | nil => exact fun base hbase => hbase
    | cons field rest ih =>
      intro base hbase
      simp only [map_cons,mem_cons,not_or] at hkey
      exact ih hkey.2 _ (by rw [lookup_setField,if_neg hkey.1,hbase])
  exact hfold [] rfl

theorem get_asObject (value : Json) (key : String) : value.asObject.get key=value.get key := by
  cases value <;> rfl

end Json

end MiniErp
