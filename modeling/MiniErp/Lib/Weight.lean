import MiniErp.Lib.JsonText

/-! Sums over the characters of a text: sizes of escaped texts and of JSON texts without the texts
themselves. -/
namespace MiniErp.Text
open List

-- A fold, so that it is evaluated without nested sums.
def weight (w : Char → Nat) (l : List Char) : Nat := l.foldl (fun n c => n+w c) 0

variable (w : Char → Nat)

theorem weight_eq_sum (l : List Char) : weight w l=(l.map w).sum := by
  have hfold : ∀ n, l.foldl (fun n c => n+w c) n=n+(l.map w).sum := by
    induction l with
    | nil => simp
    | cons c rest ih =>
      intro n
      rw [foldl_cons,ih,map_cons,sum_cons,Nat.add_assoc]
  rw [weight,hfold,Nat.zero_add]

@[simp] theorem weight_nil : weight w []=0 := rfl

@[simp] theorem weight_cons (c : Char) (l : List Char) : weight w (c::l)=w c+weight w l := by
  simp [weight_eq_sum]

@[simp] theorem weight_append (l l' : List Char) : weight w (l++l')=weight w l+weight w l' := by
  simp [weight_eq_sum]

theorem weight_flatMap (f : Char → List Char) (l : List Char) :
    weight w (l.flatMap f)=weight (fun c => weight w (f c)) l := by
  induction l with
  | nil => rfl
  | cons c rest ih => rw [flatMap_cons,weight_append,weight_cons,ih]

theorem weight_replicate (n : Nat) (c : Char) : weight w (List.replicate n c)=n*w c := by
  simp [weight_eq_sum]

theorem utf8ByteSize_ofList (l : List Char) :
    (String.ofList l).utf8ByteSize=weight Char.utf8Size l := by
  rw [String.utf8ByteSize_ofList]
  induction l with
  | nil => rfl
  | cons c rest ih => rw [String.utf8Len_cons,weight_cons,ih,Nat.add_comm]

variable {w}

theorem le_weight {c : Char} {l : List Char} (h : c∈l) : w c≤weight w l := by
  rw [weight_eq_sum]
  exact single_le_sum (fun _ _ => Nat.zero_le _) _ (mem_map.mpr ⟨c,h,rfl⟩)

theorem weight_mono {w' : Char → Nat} (h : ∀ c, w c≤w' c) (l : List Char) :
    weight w l≤weight w' l := by
  induction l with
  | nil => exact Nat.le_refl 0
  | cons c rest ih =>
    have hc := h c
    rw [weight_cons,weight_cons]
    omega

end MiniErp.Text

namespace MiniErp.Json
open Text
variable (w : Char → Nat)

def stringWeight (s : String) : Nat := 2*w '"' + weight (fun c => weight w (escapeChar c)) s.toList

theorem weight_stringText (s : String) : weight w (stringText s)=stringWeight w s := by
  rw [stringText,stringWeight,weight_cons,weight_append,escape,weight_flatMap,weight_cons,
    weight_nil]
  omega

mutual
/-- The weight of the text of a value. -/
def size : Json → Nat
  | .string s => stringWeight w s
  | .array [] => w '[' + w ']'
  | .array (x::xs) => w '[' + (size x+itemsSize xs)
  | .object [] => w '{' + w '}'
  | .object ((k, v)::fs) => w '{' + (stringWeight w k+(w ':' + (size v+fieldsSize fs)))
  | .null => weight w (text .null)
  | .bool b => weight w (text (.bool b))
  | .number n => weight w (text (.number n))

def itemsSize : List Json → Nat
  | [] => w ']'
  | x::xs => w ',' + (size x+itemsSize xs)

def fieldsSize : List (String × Json) → Nat
  | [] => w '}'
  | (k, v)::fs => w ',' + (stringWeight w k+(w ':' + (size v+fieldsSize fs)))
end

mutual
theorem weight_text : ∀ v : Json, weight w v.text=size w v
  | .null => by rw [size]
  | .bool _ => by rw [size]
  | .number _ => by rw [size]
  | .string s => by rw [text,size,weight_stringText]
  | .array [] => by simp [text,size]
  | .array (x::xs) => by rw [text,size,weight_cons,weight_append,weight_text x,weight_itemsText xs]
  | .object [] => by simp [text,size]
  | .object ((k, v)::fs) => by
    rw [text,size,weight_cons,weight_append,weight_cons,weight_append,weight_stringText,
      weight_text v,weight_fieldsText fs]

theorem weight_itemsText : ∀ xs : List Json, weight w (itemsText xs)=itemsSize w xs
  | [] => by simp [itemsText,itemsSize]
  | x::xs => by rw [itemsText,itemsSize,weight_cons,weight_append,weight_text x,weight_itemsText xs]

theorem weight_fieldsText : ∀ fs : List (String × Json), weight w (fieldsText fs)=fieldsSize w fs
  | [] => by simp [fieldsText,fieldsSize]
  | (k, v)::fs => by
    rw [fieldsText,fieldsSize,weight_cons,weight_append,weight_cons,weight_append,
      weight_stringText,weight_text v,weight_fieldsText fs]
end

/-- Items of an array that is not empty: their weights and a comma for each but the first. -/
theorem size_array {items : List Json} (h : items ≠ []) : size w (.array items)+w ',' =
      w '[' + w ']' + (items.map fun item => size w item+w ',').sum := by
  have hitems : ∀ xs : List Json,
      itemsSize w xs=w ']' + (xs.map fun item => size w item+w ',').sum := by
    intro xs
    induction xs with
    | nil => simp [itemsSize]
    | cons x xs ih =>
      rw [itemsSize,List.map_cons,List.sum_cons]
      omega
  cases items with
  | nil => exact absurd rfl h
  | cons x xs =>
    rw [size,hitems xs,List.map_cons,List.sum_cons]
    omega

end MiniErp.Json
