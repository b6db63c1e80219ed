import Mathlib.Data.UInt

/-! Pieces laid out one after another: what stands at an offset of the whole, and numbers of a
fixed width in little-endian order. -/
namespace MiniErp.Layout
open List
variable {α : Type*}

def slice (whole : List α) (start stop : Nat) : Option (List α) :=
  if start ≤ stop ∧ stop≤whole.length then some ((whole.drop start).take (stop-start)) else none

def At (whole : List α) (offset : Nat) (piece : List α) : Prop :=
  offset≤whole.length ∧ piece <+: whole.drop offset

theorem at_append (before piece after : List α) :
    At (before++(piece++after)) before.length piece := by
  refine ⟨by simp,?_⟩
  rw [drop_left]
  exact prefix_append piece after

section
variable {whole piece rest : List α} {offset : Nat}

theorem At.end_le (h : At whole offset piece) : offset+piece.length≤whole.length := by
  have hlength := h.2.length_le
  have hoffset := h.1
  rw [length_drop] at hlength
  omega

theorem At.left (h : At whole offset (piece++rest)) : At whole offset piece :=
  ⟨h.1,(prefix_append piece rest).trans h.2⟩

theorem At.right (h : At whole offset (piece++rest)) : At whole (offset+piece.length) rest := by
  refine ⟨h.left.end_le,?_⟩
  have hdrop := h.2.drop piece.length
  rwa [drop_left,drop_drop] at hdrop

theorem slice_of_at (h : At whole offset piece) :
    slice whole offset (offset+piece.length)=some piece := by
  rw [slice,if_pos ⟨Nat.le_add_right offset piece.length,h.end_le⟩,Nat.add_sub_cancel_left,
    ← prefix_iff_eq_take.mp h.2]

end

/- Numbers. -/

def littleEndian : Nat → Nat → List UInt8
  | 0, _ => []
  | width+1, n => UInt8.ofNat n::littleEndian width (n/256)

def ofLittleEndian : List UInt8 → Nat
  | [] => 0
  | byte::rest => byte.toNat+256*ofLittleEndian rest

@[simp] theorem length_littleEndian (width n : Nat) : (littleEndian width n).length=width := by
  induction width generalizing n with
  | zero => rfl
  | succ width ih => simp [littleEndian,ih]

theorem ofLittleEndian_littleEndian {width n : Nat} (h : n<256^width) :
    ofLittleEndian (littleEndian width n)=n := by
  induction width generalizing n with
  | zero =>
    rw [littleEndian,ofLittleEndian]
    omega
  | succ width ih =>
    have hrest : n/256<256^width := by
      rw [Nat.pow_succ] at h
      omega
    have hbyte : (UInt8.ofNat n).toNat=n%256 := UInt8.toNat_ofNat
    rw [littleEndian,ofLittleEndian,ih hrest,hbyte]
    omega

def numbers (fields : List (Nat × Nat)) : List UInt8 :=
  fields.flatMap fun field => littleEndian field.1 field.2

theorem length_numbers (fields : List (Nat × Nat)) :
    (numbers fields).length=(fields.map Prod.fst).sum := by
  simp [numbers,length_flatMap]

/-- Each number reads back at the place the widths before it give. -/
def Readable (whole : List UInt8) (offset : Nat) : List (Nat × Nat) → Prop
  | [] => True
  | (width, n)::fields =>
    slice whole offset (offset+width)=some (littleEndian width n) ∧
      Readable whole (offset+width) fields

theorem At.readable {whole : List UInt8} {offset : Nat} {fields : List (Nat × Nat)}
    (h : At whole offset (numbers fields)) : Readable whole offset fields := by
  induction fields generalizing offset with
  | nil => trivial
  | cons field fields ih =>
    have hslice := slice_of_at h.left
    have hrest := h.right
    rw [length_littleEndian] at hslice hrest
    exact ⟨hslice,ih hrest⟩

end MiniErp.Layout
