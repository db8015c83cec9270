import Mathlib.Data.List.Basic
import Logline.Output.Disk.Open

/-!
# Bytes over other bytes

What is written over other bytes stands where it was put, and leaves the rest as it was. Writing one piece
and then another behind it is writing both at once.
-/

namespace Logline.Output

/-! ## Byte by byte -/

theorem bytes_ext {a b : ByteArray} (h : ∀ i : Nat, a.data[i]? = b.data[i]?) : a = b :=
  ByteArray.ext (Array.ext_getElem? h)

theorem getElem?_bytes_append (a b : ByteArray) (i : Nat) :
    (a ++ b).data[i]? = if i < a.size then a.data[i]? else b.data[i - a.size]? := by
  rw [ByteArray.data_append, Array.getElem?_append]
  rfl

theorem getElem?_bytes_extract (a : ByteArray) (i j k : Nat) :
    (a.extract i j).data[k]? = if k < min j a.size - i then a.data[i + k]? else none := by
  rw [ByteArray.data_extract, Array.getElem?_extract]
  rfl

/-! ## Overwriting -/

section
variable (old new : ByteArray) (p : Nat)

theorem size_overwrite : (overwrite old p new).size = max old.size (p + new.size) := by
  have hzero : (zeroBytes (p - old.size)).size = p - old.size := Array.size_replicate
  simp only [overwrite, ByteArray.size_append, ByteArray.size_extract, hzero]
  omega

theorem getElem?_overwrite (i : Nat) : (overwrite old p new).data[i]? =
    if i < p then if i < old.size then old.data[i]? else some 0
    else if i < p + new.size then new.data[i - p]? else old.data[i]? := by
  have hold : old.data.size = old.size := rfl
  have hzero : (zeroBytes (p - old.size)).size = p - old.size := Array.size_replicate
  have hgap : ∀ k : Nat, (zeroBytes (p - old.size)).data[k]? = if k < p - old.size then some 0 else none :=
    fun k => Array.getElem?_replicate
  have hfront : min p old.size - 0 + (p - old.size) = p := by omega
  simp only [overwrite, getElem?_bytes_append, getElem?_bytes_extract, ByteArray.size_append, ByteArray.size_extract,
    hzero, hgap, hfront]
  grind

theorem extract_overwrite_self : (overwrite old p new).extract p (p + new.size) = new := by
  have hnew : new.data.size = new.size := rfl
  refine bytes_ext fun i => ?_
  rw [getElem?_bytes_extract, getElem?_overwrite, size_overwrite]
  grind

/-- What stands before or behind is still there. -/
theorem extract_overwrite_of_apart {i j : Nat} (hj : j ≤ old.size) (h : p + new.size ≤ i ∨ j ≤ p) :
    (overwrite old p new).extract i j = old.extract i j := by
  refine bytes_ext fun k => ?_
  rw [getElem?_bytes_extract, getElem?_bytes_extract, getElem?_overwrite, size_overwrite]
  grind

theorem overwrite_end : overwrite old old.size new = old ++ new := by
  have hold : old.data.size = old.size := rfl
  have hnew : new.data.size = new.size := rfl
  refine bytes_ext fun i => ?_
  rw [getElem?_overwrite, getElem?_bytes_append]
  grind

theorem overwrite_overwrite (more : ByteArray) :
    overwrite (overwrite old p new) (p + new.size) more = overwrite old p (new ++ more) := by
  refine bytes_ext fun i => ?_
  rw [getElem?_overwrite, getElem?_overwrite, getElem?_overwrite, size_overwrite, ByteArray.size_append,
    getElem?_bytes_append]
  grind

end

end Logline.Output
