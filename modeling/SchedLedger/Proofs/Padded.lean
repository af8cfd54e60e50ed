import SchedLedger.Text.Padded
import Mathlib.Data.List.TakeWhile

/-! Padded buffers by their content. A write forgets what stood in the buffer: the content is what fits of
the source, and only zeros follow. -/

namespace SchedLedger

namespace Text.Utf8

theorem lossy_ne_empty {bs : Bytes} (h : bs ≠ []) : lossy bs ≠ "" := by
  cases bs with
  | nil => exact absurd rfl h
  | cons b rest =>
    rw [lossy, pieces, List.map_cons]
    intro heq
    have hlist := congrArg String.toList heq
    simp at hlist

end Text.Utf8

/-- The part of a byte text before its first NUL. -/
def beforeNul (src : Bytes) : Bytes :=
  src.takeWhile (· != 0)

namespace Padded

variable {n : Nat}

theorem fit_eq_take (n : Nat) (src : Bytes) : fit n src = (beforeNul src).take (n - 1) := rfl

theorem length_fit_le (n : Nat) (src : Bytes) : (fit n src).length ≤ n - 1 :=
  List.length_take_le _ _

theorem bne_zero_of_mem_fit {src : Bytes} {x : UInt8} (h : x ∈ fit n src) : (x != 0) = true := by
  have hbefore := List.mem_takeWhile_imp (List.mem_of_mem_take h)
  exact hbefore

theorem ne_zero_of_mem_fit {src : Bytes} {x : UInt8} (h : x ∈ fit n src) : x ≠ 0 :=
  bne_iff_ne.1 (bne_zero_of_mem_fit h)

/-- A write leaves the content and zeros after it. -/
theorem toBytes_write (b : Padded n) (src : Bytes) :
    (b.write src).toBytes = fit n src ++ List.replicate (n - (fit n src).length) 0 := by
  have hlen := length_fit_le n src
  apply List.ext_getElem
  · simp [toBytes]
    omega
  · intro i h₁ h₂
    simp only [toBytes, write, overlay, clear, empty, Vector.getElem_toList, Vector.getElem_ofFn,
      List.getElem_append, List.getElem_replicate, Fin.getElem_fin, Vector.getElem_replicate]
    split
    · next hi => simp [hi]
    · next hi => simp [List.getElem?_eq_none (Nat.le_of_not_lt hi)]

theorem toBytes_empty : (empty : Padded n).toBytes = List.replicate n 0 := by
  simp [toBytes, empty]

theorem toBytes_ofBytes (src : Bytes) :
    (ofBytes src : Padded n).toBytes = fit n src ++ List.replicate (n - (fit n src).length) 0 :=
  toBytes_write empty src

theorem eq_of_toBytes {b b' : Padded n} (h : b.toBytes = b'.toBytes) : b = b' := by
  cases b
  cases b'
  exact congrArg Padded.mk (Vector.toList_inj.1 h)

theorem content_write (b : Padded n) (src : Bytes) : (b.write src).content = fit n src := by
  rw [content, toBytes_write, List.takeWhile_append_of_pos fun x hx => bne_zero_of_mem_fit hx, List.takeWhile_replicate]
  simp

theorem isEmpty_iff {b : Padded n} : b.isEmpty = true ↔ b.content = [] := by
  unfold isEmpty content
  cases b.toBytes with
  | nil => simp
  | cons x rest => simp [List.takeWhile_cons]

theorem content_ofBytes (src : Bytes) : (ofBytes src : Padded n).content = (beforeNul src).take (n - 1) :=
  content_write empty src

theorem isEmpty_write (b : Padded n) (src : Bytes) : (b.write src).isEmpty = (fit n src).isEmpty := by
  rw [Bool.eq_iff_iff, isEmpty_iff, content_write, List.isEmpty_iff]

/-- The buffer is some content without NUL and after it nothing but NULs, one at least. -/
def Terminated (b : Padded n) : Prop :=
  ∃ content k, 0 ∉ content ∧ b.toBytes = content ++ List.replicate (k + 1) 0

theorem terminated_write (hn : 0 < n) (b : Padded n) (src : Bytes) : (b.write src).Terminated := by
  have hlen := length_fit_le n src
  refine ⟨fit n src, n - 1 - (fit n src).length, fun h => ne_zero_of_mem_fit h rfl, ?_⟩
  rw [toBytes_write, show n - (fit n src).length = n - 1 - (fit n src).length + 1 by omega]

theorem terminated_clear (hn : 0 < n) (b : Padded n) : b.clear.Terminated := by
  refine ⟨[], n - 1, List.not_mem_nil, ?_⟩
  rw [show n - 1 + 1 = n by omega]
  simp [clear, empty, toBytes]

theorem lossy_ne_empty {b : Padded n} (h : b.isEmpty = false) : b.lossy ≠ "" := by
  apply Text.Utf8.lossy_ne_empty
  intro hnil
  rw [isEmpty_iff.2 hnil] at h
  cases h

end Padded
end SchedLedger
