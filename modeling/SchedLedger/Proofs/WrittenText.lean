import SchedLedger.Proofs.Padded
import SchedLedger.Proofs.Utf8

/-! What a padded buffer holds and shows after a write. The bytes of the buffer depend on the content alone, so equal
contents are equal buffers. Text that does not fit is cut at a byte, which may lie inside a character; both ways to
show the buffer then end with one mark in place of the character that is cut off. -/

namespace SchedLedger

/-- `kept` is the longest start of `xs` with the property `p`. -/
structure LongestStart {α : Type} (p : List α → Prop) (xs kept : List α) : Prop where
  starts : kept <+: xs
  has : p kept
  longest : ∀ start, start <+: xs → p start → start <+: kept

theorem LongestStart.unique {α : Type} {p : List α → Prop} {xs kept kept' : List α} (h : LongestStart p xs kept)
    (h' : LongestStart p xs kept') : kept = kept' :=
  (h'.longest kept h.starts h.has).eq_of_length_le (h.longest kept' h'.starts h'.has).length_le

namespace Text.Utf8

/-- The bytes that encode some characters. -/
def encodeChars (cs : List Char) : Bytes :=
  cs.flatMap String.utf8EncodeChar

/-- Byte `n` of the encoded characters lies inside a character: it is neither the first byte of one nor past the end. -/
def CutInside (n : Nat) (cs : List Char) : Prop :=
  ∃ before c after, cs = before ++ c :: after ∧
    (encodeChars before).length < n ∧ n < (encodeChars before).length + c.utf8Size

/-- As many characters as `n` bytes have room for. -/
def fitting : Nat → List Char → List Char
  | _, [] => []
  | n, c :: cs => if c.utf8Size ≤ n then c :: fitting (n - c.utf8Size) cs else []

variable {n : Nat} {c : Char} {cs : List Char}

theorem encodeChars_cons (c : Char) (cs : List Char) :
    encodeChars (c :: cs) = String.utf8EncodeChar c ++ encodeChars cs :=
  List.flatMap_cons

theorem length_encodeChars_cons (c : Char) (cs : List Char) :
    (encodeChars (c :: cs)).length = c.utf8Size + (encodeChars cs).length := by
  rw [encodeChars_cons, List.length_append, String.length_utf8EncodeChar]

theorem longestStart_fitting (n : Nat) (cs : List Char) :
    LongestStart (fun start => (encodeChars start).length ≤ n) cs (fitting n cs) := by
  induction cs generalizing n with
  | nil => exact ⟨List.prefix_refl _, Nat.zero_le _, fun start hstart _ => hstart⟩
  | cons c cs ih =>
    by_cases hfits : c.utf8Size ≤ n
    · rw [fitting, if_pos hfits]
      obtain ⟨hstarts, hroom, hlongest⟩ := ih (n - c.utf8Size)
      refine ⟨List.cons_prefix_cons.2 ⟨rfl, hstarts⟩, ?_, fun start hstart hsize => ?_⟩
      · rw [length_encodeChars_cons]
        omega
      · cases start with
        | nil => exact List.nil_prefix
        | cons d start =>
          obtain ⟨rfl, hrest⟩ := List.cons_prefix_cons.1 hstart
          rw [length_encodeChars_cons] at hsize
          exact List.cons_prefix_cons.2 ⟨rfl, hlongest start hrest (by omega)⟩
    · rw [fitting, if_neg hfits]
      -- a start that has room cannot have the first character
      refine ⟨List.nil_prefix, Nat.zero_le _, fun start hstart hsize => ?_⟩
      cases start with
      | nil => exact List.prefix_refl _
      | cons d start =>
        obtain ⟨rfl, -⟩ := List.cons_prefix_cons.1 hstart
        rw [length_encodeChars_cons] at hsize
        omega

theorem fitting_eq_self (h : (encodeChars cs).length ≤ n) : fitting n cs = cs := by
  obtain ⟨hstarts, -, hlongest⟩ := longestStart_fitting n cs
  exact hstarts.eq_of_length_le (hlongest cs (List.prefix_refl _) h).length_le

theorem not_cutInside_nil : ¬ CutInside n [] := by
  rintro ⟨before, c, after, hcs, -⟩
  simp at hcs

theorem not_cutInside_of_length_le (h : (encodeChars cs).length ≤ n) : ¬ CutInside n cs := by
  rintro ⟨before, c, after, rfl, -, hend⟩
  rw [encodeChars, List.flatMap_append, List.length_append] at h
  change (encodeChars before).length + (encodeChars (c :: after)).length ≤ n at h
  rw [length_encodeChars_cons] at h
  omega

theorem cutInside_cons_of_le (h : c.utf8Size ≤ n) : CutInside n (c :: cs) ↔ CutInside (n - c.utf8Size) cs := by
  constructor
  · rintro ⟨before, d, after, hcs, hbegin, hend⟩
    cases before with
    | nil =>
      obtain ⟨rfl, -⟩ := List.cons.inj hcs
      simp only [encodeChars, List.flatMap_nil, List.length_nil, Nat.zero_add] at hend
      omega
    | cons b before =>
      obtain ⟨rfl, rfl⟩ := List.cons.inj hcs
      rw [length_encodeChars_cons] at hbegin hend
      exact ⟨before, d, after, rfl, by omega, by omega⟩
  · rintro ⟨before, d, after, rfl, hbegin, hend⟩
    refine ⟨c :: before, d, after, rfl, ?_⟩
    rw [length_encodeChars_cons]
    omega

theorem cutInside_cons_of_lt (h : n < c.utf8Size) : CutInside n (c :: cs) ↔ 0 < n := by
  constructor
  · rintro ⟨before, d, after, -, hbegin, -⟩
    omega
  · intro hpos
    exact ⟨[], c, cs, rfl, hpos, by rwa [encodeChars, List.flatMap_nil, List.length_nil, Nat.zero_add]⟩

theorem pieces_take_encodeChars (n : Nat) (cs : List Char) :
    ∃ cut, pieces ((encodeChars cs).take n) = (fitting n cs).map some ++ cut ∧
      (CutInside n cs → cut = [none]) ∧ (¬ CutInside n cs → cut = []) := by
  induction cs generalizing n with
  | nil => exact ⟨[], by simp [encodeChars, fitting, pieces], fun h => (not_cutInside_nil h).elim, fun _ => rfl⟩
  | cons c cs ih =>
    have hsize := String.length_utf8EncodeChar c
    by_cases hfits : c.utf8Size ≤ n
    · obtain ⟨cut, hpieces, hinside, houtside⟩ := ih (n - c.utf8Size)
      rw [cutInside_cons_of_le hfits]
      refine ⟨cut, ?_, hinside, houtside⟩
      rw [encodeChars_cons, List.take_append, hsize, List.take_of_length_le (hsize.trans_le hfits),
        pieces_utf8EncodeChar_append, hpieces, fitting, if_pos hfits, List.map_cons, List.cons_append]
    · have hshort : n < c.utf8Size := Nat.lt_of_not_le hfits
      rw [cutInside_cons_of_lt hshort, fitting, if_neg hfits, encodeChars_cons,
        List.take_append_of_le_length (hsize.symm ▸ hshort.le)]
      rcases Nat.eq_zero_or_pos n with rfl | hpos
      · exact ⟨[], by rw [List.take_zero, pieces]; rfl, fun h => absurd h (Nat.lt_irrefl 0), fun _ => rfl⟩
      · exact ⟨[none], pieces_take_utf8EncodeChar hpos (hsize.symm ▸ hshort), fun _ => rfl, fun h => absurd hpos h⟩

section Shown

variable {bs : Bytes}

theorem shown_of_valid (h : pieces bs = cs.map some) : lossy bs = String.ofList cs ∧ leading bs = String.ofList cs := by
  have hvalid : valid bs = true := by simp [valid, h]
  constructor
  · simp [lossy, h, Function.comp_def]
  · simp only [leading, hvalid, if_true, h]
    rw [List.takeWhile_eq_self_iff.2 (by simp), List.filterMap_map]
    simp

/-- One invalid part at the end is shown as one mark either way. -/
theorem shown_of_cut (h : pieces bs = cs.map some ++ [none]) :
    lossy bs = String.ofList (cs ++ [replacement]) ∧ leading bs = String.ofList (cs ++ [replacement]) := by
  have hvalid : valid bs = false := by simp [valid, h]
  constructor
  · simp [lossy, h, Function.comp_def]
  · have hgood : (pieces bs).takeWhile Option.isSome = cs.map some := by
      rw [h, List.takeWhile_append_of_pos (by simp)]
      simp
    simp only [leading, hvalid, hgood, List.filterMap_map]
    apply String.toList_inj.1
    simp

end Shown

theorem encodeChars_nul_cons (cs : List Char) : encodeChars ('\x00' :: cs) = 0 :: encodeChars cs := rfl

theorem beforeNul_encodeChars (cs : List Char) :
    beforeNul (encodeChars cs) = encodeChars (cs.takeWhile (· != '\x00')) := by
  induction cs with
  | nil => rfl
  | cons c cs ih =>
    by_cases hc : c = '\x00'
    · subst hc
      rw [encodeChars_nul_cons, List.takeWhile_cons_of_neg (by simp)]
      rfl
    · have hbytes : ∀ b ∈ String.utf8EncodeChar c, (b != 0) = true := by
        intro b hb
        rw [bne_iff_ne]
        rintro rfl
        exact hc (Char.toNat_inj.1 (toNat_eq_of_mem_utf8EncodeChar (by decide) hb))
      rw [List.takeWhile_cons_of_pos (by simpa using hc), encodeChars_cons, encodeChars_cons, ← ih, beforeNul,
        List.takeWhile_append_of_pos hbytes]
      rfl

end Text.Utf8

namespace Padded

open Text.Utf8

variable {n : Nat}

theorem ofBytes_eq_iff {a b : Bytes} :
    (ofBytes a : Padded n) = ofBytes b ↔ (ofBytes a : Padded n).content = (ofBytes b : Padded n).content := by
  refine ⟨congrArg content, fun h => eq_of_toBytes ?_⟩
  rw [content_ofBytes, content_ofBytes, ← fit_eq_take, ← fit_eq_take] at h
  rw [toBytes_ofBytes, toBytes_ofBytes, h]

theorem fit_fit (n : Nat) (src : Bytes) : fit n (fit n src) = fit n src := by
  rw [fit_eq_take n (fit n src), beforeNul, List.takeWhile_eq_self_iff.2 fun x hx => bne_zero_of_mem_fit hx,
    List.take_of_length_le (length_fit_le n src)]

/-- Whatever stood in a buffer, a write leaves the source up to its first NUL, as far as it fits with one byte to spare,
and zeros after it; it returns the length of that content. So buffers that were written are equal if their contents
are, writing the content back changes nothing, and a buffer is empty if its content is. -/
theorem canonical_write (n : Nat) :
    (∀ (b : Padded n) (src : Bytes),
      let content := (src.takeWhile (· != 0)).take (n - 1)
      (b.write src).toBytes = content ++ List.replicate (n - content.length) 0 ∧
      (b.write src).content = content ∧ written n src = content.length ∧
      ((b.write src).isEmpty = true ↔ content = []) ∧
      ∀ b' : Padded n, b'.write src = b.write src) ∧
    (∀ src src' : Bytes, (ofBytes src : Padded n) = ofBytes src' ↔
      (ofBytes src : Padded n).content = (ofBytes src' : Padded n).content) ∧
    (∀ src : Bytes, ofBytes (ofBytes src : Padded n).content = (ofBytes src : Padded n)) ∧
    ∀ b : Padded n, b.isEmpty = b.content.isEmpty := by
  refine ⟨fun b src => ?_, fun _ _ => ofBytes_eq_iff, fun src => ?_, fun b => ?_⟩
  · refine ⟨toBytes_write b src, content_write b src, rfl, ?_, fun b' => rfl⟩
    rw [isEmpty_iff, content_write]
    rfl
  · rw [ofBytes_eq_iff, content_ofBytes, ← fit_eq_take, content_ofBytes, ← fit_eq_take, fit_fit]
  · rw [Bool.eq_iff_iff, isEmpty_iff, List.isEmpty_iff]

theorem content_ofText (n : Nat) (s : String) :
    (ofBytes (encode s) : Padded (n + 1)).content =
      (encodeChars (s.toList.takeWhile (· != '\x00'))).take n := by
  rw [content_ofBytes, Nat.add_sub_cancel, ← beforeNul_encodeChars]
  rfl

/-- Text that was written to a buffer of `n + 1` bytes is shown the same both ways: the longest part of it, up to its
first NUL, that has room in `n` bytes, and one mark after it if byte `n` lies inside a character. -/
theorem shown_of_written (n : Nat) (s : String) :
    let b : Padded (n + 1) := ofBytes (encode s)
    let text := s.toList.takeWhile (· != '\x00')
    ∃ kept, LongestStart (fun start => (encodeChars start).length ≤ n) text kept ∧
      b.display = b.lossy ∧
      (CutInside n text → b.lossy = String.ofList (kept ++ [replacement])) ∧
      (¬ CutInside n text → b.lossy = String.ofList kept) ∧
      ((encodeChars text).length ≤ n → b.lossy = String.ofList text) := by
  intro b text
  have hcontent : b.content = (encodeChars text).take n := content_ofText n s
  obtain ⟨cut, hpieces, hinside, houtside⟩ := pieces_take_encodeChars n text
  rw [← hcontent] at hpieces
  refine ⟨fitting n text, longestStart_fitting n text, ?_⟩
  by_cases hcut : CutInside n text
  · rw [hinside hcut] at hpieces
    obtain ⟨hlossy, hleading⟩ := shown_of_cut hpieces
    exact ⟨hleading.trans hlossy.symm, fun _ => hlossy, fun h => absurd hcut h,
      fun hroom => absurd hcut (not_cutInside_of_length_le hroom)⟩
  · rw [houtside hcut, List.append_nil] at hpieces
    obtain ⟨hlossy, hleading⟩ := shown_of_valid hpieces
    refine ⟨hleading.trans hlossy.symm, fun h => absurd h hcut, fun _ => hlossy, fun hroom => ?_⟩
    rw [← fitting_eq_self hroom]
    exact hlossy

/-- The second character needs bytes 1 and 2, and a buffer of three bytes has room for the first of them. -/
theorem shown_of_written_halfway :
    (ofBytes (encode (String.ofList ['a', 'é', '\x00', 'b'])) : Padded 3).lossy = "a\uFFFD" ∧
    (ofBytes (encode (String.ofList ['a', 'é', '\x00', 'b'])) : Padded 3).display = "a\uFFFD" := by
  obtain ⟨kept, hkept, hshown, hcut, -⟩ := shown_of_written 2 (String.ofList ['a', 'é', '\x00', 'b'])
  have htext : (String.ofList ['a', 'é', '\x00', 'b']).toList.takeWhile (· != '\x00') = ['a', 'é'] := by
    rw [String.toList_ofList]
    decide
  rw [htext] at hkept hcut
  have hinside : CutInside 2 ['a', 'é'] := ⟨['a'], 'é', [], rfl, by decide, by decide⟩
  obtain rfl : kept = ['a'] := hkept.unique (longestStart_fitting 2 ['a', 'é'])
  exact ⟨hcut hinside, hshown.trans (hcut hinside)⟩

end Padded

end SchedLedger
