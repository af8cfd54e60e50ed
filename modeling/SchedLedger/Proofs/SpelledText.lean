import SchedLedger.Json.Printer
import SchedLedger.Json.Reader

/-! Texts between quotes. A character may be spelled as it stands, by a letter after a backslash, or by number, the
ones past sixteen bits by the two numbers of a surrogate pair. However its characters are spelled, a text is read
back, and the way in which texts are printed is one of them. -/

namespace SchedLedger.Json

/-- The letters that stand for a character after a backslash. -/
def letters : List (Char × Char) :=
  [('"', '"'), ('\\', '\\'), ('/', '/'), ('b', '\x08'), ('f', '\x0C'), ('n', '\n'), ('r', '\r'), ('t', '\t')]

/-- The four hexadecimal digits of a sixteen-bit number, each in upper or lower case. -/
inductive SpellsUnit (n : Nat) : List Char → Prop
  | digits {a b c d : Char}
    (ha : a ∈ [Text.hexDigit (n / 4096 % 16), (Text.hexDigit (n / 4096 % 16)).toUpper])
    (hb : b ∈ [Text.hexDigit (n / 256 % 16), (Text.hexDigit (n / 256 % 16)).toUpper])
    (hc : c ∈ [Text.hexDigit (n / 16 % 16), (Text.hexDigit (n / 16 % 16)).toUpper])
    (hd : d ∈ [Text.hexDigit (n % 16), (Text.hexDigit (n % 16)).toUpper]) : SpellsUnit n [a, b, c, d]

inductive SpellsChar (c : Char) : List Char → Prop
  | plain (hprintable : ' ' ≤ c) (hquote : c ≠ '"') (hslash : c ≠ '\\') : SpellsChar c [c]
  | letter {e : Char} (h : (e, c) ∈ letters) : SpellsChar c ['\\', e]
  | unit {ds : List Char} (hlow : c.toNat < 0x10000) (h : SpellsUnit c.toNat ds) : SpellsChar c ('\\' :: 'u' :: ds)
  | pair {hs ls : List Char} (hhigh : 0x10000 ≤ c.toNat)
    (hh : SpellsUnit (0xD800 + (c.toNat - 0x10000) / 0x400) hs)
    (hl : SpellsUnit (0xDC00 + (c.toNat - 0x10000) % 0x400) ls) :
    SpellsChar c ('\\' :: 'u' :: hs ++ '\\' :: 'u' :: ls)

inductive SpellsChars : List Char → List Char → Prop
  | nil : SpellsChars [] []
  | cons {c : Char} {s cs rest : List Char} (h : SpellsChar c cs) (hrest : SpellsChars s rest) :
    SpellsChars (c :: s) (cs ++ rest)

/-- A text in quotes. -/
inductive SpellsText (s : String) : List Char → Prop
  | quoted {cs : List Char} (h : SpellsChars s.toList cs) : SpellsText s ('"' :: cs ++ ['"'])

/-! Reading -/

theorem hexValue?_hexDigit : ∀ n < 16,
    hexValue? (Text.hexDigit n) = some n ∧ hexValue? (Text.hexDigit n).toUpper = some n := by
  decide

theorem hexValue?_of_digit {n : Nat} (hn : n < 16) {c : Char}
    (hc : c ∈ [Text.hexDigit n, (Text.hexDigit n).toUpper]) : hexValue? c = some n := by
  obtain ⟨hlower, hupper⟩ := hexValue?_hexDigit n hn
  simp only [List.mem_cons, List.not_mem_nil, or_false] at hc
  rcases hc with rfl | rfl
  · exact hlower
  · exact hupper

theorem hexUnit?_of_spells {n : Nat} {a b c d : Char} (h : SpellsUnit n [a, b, c, d]) (hn : n < 0x10000) :
    hexUnit? a b c d = some n := by
  cases h with
  | digits ha hb hc hd =>
    have hvalue : ((n / 4096 % 16 * 16 + n / 256 % 16) * 16 + n / 16 % 16) * 16 + n % 16 = n := by omega
    have hmod : ∀ m, m % 16 < 16 := fun m => Nat.mod_lt m (by decide)
    simp only [hexUnit?, hexValue?_of_digit (hmod _) ha, hexValue?_of_digit (hmod _) hb,
      hexValue?_of_digit (hmod _) hc, hexValue?_of_digit (hmod _) hd, bind, Option.bind, pure, hvalue]

theorem escaped?_letter : ∀ l ∈ letters, escaped? l.1 = some l.2 ∧ l.1 ≠ 'u' := by
  decide

theorem pieces_plain {c : Char} (hprintable : ' ' ≤ c) (hquote : c ≠ '"') (hslash : c ≠ '\\') (rest : List Char) :
    pieces (c :: rest) = (pieces rest).map fun found => (.plain c :: found.1, found.2) := by
  have hcontrol : ¬ c < ' ' := Char.not_lt.2 hprintable
  rw [pieces.eq_def]
  split
  · next h => cases h
  · next h => exact absurd (List.cons.inj h).1 hquote
  · next h => exact absurd (List.cons.inj h).1 hslash
  · next h => exact absurd (List.cons.inj h).1 hslash
  · next h =>
    obtain ⟨rfl, rfl⟩ := List.cons.inj h
    rw [if_neg hcontrol]
    cases pieces rest <;> rfl

theorem pieces_letter {e c : Char} (h : (e, c) ∈ letters) (rest : List Char) :
    pieces ('\\' :: e :: rest) = (pieces rest).map fun found => (.plain c :: found.1, found.2) := by
  obtain ⟨hescaped, hu⟩ := escaped?_letter (e, c) h
  rw [pieces.eq_4 _ _ (by rintro a b c d cs rfl; exact absurd rfl hu), hescaped]
  cases pieces rest <;> rfl

theorem pieces_unit {n : Nat} {ds : List Char} (h : SpellsUnit n ds) (hn : n < 0x10000) (rest : List Char) :
    pieces ('\\' :: 'u' :: (ds ++ rest)) = (pieces rest).map fun found => (.unit n :: found.1, found.2) := by
  cases h with
  | digits ha hb hc hd =>
    simp only [List.cons_append, List.nil_append, pieces, hexUnit?_of_spells (.digits ha hb hc hd) hn]
    cases pieces rest <;> rfl

theorem joinPieces_unit {n : Nat} (hn : n < 0xD800 ∨ 0xDFFF < n) (ps : List Piece) :
    joinPieces (.unit n :: ps) = (joinPieces ps).map (Char.ofNat n :: ·) := by
  have hhigh : isHighUnit n = false := by simp [isHighUnit]; omega
  have hlow : isLowUnit n = false := by simp [isLowUnit]; omega
  rcases ps with _ | ⟨_ | m, ps⟩ <;> simp [joinPieces, hhigh, hlow]

theorem joinPieces_pair {n m : Nat} (hn : 0xD800 ≤ n) (hn' : n < 0xDC00) (hm : 0xDC00 ≤ m) (hm' : m < 0xE000)
    (ps : List Piece) :
    joinPieces (.unit n :: .unit m :: ps) =
      (joinPieces ps).map (Char.ofNat (0x10000 + (n - 0xD800) * 0x400 + (m - 0xDC00)) :: ·) := by
  simp [joinPieces, isHighUnit, isLowUnit, hn, hn', hm, hm']

/-- However a character is spelled, its pieces come first and join to it. -/
theorem pieces_of_spellsChar {c : Char} {cs : List Char} (h : SpellsChar c cs) :
    ∃ ps, (∀ rest, pieces (cs ++ rest) = (pieces rest).map fun found => (ps ++ found.1, found.2)) ∧
      ∀ qs, joinPieces (ps ++ qs) = (joinPieces qs).map (c :: ·) := by
  have hvalid : c.toNat < 0xD800 ∨ (0xDFFF < c.toNat ∧ c.toNat < 0x110000) := c.valid
  have hc : Char.ofNat c.toNat = c := Char.ofNat_toNat c
  cases h with
  | plain hprintable hquote hslash =>
    exact ⟨[.plain c], fun rest => pieces_plain hprintable hquote hslash rest, fun _ => rfl⟩
  | letter h => exact ⟨[.plain c], fun rest => pieces_letter h rest, fun _ => rfl⟩
  | unit hlow h =>
    refine ⟨[.unit c.toNat], fun rest => pieces_unit h hlow rest, fun qs => ?_⟩
    rw [List.singleton_append, joinPieces_unit (by omega), hc]
  | @pair hs ls hhigh hh hl =>
    refine ⟨[.unit (0xD800 + (c.toNat - 0x10000) / 0x400), .unit (0xDC00 + (c.toNat - 0x10000) % 0x400)],
      fun rest => ?_, fun qs => ?_⟩
    · rw [List.append_assoc, List.cons_append, List.cons_append, pieces_unit hh (by omega), List.cons_append,
        List.cons_append, pieces_unit hl (by omega)]
      cases pieces rest <;> rfl
    · have hsum : 0x10000 + (0xD800 + (c.toNat - 0x10000) / 0x400 - 0xD800) * 0x400 +
          (0xDC00 + (c.toNat - 0x10000) % 0x400 - 0xDC00) = c.toNat := by omega
      rw [List.cons_append, List.singleton_append,
        joinPieces_pair (by omega) (by omega) (by omega) (by omega), hsum, hc]

theorem pieces_of_spellsChars {s cs : List Char} (h : SpellsChars s cs) :
    ∃ ps, (∀ rest, pieces (cs ++ '"' :: rest) = some (ps, rest)) ∧ joinPieces ps = some s := by
  induction h with
  | nil => exact ⟨[], fun _ => rfl, rfl⟩
  | cons h hrest ih =>
    obtain ⟨ps, hps, hjoin⟩ := pieces_of_spellsChar h
    obtain ⟨qs, hqs, hjoined⟩ := ih
    refine ⟨ps ++ qs, fun rest => ?_, ?_⟩
    · rw [List.append_assoc, hps, hqs]
      rfl
    · rw [hjoin, hjoined]
      rfl

theorem stringTail_of_spells {s : String} {cs : List Char} (h : SpellsChars s.toList cs) (rest : List Char) :
    stringTail (cs ++ '"' :: rest) = some (s, rest) := by
  obtain ⟨ps, hps, hjoin⟩ := pieces_of_spellsChars h
  simp [stringTail, hps, hjoin]

/-! Printing -/

theorem spellsUnit_hexFixed (n : Nat) : SpellsUnit n (Text.hexFixed 4 n) := by
  have hdigits : Text.hexFixed 4 n = [Text.hexDigit (n / 4096 % 16), Text.hexDigit (n / 256 % 16),
      Text.hexDigit (n / 16 % 16), Text.hexDigit (n % 16)] := by
    simp [Text.hexFixed, Nat.div_div_eq_div_mul]
  rw [hdigits]
  exact .digits List.mem_cons_self List.mem_cons_self List.mem_cons_self List.mem_cons_self

theorem spellsChar_escapedChar (c : Char) : SpellsChar c (escapedChar c) := by
  unfold escapedChar
  split
  · exact .letter (by decide)
  · exact .letter (by decide)
  · exact .letter (by decide)
  · exact .letter (by decide)
  · exact .letter (by decide)
  · exact .letter (by decide)
  · exact .letter (by decide)
  · next hquote hslash _ _ _ _ _ =>
    split
    · next hcontrol =>
      have hlow : c.toNat < 32 := UInt32.lt_iff_toNat_lt.1 hcontrol
      exact .unit (by omega) (spellsUnit_hexFixed c.toNat)
    · next hprintable => exact .plain (Char.not_lt.1 hprintable) hquote hslash

theorem spellsText_stringText (s : String) : SpellsText s (stringText s) := by
  refine .quoted ?_
  induction s.toList with
  | nil => exact .nil
  | cons c cs ih => exact .cons (spellsChar_escapedChar c) ih

/-- A text without control characters, and so on one line. -/
def Printable (cs : List Char) : Prop :=
  ∀ c ∈ cs, ' ' ≤ c

@[simp] theorem printable_nil : Printable [] :=
  List.forall_mem_nil _

@[simp] theorem printable_cons {c : Char} {cs : List Char} : Printable (c :: cs) ↔ ' ' ≤ c ∧ Printable cs :=
  List.forall_mem_cons

@[simp] theorem printable_append {cs cs' : List Char} : Printable (cs ++ cs') ↔ Printable cs ∧ Printable cs' :=
  List.forall_mem_append

theorem Printable.newline_notMem {cs : List Char} (h : Printable cs) : '\n' ∉ cs := fun hmem =>
  absurd (h '\n' hmem) (by decide)

theorem printable_hexDigit : ∀ n < 16, ' ' ≤ Text.hexDigit n ∧ ' ' ≤ (Text.hexDigit n).toUpper := by
  decide

theorem SpellsUnit.printable {n : Nat} {ds : List Char} (h : SpellsUnit n ds) : Printable ds := by
  have hdigit : ∀ m, ∀ c ∈ [Text.hexDigit (m % 16), (Text.hexDigit (m % 16)).toUpper], ' ' ≤ c := by
    intro m
    obtain ⟨hlower, hupper⟩ := printable_hexDigit (m % 16) (Nat.mod_lt m (by decide))
    exact List.forall_mem_cons.2 ⟨hlower, List.forall_mem_singleton.2 hupper⟩
  cases h with
  | digits ha hb hc hd => simp [hdigit _ _ ha, hdigit _ _ hb, hdigit _ _ hc, hdigit _ _ hd]

theorem printable_letter : ∀ l ∈ letters, ' ' ≤ l.1 := by
  decide

theorem SpellsChar.printable {c : Char} {cs : List Char} (h : SpellsChar c cs) : Printable cs := by
  cases h with
  | plain hprintable _ _ => simp [hprintable]
  | letter h => simp [printable_letter _ h]
  | unit _ h => simp [h.printable]
  | pair _ hh hl => simp [hh.printable, hl.printable]

theorem SpellsChars.printable {s cs : List Char} (h : SpellsChars s cs) : Printable cs := by
  induction h with
  | nil => exact printable_nil
  | cons h _ ih => exact printable_append.2 ⟨h.printable, ih⟩

theorem SpellsText.printable {s : String} {cs : List Char} (h : SpellsText s cs) : Printable cs := by
  cases h with
  | quoted h => simp [h.printable]

end SchedLedger.Json
