import SchedLedger.Proofs.SpelledText
import Mathlib.Data.List.TakeWhile

/-! Values as text, as far as records hold any: nothing, whole numbers, texts, and lists of these. White space may
stand around every part. Whoever spells a value so has it read back, up to where it ends. -/

namespace SchedLedger.Json

/-- White space between the parts of a text. -/
def Blank (cs : List Char) : Prop :=
  ∀ c ∈ cs, isBlank c = true

/-- A text that a number in front of it does not take anything from. -/
def Apart (rest : List Char) : Prop :=
  ∀ c ∈ rest.head?, isDigit c = false ∧ c ≠ '.' ∧ c ≠ 'e' ∧ c ≠ 'E'

inductive SpellsScalar : Value → List Char → Prop
  | null : SpellsScalar .null ['n', 'u', 'l', 'l']
  | integer {n : Nat} (h : n < UInt64.size) : SpellsScalar (.integer n) (Nat.toDigits 10 n)
  | text {s : String} {cs : List Char} (h : SpellsText s cs) : SpellsScalar (.text s) cs

variable {α : Type}

/-- The text of a part with white space around it. -/
inductive Spaced (spells : α → List Char → Prop) (a : α) : List Char → Prop
  | around {before cs after : List Char} (hbefore : Blank before) (h : spells a cs) (hafter : Blank after) :
    Spaced spells a (before ++ cs ++ after)

/-- Parts with commas between them. -/
inductive SpellsItems (spells : α → List Char → Prop) : List α → List Char → Prop
  | last {a : α} {cs : List Char} (h : Spaced spells a cs) : SpellsItems spells [a] cs
  | more {a : α} {as : List α} {cs rest : List Char} (h : Spaced spells a cs) (hrest : SpellsItems spells as rest) :
    SpellsItems spells (a :: as) (cs ++ ',' :: rest)

inductive Spells : Value → List Char → Prop
  | scalar {v : Value} {cs : List Char} (h : SpellsScalar v cs) : Spells v cs
  | empty {cs : List Char} (h : Blank cs) : Spells (.list []) ('[' :: cs ++ [']'])
  | list {vs : List Value} {cs : List Char} (h : SpellsItems SpellsScalar vs cs) :
    Spells (.list vs) ('[' :: cs ++ [']'])

/-! White space -/

theorem skipBlank_append {before : List Char} (h : Blank before) {rest : List Char}
    (hrest : ∀ c ∈ rest.head?, isBlank c = false) : skipBlank (before ++ rest) = rest := by
  rw [skipBlank, List.dropWhile_append_of_pos h]
  cases rest with
  | nil => rfl
  | cons c rest => exact List.dropWhile_cons_of_neg (by simpa using hrest c rfl)

theorem not_isDigit_of_isBlank {c : Char} (h : isBlank c = true) :
    isDigit c = false ∧ c ≠ '.' ∧ c ≠ 'e' ∧ c ≠ 'E' := by
  simp only [isBlank, Bool.or_eq_true, beq_iff_eq] at h
  rcases h with ((rfl | rfl) | rfl) | rfl <;> decide

theorem Apart.append {after rest : List Char} (hafter : Blank after) (hrest : Apart rest) : Apart (after ++ rest) := by
  cases after with
  | nil => exact hrest
  | cons c after =>
    intro c' hc'
    cases hc'
    exact not_isDigit_of_isBlank (hafter c List.mem_cons_self)

/-! Numbers -/

theorem isDigit_of_mem_toDigits {n : Nat} {c : Char} (h : c ∈ Nat.toDigits 10 n) : isDigit c = true := by
  have hdigit := Char.isDigit_iff_toNat.1 (Nat.isDigit_of_mem_toDigits (by decide) (by decide) h)
  simpa [isDigit, Char.le_def, UInt32.le_iff_toNat_le] using hdigit

theorem spanDigits_append {ds rest : List Char} (hds : ∀ c ∈ ds, isDigit c = true)
    (hrest : ∀ c ∈ rest.head?, isDigit c = false) : spanDigits (ds ++ rest) = (ds, rest) := by
  rw [spanDigits, List.takeWhile_append_of_pos hds, List.dropWhile_append_of_pos hds]
  cases rest with
  | nil => simp
  | cons c rest => simp [hrest c rfl]

/-- The digits of a number, of which only those of zero start with a zero. -/
theorem exists_toDigits_eq_cons (n : Nat) : ∃ c cs, Nat.toDigits 10 n = c :: cs ∧ (c = '0' → n = 0) := by
  induction n using Nat.strongRecOn with
  | ind n ih =>
    rw [Nat.toDigits_eq_if (by decide)]
    split
    · exact ⟨_, [], rfl, Nat.digitChar_eq_zero.1⟩
    · next hten =>
      obtain ⟨c, cs, hdigits, hzero⟩ := ih (n / 10) (by omega)
      exact ⟨c, cs ++ [Nat.digitChar (n % 10)], by rw [hdigits]; rfl, fun hc => by have := hzero hc; omega⟩

theorem decimalValue_toDigits (n : Nat) : Text.decimalValue (Nat.toDigits 10 n) = n := by
  have hfold : Text.decimalValue (Nat.toDigits 10 n) = Nat.ofDigitChars 10 (Nat.toDigits 10 n) 0 := by
    rw [Nat.ofDigitChars_eq_foldl, Text.decimalValue]
    congr
    funext m d
    rw [Nat.mul_comm]
    rfl
  rw [hfold, Nat.ofDigitChars_ten_toDigits]

theorem wholePart_toDigits (n : Nat) {rest : List Char} (hrest : Apart rest) :
    wholePart (Nat.toDigits 10 n ++ rest) = some (Nat.toDigits 10 n, rest) := by
  rw [wholePart, spanDigits_append (fun c hc => isDigit_of_mem_toDigits hc) fun c hc => (hrest c hc).1]
  split
  · next h => exact absurd (Prod.mk.inj h).1 Nat.toDigits_ne_nil
  · next h =>
    obtain ⟨c, cs, hdigits, hzero⟩ := exists_toDigits_eq_cons n
    have hspan := (Prod.mk.inj h).1
    have hc : c = '0' := (List.cons.inj (hdigits.symm.trans hspan)).1
    rw [hzero hc] at hspan
    cases hspan
  · rfl

theorem fractionPart_of_apart {rest : List Char} (hrest : Apart rest) : fractionPart rest = some (none, rest) := by
  unfold fractionPart
  split
  · exact absurd rfl (hrest '.' rfl).2.1
  · rfl

theorem exponentPart_of_apart {rest : List Char} (hrest : Apart rest) : exponentPart rest = some (none, rest) := by
  unfold exponentPart
  split
  · exact absurd rfl (hrest 'e' rfl).2.2.1
  · exact absurd rfl (hrest 'E' rfl).2.2.2
  · rfl

theorem numeral_toDigits (n : Nat) {rest : List Char} (hrest : Apart rest) :
    numeral (Nat.toDigits 10 n ++ rest) = some (⟨false, Nat.toDigits 10 n, none, none⟩, rest) := by
  have hsign : ((Nat.toDigits 10 n ++ rest).head? == some '-') = false := by
    obtain ⟨c, cs, hdigits, -⟩ := exists_toDigits_eq_cons n
    have hdigit : isDigit c = true := isDigit_of_mem_toDigits (hdigits ▸ List.mem_cons_self)
    rw [hdigits, List.cons_append, List.head?_cons, beq_eq_false_iff_ne]
    rintro ⟨rfl⟩
    cases hdigit
  simp only [numeral, hsign, Bool.false_eq_true, if_false, wholePart_toDigits n hrest, fractionPart_of_apart hrest,
    exponentPart_of_apart hrest, bind, Option.bind, pure]

theorem value?_toDigits {n : Nat} (hn : n < UInt64.size) :
    (⟨false, Nat.toDigits 10 n, none, none⟩ : Numeral).value? = some (.integer n) := by
  simp only [Numeral.value?, Numeral.integer?, decimalValue_toDigits, Bool.false_eq_true, if_false, if_pos hn]

theorem scalar_toDigits {n : Nat} (hn : n < UInt64.size) {rest : List Char} (hrest : Apart rest) :
    scalar (Nat.toDigits 10 n ++ rest) = some (.integer n, rest) := by
  have hother : ∀ c cs, Nat.toDigits 10 n ++ rest = c :: cs → isDigit c = true := by
    intro c cs h
    obtain ⟨d, ds, hdigits, -⟩ := exists_toDigits_eq_cons n
    rw [hdigits, List.cons_append] at h
    rw [← (List.cons.inj h).1]
    exact isDigit_of_mem_toDigits (hdigits ▸ List.mem_cons_self)
  unfold scalar
  split
  · next h => exact absurd (hother _ _ h) (by decide)
  · next h => exact absurd (hother _ _ h) (by decide)
  · next h => exact absurd (hother _ _ h) (by decide)
  · next h => exact absurd (hother _ _ h) (by decide)
  · simp [numeral_toDigits n hrest, value?_toDigits hn]

/-! Values that are no lists -/

theorem scalar_of_spells {v : Value} {cs : List Char} (h : SpellsScalar v cs) {rest : List Char}
    (hrest : Apart rest) : scalar (cs ++ rest) = some (v, rest) := by
  cases h with
  | null => rfl
  | integer hn => exact scalar_toDigits hn hrest
  | text h =>
    cases h with
    | quoted h => simp [scalar, stringTail_of_spells h]

theorem SpellsScalar.head {v : Value} {cs : List Char} (h : SpellsScalar v cs) :
    ∃ c rest, cs = c :: rest ∧ (c = 'n' ∨ c = '"' ∨ isDigit c = true) := by
  cases h with
  | null => exact ⟨_, _, rfl, .inl rfl⟩
  | @integer n hn =>
    obtain ⟨c, rest, hdigits, -⟩ := exists_toDigits_eq_cons n
    exact ⟨c, rest, hdigits, .inr (.inr (isDigit_of_mem_toDigits (hdigits ▸ List.mem_cons_self)))⟩
  | text h =>
    cases h with
    | quoted h => exact ⟨_, _, rfl, .inr (.inl rfl)⟩

/-! Lists -/

def Opens (c : Char) : Prop :=
  isBlank c = false ∧ c ≠ ']' ∧ c ≠ '\x7d'

def Opening (spells : α → List Char → Prop) : Prop :=
  ∀ a cs, spells a cs → ∃ c rest, cs = c :: rest ∧ Opens c

theorem opens_of_isDigit {c : Char} (h : isDigit c = true) : Opens c ∧ c ≠ '[' ∧ c ≠ '\x7b' := by
  have hblank : isBlank c = false := by
    by_contra hblank
    rw [Bool.not_eq_false] at hblank
    rw [(not_isDigit_of_isBlank hblank).1] at h
    cases h
  refine ⟨⟨hblank, ?_, ?_⟩, ?_, ?_⟩ <;> rintro rfl <;> cases h

theorem SpellsScalar.opens {v : Value} {cs : List Char} (h : SpellsScalar v cs) :
    ∃ c rest, cs = c :: rest ∧ Opens c ∧ c ≠ '[' ∧ c ≠ '\x7b' := by
  obtain ⟨c, rest, rfl, hc⟩ := h.head
  refine ⟨c, rest, rfl, ?_⟩
  rcases hc with rfl | rfl | hc
  · exact ⟨⟨rfl, by decide, by decide⟩, by decide, by decide⟩
  · exact ⟨⟨rfl, by decide, by decide⟩, by decide, by decide⟩
  · exact opens_of_isDigit hc

theorem opening_scalar : Opening SpellsScalar := by
  intro v cs h
  obtain ⟨c, rest, rfl, hc, -⟩ := h.opens
  exact ⟨c, rest, rfl, hc⟩

/-- A reader takes what is spelled off the front of a text, white space before it included, and leaves the rest. -/
def Takes (item : List Char → Option (α × List Char)) (spells : α → List Char → Prop) : Prop :=
  ∀ a cs, spells a cs → ∀ before, Blank before → ∀ rest, Apart rest → item (before ++ (cs ++ rest)) = some (a, rest)

/-- At any depth, a value that opens with no bracket is read as one that is no container. -/
theorem value_of_opens (depth : Nat) {text rest : List Char} {c : Char} (hskip : skipBlank text = c :: rest)
    (hlist : c ≠ '[') (hobject : c ≠ '\x7b') : value depth text = scalar (c :: rest) := by
  cases depth with
  | zero =>
    rw [value, hskip]
    split
    · next h => exact absurd (List.cons.inj h).1 hlist
    · next h => exact absurd (List.cons.inj h).1 hobject
    · rfl
  | succ depth =>
    rw [value, hskip]
    split
    · next h => exact absurd (List.cons.inj h).1 hlist
    · next h => exact absurd (List.cons.inj h).1 hobject
    · rfl

theorem takes_scalar (depth : Nat) : Takes (value depth) SpellsScalar := by
  intro v cs h before hbefore rest hrest
  have hscalar := scalar_of_spells h hrest
  obtain ⟨c, cs, rfl, ⟨hblank, -, -⟩, hlist, hobject⟩ := h.opens
  have hskip : skipBlank (before ++ (c :: cs ++ rest)) = c :: (cs ++ rest) := by
    refine skipBlank_append hbefore ?_
    rintro d ⟨rfl⟩
    exact hblank
  rw [value_of_opens depth hskip hlist hobject]
  exact hscalar

/-- The characters after which a part can end. -/
def Ends (c : Char) : Prop :=
  c = ',' ∨ c = ']' ∨ c = '\x7d'

theorem Ends.apart {c : Char} (h : Ends c) (rest : List Char) : Apart (c :: rest) := by
  rintro d ⟨rfl⟩
  rcases h with rfl | rfl | rfl <;> decide

theorem Ends.isBlank {c : Char} (h : Ends c) : isBlank c = false := by
  rcases h with rfl | rfl | rfl <;> rfl

variable {item : List Char → Option (α × List Char)} {spells : α → List Char → Prop} {close : Char}

theorem Takes.spaced (hitem : Takes item spells) {a : α} {cs : List Char} (h : Spaced spells a cs) {c : Char}
    (hc : Ends c) (rest : List Char) :
    ∃ after, item (cs ++ c :: rest) = some (a, after) ∧ skipBlank after = c :: rest := by
  cases h with
  | @around before cs after hbefore h hafter =>
    refine ⟨after ++ c :: rest, ?_, skipBlank_append hafter ?_⟩
    · rw [List.append_assoc, List.append_assoc]
      exact hitem a cs h before hbefore _ ((hc.apart rest).append hafter)
    · rintro d ⟨rfl⟩
      exact hc.isBlank

theorem itemsUpTo_of_spells (hitem : Takes item spells) (hclose : Ends close) (hcomma : close ≠ ',') {as : List α}
    {cs : List Char} (h : SpellsItems spells as cs) {fuel : Nat} (hfuel : as.length ≤ fuel) (rest : List Char) :
    itemsUpTo close item fuel (cs ++ close :: rest) = some (as, rest) := by
  induction h generalizing fuel with
  | last h =>
    obtain ⟨after, hread, hskip⟩ := hitem.spaced h hclose rest
    cases fuel with
    | zero => cases hfuel
    | succ fuel =>
      simp only [itemsUpTo, hread, hskip, bind, Option.bind, pure, if_true]
  | @more a as cs items h hrest ih =>
    obtain ⟨after, hread, hskip⟩ := hitem.spaced h (.inl rfl) (items ++ close :: rest)
    cases fuel with
    | zero => cases hfuel
    | succ fuel =>
      rw [List.append_assoc, List.cons_append]
      simp only [itemsUpTo, hread, hskip, ih (Nat.le_of_succ_le_succ hfuel), bind, Option.bind, pure]

theorem Spaced.skipBlank (hopens : Opening spells) {a : α} {cs : List Char} (h : Spaced spells a cs) :
    ∃ c cs', Opens c ∧ Spaced spells a (c :: cs') ∧ ∀ rest, Json.skipBlank (cs ++ rest) = c :: (cs' ++ rest) := by
  cases h with
  | @around before cs after hbefore h hafter =>
    obtain ⟨c, cs, rfl, hc⟩ := hopens a cs h
    refine ⟨c, cs ++ after, hc, ?_, fun rest => ?_⟩
    · change Spaced spells a ([] ++ c :: cs ++ after)
      exact .around (fun _ h => nomatch h) h hafter
    rw [List.append_assoc, List.append_assoc, skipBlank_append hbefore, List.cons_append, List.append_assoc]
    rintro d ⟨rfl⟩
    exact hc.1

theorem SpellsItems.skipBlank (hopens : Opening spells) {as : List α} {cs : List Char}
    (h : SpellsItems spells as cs) :
    ∃ c cs', Opens c ∧ SpellsItems spells as (c :: cs') ∧
      ∀ rest, Json.skipBlank (cs ++ rest) = c :: (cs' ++ rest) := by
  cases h with
  | last h =>
    obtain ⟨c, cs', hc, h, hskip⟩ := h.skipBlank hopens
    exact ⟨c, cs', hc, .last h, hskip⟩
  | @more _ _ _ items h hrest =>
    obtain ⟨c, cs', hc, h, hskip⟩ := h.skipBlank hopens
    refine ⟨c, cs' ++ ',' :: items, hc, .more h hrest, fun rest => ?_⟩
    rw [List.append_assoc, List.append_assoc, hskip]

theorem SpellsItems.length_le (hopens : Opening spells) {as : List α} {cs : List Char}
    (h : SpellsItems spells as cs) : as.length ≤ cs.length := by
  induction h with
  | last h =>
    cases h with
    | around _ h _ =>
      obtain ⟨c, cs, rfl, -⟩ := hopens _ _ h
      simp only [List.length_append, List.length_cons, List.length_nil]
      omega
  | more h hrest ih =>
    simp only [List.length_append, List.length_cons]
    omega

theorem containerTail_of_spells (hitem : Takes item spells) (hopens : Opening spells)
    (hclose : close = ']' ∨ close = '\x7d') {as : List α} {cs : List Char} (h : SpellsItems spells as cs)
    (rest : List Char) :
    containerTail close item (cs ++ close :: rest) = some (as, rest) := by
  obtain ⟨c, cs', hc, hitems, hskip⟩ := h.skipBlank hopens
  have hne : c ≠ close := by
    rcases hclose with rfl | rfl
    · exact hc.2.1
    · exact hc.2.2
  have hlength := hitems.length_le hopens
  rw [containerTail, hskip]
  dsimp only
  rw [if_neg hne, ← List.cons_append]
  refine itemsUpTo_of_spells hitem (.inr hclose) (by rcases hclose with rfl | rfl <;> decide) hitems ?_ rest
  simp only [List.length_append, List.length_cons] at hlength ⊢
  omega

theorem containerTail_of_blank (hclose : Ends close) {cs : List Char} (h : Blank cs) (rest : List Char) :
    containerTail close item (cs ++ close :: rest) = some ([], rest) := by
  rw [containerTail, skipBlank_append h (by rintro c ⟨rfl⟩; exact hclose.isBlank)]
  dsimp only
  rw [if_pos rfl]

/-- One level of nesting is enough for the values of records. -/
theorem takes_value (depth : Nat) : Takes (value (depth + 1)) Spells := by
  intro v cs h before hbefore rest hrest
  cases h with
  | scalar h => exact takes_scalar (depth + 1) v cs h before hbefore rest hrest
  | @empty cs h =>
    rw [value, skipBlank_append hbefore (by rintro c ⟨rfl⟩; rfl)]
    simp [containerTail_of_blank (.inr (.inl rfl)) h]
  | @list vs cs h =>
    rw [value, skipBlank_append hbefore (by rintro c ⟨rfl⟩; rfl)]
    simp [containerTail_of_spells (takes_scalar depth) opening_scalar (.inl rfl) h]

/-! Spelling on one line -/

theorem SpellsScalar.printable {v : Value} {cs : List Char} (h : SpellsScalar v cs) : Printable cs := by
  cases h with
  | null => simp
  | @integer n _ =>
    intro c hc
    have hdigit := isDigit_of_mem_toDigits hc
    simp only [isDigit, Bool.and_eq_true, decide_eq_true_eq] at hdigit
    exact Char.le_trans (by decide) hdigit.1
  | text h => exact h.printable

theorem exists_spellsItems {as : List α} (hne : as ≠ []) (h : ∀ a ∈ as, ∃ cs, spells a cs ∧ Printable cs) :
    ∃ cs, SpellsItems spells as cs ∧ Printable cs := by
  have htight : ∀ a ∈ as, ∃ cs, Spaced spells a cs ∧ Printable cs := by
    intro a ha
    obtain ⟨cs, hspells, hcs⟩ := h a ha
    exact ⟨[] ++ cs ++ [], .around (List.forall_mem_nil _) hspells (List.forall_mem_nil _), by simpa using hcs⟩
  induction as with
  | nil => exact absurd rfl hne
  | cons a as ih =>
    obtain ⟨cs, ha, hcs⟩ := htight a List.mem_cons_self
    cases as with
    | nil => exact ⟨cs, .last ha, hcs⟩
    | cons b bs =>
      obtain ⟨rest, hrest, hprintable⟩ := ih (List.cons_ne_nil b bs) (fun a' ha' => h a' (List.mem_cons_of_mem _ ha'))
        fun a' ha' => htight a' (List.mem_cons_of_mem _ ha')
      exact ⟨cs ++ ',' :: rest, .more ha hrest, by simp [hcs, hprintable]⟩

theorem exists_spells_null : ∃ cs, Spells .null cs ∧ Printable cs :=
  ⟨_, .scalar .null, SpellsScalar.null.printable⟩

theorem exists_spells_integer {n : Nat} (h : n < UInt64.size) : ∃ cs, Spells (.integer n) cs ∧ Printable cs :=
  ⟨_, .scalar (.integer h), (SpellsScalar.integer h).printable⟩

theorem exists_spells_text (s : String) : ∃ cs, Spells (.text s) cs ∧ Printable cs :=
  ⟨_, .scalar (.text (spellsText_stringText s)), (spellsText_stringText s).printable⟩

theorem exists_spells_texts (path : List String) : ∃ cs, Spells (.list (path.map .text)) cs ∧ Printable cs := by
  rcases path with _ | ⟨name, path⟩
  · exact ⟨_, .empty (List.forall_mem_nil _), by simp⟩
  · have htext : ∀ v ∈ (name :: path).map Value.text, ∃ cs, SpellsScalar v cs ∧ Printable cs := by
      intro v hv
      obtain ⟨s, -, rfl⟩ := List.mem_map.1 hv
      exact ⟨_, .text (spellsText_stringText s), (spellsText_stringText s).printable⟩
    obtain ⟨cs, hcs, hprintable⟩ := exists_spellsItems (by simp) htext
    exact ⟨_, .list hcs, by simp [hprintable]⟩

end SchedLedger.Json
