import ClassScript.Text.Utf8

/-! # Reading and writing UTF-8

What is read as a character is written as the bytes that it was read from (`utf8EncodeChar_of_front`), so text
that is well-formed is written back as it was (`encode_decode`).  And what is written as a character is read as that
character (`exists_front_utf8EncodeChar`), so that every text is read back from its bytes (`decode_encode`).
-/

namespace ClassScript.Text.Utf8

variable {b : UInt8} {rest : List UInt8} {c : Char} {more : Nat}

/-! ## Characters by their size -/

theorem toNat_ofNat {n : Nat} (valid : n.isValidChar) : (Char.ofNat n).val.toNat = n := by
  rw [Char.ofNat, dif_pos valid]
  rfl

theorem eq_ofNat {n : Nat} (same : n % 256 = b.toNat) : UInt8.ofNat n = b :=
  UInt8.toNat_inj.1 (by rw [UInt8.toNat_ofNat']; exact same)

theorem encode_one {v : Nat} (low : v ≤ 0x7F) (first : v = b.toNat) :
    String.utf8EncodeChar (Char.ofNat v) = [b] := by
  have same : (Char.ofNat v).val.toNat = v := toNat_ofNat (.inl (by omega))
  simp only [String.utf8EncodeChar, same, low, ↓reduceIte, List.cons.injEq, and_true]
  exact eq_ofNat (by omega)

theorem encode_two {v : Nat} {b₁ : UInt8} (low : 0x7F < v) (high : v ≤ 0x7FF)
    (first : v / 64 + 0xC0 = b.toNat) (second : v % 64 + 0x80 = b₁.toNat) :
    String.utf8EncodeChar (Char.ofNat v) = [b, b₁] := by
  have same : (Char.ofNat v).val.toNat = v := toNat_ofNat (.inl (by omega))
  simp only [String.utf8EncodeChar, same, Nat.not_le.2 low, high, ↓reduceIte, List.cons.injEq, and_true]
  exact ⟨eq_ofNat (by omega), eq_ofNat (by omega)⟩

theorem encode_three {v : Nat} {b₁ b₂ : UInt8} (low : 0x7FF < v) (high : v ≤ 0xFFFF)
    (valid : v < 0xD800 ∨ 0xDFFF < v) (first : v / 4096 + 0xE0 = b.toNat)
    (second : v / 64 % 64 + 0x80 = b₁.toNat) (third : v % 64 + 0x80 = b₂.toNat) :
    String.utf8EncodeChar (Char.ofNat v) = [b, b₁, b₂] := by
  have same : (Char.ofNat v).val.toNat = v := toNat_ofNat (by unfold Nat.isValidChar; omega)
  have above : ¬ v ≤ 0x7F := by omega
  simp only [String.utf8EncodeChar, same, above, Nat.not_le.2 low, high, ↓reduceIte, List.cons.injEq,
    and_true]
  exact ⟨eq_ofNat (by omega), eq_ofNat (by omega), eq_ofNat (by omega)⟩

theorem encode_four {v : Nat} {b₁ b₂ b₃ : UInt8} (low : 0xFFFF < v) (high : v < 0x110000)
    (first : v / 262144 + 0xF0 = b.toNat) (second : v / 4096 % 64 + 0x80 = b₁.toNat)
    (third : v / 64 % 64 + 0x80 = b₂.toNat) (fourth : v % 64 + 0x80 = b₃.toNat) :
    String.utf8EncodeChar (Char.ofNat v) = [b, b₁, b₂, b₃] := by
  have same : (Char.ofNat v).val.toNat = v := toNat_ofNat (by unfold Nat.isValidChar; omega)
  have above : ¬ v ≤ 0x7F ∧ ¬ v ≤ 0x7FF := by omega
  simp only [String.utf8EncodeChar, same, above, Nat.not_le.2 low, ↓reduceIte, List.cons.injEq, and_true]
  exact ⟨eq_ofNat (by omega), eq_ofNat (by omega), eq_ofNat (by omega), eq_ofNat (by omega)⟩

/-! ## Fronts -/

inductive Announces (b : UInt8) (lead : Lead) : Prop
  | two (owed : lead.owed = 1) (bounds : 0xC2 ≤ b.toNat ∧ b.toNat ≤ 0xDF)
      (bits : lead.bits = b.toNat - 0xC0) (tail : 0x80 ≤ lead.low.toNat ∧ lead.high.toNat ≤ 0xBF)
  | three (owed : lead.owed = 2) (bounds : 0xE0 ≤ b.toNat ∧ b.toNat ≤ 0xEF)
      (bits : lead.bits = b.toNat - 0xE0) (tail : 0x80 ≤ lead.low.toNat ∧ lead.high.toNat ≤ 0xBF)
      (long : b.toNat = 0xE0 → 0xA0 ≤ lead.low.toNat) (valid : b.toNat = 0xED → lead.high.toNat ≤ 0x9F)
  | four (owed : lead.owed = 3) (bounds : 0xF0 ≤ b.toNat ∧ b.toNat ≤ 0xF4)
      (bits : lead.bits = b.toNat - 0xF0) (tail : 0x80 ≤ lead.low.toNat ∧ lead.high.toNat ≤ 0xBF)
      (long : b.toNat = 0xF0 → 0x90 ≤ lead.low.toNat) (valid : b.toNat = 0xF4 → lead.high.toNat ≤ 0x8F)

theorem announces_of_lead? {lead : Lead} (found : lead? b = some lead) : Announces b lead := by
  simp only [lead?, Bool.and_eq_true, decide_eq_true_eq, UInt8.le_iff_toNat_le, ← UInt8.toNat_inj,
    UInt8.reduceToNat] at found
  -- The ranges one after another; E0, ED, F0 and F4 have bounds of their own for the second byte.
  split at found
  case isTrue bounds =>
    cases found
    exact .two rfl bounds rfl (by simp)
  split at found
  case isTrue is =>
    cases found
    exact .three rfl (by omega) (by simp [is]) (by simp) (by simp) (by omega)
  split at found
  case isTrue is =>
    cases found
    exact .three rfl (by omega) (by simp [is]) (by simp) (by omega) (by simp)
  split at found
  case isTrue bounds =>
    cases found
    exact .three rfl (by omega) rfl (by simp) (by omega) (by omega)
  split at found
  case isTrue is =>
    cases found
    exact .four rfl (by omega) (by simp [is]) (by simp) (by simp) (by omega)
  split at found
  case isTrue bounds =>
    cases found
    exact .four rfl (by omega) rfl (by simp) (by omega) (by omega)
  split at found
  case isTrue is =>
    cases found
    exact .four rfl (by omega) (by simp [is]) (by simp) (by omega) (by simp)
  case isFalse => cases found

theorem tails_zero {taken bits : Nat} {low high : UInt8}
    (found : tails taken 0 low high bits rest = .character c more) : c = Char.ofNat bits ∧ more = taken := by
  cases found
  exact ⟨rfl, rfl⟩

theorem tails_succ {taken owed bits : Nat} {low high : UInt8}
    (found : tails taken (owed + 1) low high bits rest = .character c more) :
    ∃ t ts, rest = t :: ts ∧ low.toNat ≤ t.toNat ∧ t.toNat ≤ high.toNat ∧
      tails (taken + 1) owed 0x80 0xBF (bits * 64 + (t.toNat - 0x80)) ts = .character c more := by
  cases rest with
  | nil => cases found
  | cons t ts =>
    rw [tails] at found
    split at found
    case isTrue between =>
      simp only [Bool.and_eq_true, decide_eq_true_eq, UInt8.le_iff_toNat_le] at between
      exact ⟨t, ts, rfl, between.1, between.2, found⟩
    case isFalse => cases found

theorem tails_le {taken owed bits : Nat} {low high : UInt8}
    (found : tails taken owed low high bits rest = .character c more) : taken ≤ more := by
  induction owed generalizing taken low high bits rest with
  | zero => exact Nat.le_of_eq (tails_zero found).2.symm
  | succ owed ih =>
    obtain ⟨t, ts, -, -, -, found⟩ := tails_succ found
    exact Nat.le_of_succ_le (ih found)

/-- What is read as a character is written as the bytes it was read from. -/
theorem utf8EncodeChar_of_front (found : front b rest = .character c more) :
    String.utf8EncodeChar c = b :: rest.take more := by
  rw [front] at found
  split at found
  case isTrue ascii =>
    cases found
    have low : b.toNat < 0x80 := UInt8.lt_iff_toNat_lt.1 ascii
    exact encode_one (by omega) rfl
  case isFalse =>
    split at found
    case h_2 => cases found
    case h_1 lead isLead =>
      -- The tails are read one by one; their number and their bounds depend on the first byte.
      cases announces_of_lead? isLead with
      | two owed bounds bits tail =>
        rw [owed] at found
        obtain ⟨t₁, ts, rfl, low₁, high₁, found⟩ := tails_succ found
        obtain ⟨is, size⟩ := tails_zero found
        rw [is, size, show (t₁ :: ts).take (0 + 1) = [t₁] from rfl]
        exact encode_two (by omega) (by omega) (by omega) (by omega)
      | three owed bounds bits tail long valid =>
        rw [owed] at found
        obtain ⟨t₁, ts, rfl, low₁, high₁, found⟩ := tails_succ found
        obtain ⟨t₂, ts, rfl, low₂, high₂, found⟩ := tails_succ found
        obtain ⟨is, size⟩ := tails_zero found
        simp only [UInt8.reduceToNat] at low₂ high₂
        rw [is, size, show (t₁ :: t₂ :: ts).take (0 + 1 + 1) = [t₁, t₂] from rfl]
        exact encode_three (by omega) (by omega) (by omega) (by omega) (by omega) (by omega)
      | four owed bounds bits tail long valid =>
        rw [owed] at found
        obtain ⟨t₁, ts, rfl, low₁, high₁, found⟩ := tails_succ found
        obtain ⟨t₂, ts, rfl, low₂, high₂, found⟩ := tails_succ found
        obtain ⟨t₃, ts, rfl, low₃, high₃, found⟩ := tails_succ found
        obtain ⟨is, size⟩ := tails_zero found
        simp only [UInt8.reduceToNat] at low₂ high₂ low₃ high₃
        rw [is, size, show (t₁ :: t₂ :: t₃ :: ts).take (0 + 1 + 1 + 1) = [t₁, t₂, t₃] from rfl]
        exact encode_four (by omega) (by omega) (by omega) (by omega) (by omega) (by omega)

/-! ## Texts -/

inductive WellFormed : List UInt8 → Prop
  | nil : WellFormed []
  | cons {b : UInt8} {rest : List UInt8} {c : Char} {more : Nat} : front b rest = .character c more →
      WellFormed (rest.drop more) → WellFormed (b :: rest)

theorem encode_decode {bytes : List UInt8} (formed : WellFormed bytes) : encode (decode bytes) = bytes := by
  induction formed with
  | nil => simp [decode, encode]
  | cons found _ ih =>
    rw [decode, found]
    simp only [encode, List.flatMap_cons] at ih ⊢
    rw [utf8EncodeChar_of_front found, ih, List.cons_append, List.take_append_drop]

theorem wellFormed_of_ascii {bytes : List UInt8} (ascii : ∀ b ∈ bytes, b < 0x80) : WellFormed bytes := by
  induction bytes with
  | nil => exact .nil
  | cons b rest ih =>
    obtain ⟨first, others⟩ := List.forall_mem_cons.1 ascii
    exact .cons (if_pos first) (ih others)

theorem tails_take {taken owed bits k : Nat} {low high : UInt8}
    (found : tails taken owed low high bits rest = .character c more) (enough : more ≤ taken + k) :
    tails taken owed low high bits (rest.take k) = .character c more := by
  induction owed generalizing taken low high bits rest k with
  | zero => exact found
  | succ owed ih =>
    cases rest with
    | nil => cases found
    | cons t ts =>
      rw [tails] at found
      split at found
      case isFalse => cases found
      case isTrue between =>
        have atLeast : taken + 1 ≤ more := tails_le found
        obtain ⟨k, rfl⟩ : ∃ k', k = k' + 1 := ⟨k - 1, by omega⟩
        rw [List.take_succ_cons, tails, if_pos between]
        exact ih found (by omega)

theorem tails_append {taken owed bits : Nat} {low high : UInt8}
    (found : tails taken owed low high bits rest = .character c more) (after : List UInt8) :
    tails taken owed low high bits (rest ++ after) = .character c more := by
  induction owed generalizing taken low high bits rest with
  | zero => exact found
  | succ owed ih =>
    cases rest with
    | nil => cases found
    | cons t ts =>
      rw [tails] at found
      rw [List.cons_append, tails]
      by_cases between : (low ≤ t && t ≤ high) = true
      · rw [if_pos between] at found ⊢
        exact ih found
      · rw [if_neg between] at found
        cases found

/-- Behind the first byte a character is read from its tails and nothing else. -/
theorem front_of_tails {rest' : List UInt8} (found : front b rest = .character c more)
    (tails_kept : ∀ lead : Lead, tails 0 lead.owed lead.low lead.high lead.bits rest = .character c more →
      tails 0 lead.owed lead.low lead.high lead.bits rest' = .character c more) :
    front b rest' = .character c more := by
  by_cases ascii : b < 0x80
  · rw [front, if_pos ascii] at found ⊢
    exact found
  · rw [front, if_neg ascii] at found ⊢
    cases isLead : lead? b with
    | none =>
      simp only [isLead] at found
      cases found
    | some lead =>
      simp only [isLead] at found ⊢
      exact tails_kept lead found

/-- A character is read from its own bytes alone. -/
theorem front_take {k : Nat} (found : front b rest = .character c more) (enough : more ≤ k) :
    front b (rest.take k) = .character c more :=
  front_of_tails found fun _ found => tails_take found (by omega)

/-- A character is the same whatever follows it. -/
theorem front_append (found : front b rest = .character c more) (after : List UInt8) :
    front b (rest ++ after) = .character c more :=
  front_of_tails found fun _ found => tails_append found after

/-! ## Characters are read back -/

theorem tails_cons {taken owed bits : Nat} {low high t : UInt8} {ts : List UInt8}
    (above : low.toNat ≤ t.toNat) (below : t.toNat ≤ high.toNat) :
    tails taken (owed + 1) low high bits (t :: ts) =
      tails (taken + 1) owed 0x80 0xBF (bits * 64 + (t.toNat - 0x80)) ts := by
  rw [tails, if_pos]
  simp only [Bool.and_eq_true, decide_eq_true_eq, UInt8.le_iff_toNat_le]
  exact ⟨above, below⟩

theorem front_of_lead? {lead : Lead} (beyond : 0x80 ≤ b.toNat) (found : lead? b = some lead) :
    front b rest = tails 0 lead.owed lead.low lead.high lead.bits rest := by
  have notAscii : ¬ b < 0x80 := Nat.not_lt.2 beyond ∘ UInt8.lt_iff_toNat_lt.1
  simp only [front, if_neg notAscii, found]

theorem exists_lead_two (bounds : 0xC2 ≤ b.toNat ∧ b.toNat ≤ 0xDF) :
    ∃ lead, lead? b = some lead ∧ lead.owed = 1 ∧ lead.bits = b.toNat - 0xC0 ∧
      lead.low.toNat = 0x80 ∧ lead.high.toNat = 0xBF := by
  simp only [lead?, Bool.and_eq_true, decide_eq_true_eq, UInt8.le_iff_toNat_le, UInt8.reduceToNat]
  exact ⟨_, if_pos bounds, rfl, rfl, rfl, rfl⟩

theorem exists_lead_three (bounds : 0xE0 ≤ b.toNat ∧ b.toNat ≤ 0xEF) :
    ∃ lead, lead? b = some lead ∧ lead.owed = 2 ∧ lead.bits = b.toNat - 0xE0 ∧
      lead.low.toNat = (if b.toNat = 0xE0 then 0xA0 else 0x80) ∧
      lead.high.toNat = (if b.toNat = 0xED then 0x9F else 0xBF) := by
  simp only [lead?, Bool.and_eq_true, decide_eq_true_eq, UInt8.le_iff_toNat_le, ← UInt8.toNat_inj,
    UInt8.reduceToNat]
  rw [if_neg (by omega)]
  by_cases first : b.toNat = 0xE0
  · simp [first]
  by_cases last : b.toNat = 0xED
  · simp [last]
  · rw [if_neg first, if_neg last, if_pos (by omega), if_neg first, if_neg last]
    exact ⟨_, rfl, rfl, rfl, rfl, rfl⟩

theorem exists_lead_four (bounds : 0xF0 ≤ b.toNat ∧ b.toNat ≤ 0xF4) :
    ∃ lead, lead? b = some lead ∧ lead.owed = 3 ∧ lead.bits = b.toNat - 0xF0 ∧
      lead.low.toNat = (if b.toNat = 0xF0 then 0x90 else 0x80) ∧
      lead.high.toNat = (if b.toNat = 0xF4 then 0x8F else 0xBF) := by
  simp only [lead?, Bool.and_eq_true, decide_eq_true_eq, UInt8.le_iff_toNat_le, ← UInt8.toNat_inj,
    UInt8.reduceToNat]
  rw [if_neg (by omega), if_neg (by omega), if_neg (by omega), if_neg (by omega)]
  by_cases first : b.toNat = 0xF0
  · simp [first]
  by_cases last : b.toNat = 0xF4
  · simp [last]
  · rw [if_neg first, if_pos (by omega), if_neg first, if_neg last]
    exact ⟨_, rfl, rfl, rfl, rfl, rfl⟩

section Sizes

variable {v : Nat} {b₁ b₂ b₃ : UInt8}

theorem front_one (low : v ≤ 0x7F) (first : v = b.toNat) : front b rest = .character (Char.ofNat v) 0 := by
  have ascii : b < 0x80 := UInt8.lt_iff_toNat_lt.2 (first ▸ Nat.lt_succ_of_le low)
  rw [front, if_pos ascii, first]

theorem front_two (low : 0x7F < v) (high : v ≤ 0x7FF) (first : v / 64 + 0xC0 = b.toNat)
    (second : v % 64 + 0x80 = b₁.toNat) : front b (b₁ :: rest) = .character (Char.ofNat v) 1 := by
  obtain ⟨lead, found, owed, bits, least, most⟩ := exists_lead_two (b := b) (by omega)
  rw [front_of_lead? (by omega) found, owed, tails_cons (by omega) (by omega), tails, bits,
    show (b.toNat - 0xC0) * 64 + (b₁.toNat - 0x80) = v by omega]

theorem front_three (low : 0x7FF < v) (high : v ≤ 0xFFFF) (valid : v < 0xD800 ∨ 0xDFFF < v)
    (first : v / 4096 + 0xE0 = b.toNat) (second : v / 64 % 64 + 0x80 = b₁.toNat)
    (third : v % 64 + 0x80 = b₂.toNat) : front b (b₁ :: b₂ :: rest) = .character (Char.ofNat v) 2 := by
  obtain ⟨lead, found, owed, bits, least, most⟩ := exists_lead_three (b := b) (by omega)
  have tail : UInt8.toNat 0x80 = 0x80 ∧ UInt8.toNat 0xBF = 0xBF := ⟨rfl, rfl⟩
  rw [front_of_lead? (by omega) found, owed,
    tails_cons (by rw [least]; split <;> omega) (by rw [most]; split <;> omega),
    tails_cons (by omega) (by omega), tails, bits,
    show ((b.toNat - 0xE0) * 64 + (b₁.toNat - 0x80)) * 64 + (b₂.toNat - 0x80) = v by omega]

theorem front_four (low : 0xFFFF < v) (high : v < 0x110000) (first : v / 262144 + 0xF0 = b.toNat)
    (second : v / 4096 % 64 + 0x80 = b₁.toNat) (third : v / 64 % 64 + 0x80 = b₂.toNat)
    (fourth : v % 64 + 0x80 = b₃.toNat) :
    front b (b₁ :: b₂ :: b₃ :: rest) = .character (Char.ofNat v) 3 := by
  obtain ⟨lead, found, owed, bits, least, most⟩ := exists_lead_four (b := b) (by omega)
  have tail : UInt8.toNat 0x80 = 0x80 ∧ UInt8.toNat 0xBF = 0xBF := ⟨rfl, rfl⟩
  rw [front_of_lead? (by omega) found, owed,
    tails_cons (by rw [least]; split <;> omega) (by rw [most]; split <;> omega),
    tails_cons (by omega) (by omega), tails_cons (by omega) (by omega), tails, bits,
    show (((b.toNat - 0xF0) * 64 + (b₁.toNat - 0x80)) * 64 + (b₂.toNat - 0x80)) * 64 +
      (b₃.toNat - 0x80) = v by omega]

end Sizes

theorem exists_byte {n : Nat} (small : n < 256) : ∃ b : UInt8, n = b.toNat :=
  ⟨UInt8.ofNat n, by rw [UInt8.toNat_ofNat', Nat.mod_eq_of_lt small]⟩

/-- A character is read from the bytes it is written as, whatever follows. -/
theorem exists_front_utf8EncodeChar (c : Char) (after : List UInt8) :
    ∃ b more, String.utf8EncodeChar c = b :: more ∧ front b (more ++ after) = .character c more.length := by
  obtain ⟨v, valid, rfl⟩ : ∃ v, (v < 0xD800 ∨ 0xDFFF < v ∧ v < 0x110000) ∧ c = Char.ofNat v :=
    ⟨c.toNat, c.valid, (Char.ofNat_toNat c).symm⟩
  -- From one byte up: each size has the last byte of the size before.
  rcases Nat.lt_or_ge 0x7F v with beyond | low
  case inr =>
    obtain ⟨b, first⟩ := exists_byte (n := v) (by omega)
    exact ⟨b, [], encode_one low first, front_one low first⟩
  obtain ⟨last, isLast⟩ := exists_byte (n := v % 64 + 0x80) (by omega)
  rcases Nat.lt_or_ge 0x7FF v with beyond₂ | low
  case inr =>
    obtain ⟨b, first⟩ := exists_byte (n := v / 64 + 0xC0) (by omega)
    exact ⟨b, [last], encode_two beyond low first isLast, front_two beyond low first isLast⟩
  obtain ⟨third, isThird⟩ := exists_byte (n := v / 64 % 64 + 0x80) (by omega)
  rcases Nat.lt_or_ge 0xFFFF v with beyond₃ | low
  case inr =>
    obtain ⟨b, first⟩ := exists_byte (n := v / 4096 + 0xE0) (by omega)
    exact ⟨b, [third, last], encode_three beyond₂ low (by omega) first isThird isLast,
      front_three beyond₂ low (by omega) first isThird isLast⟩
  obtain ⟨second, isSecond⟩ := exists_byte (n := v / 4096 % 64 + 0x80) (by omega)
  obtain ⟨b, first⟩ := exists_byte (n := v / 262144 + 0xF0) (by omega)
  exact ⟨b, [second, third, last], encode_four beyond₃ (by omega) first isSecond isThird isLast,
    front_four beyond₃ (by omega) first isSecond isThird isLast⟩

theorem encode_cons (c : Char) (chars : List Char) :
    encode (c :: chars) = String.utf8EncodeChar c ++ encode chars := List.flatMap_cons

theorem decode_utf8EncodeChar (c : Char) (after : List UInt8) :
    decode (String.utf8EncodeChar c ++ after) = c :: decode after := by
  obtain ⟨b, more, written, found⟩ := exists_front_utf8EncodeChar c after
  rw [written, List.cons_append, decode, found]
  simp only [List.drop_left]

/-- What is written is read back. -/
theorem decode_encode (chars : List Char) : decode (encode chars) = chars := by
  induction chars with
  | nil => simp [encode, decode]
  | cons c chars ih => rw [encode_cons, decode_utf8EncodeChar, ih]

/-! ## Bytes of ASCII characters -/

/-- Characters beyond ASCII are written with bytes beyond ASCII. -/
theorem beyond_of_mem_utf8EncodeChar {c : Char} (beyond : 0x7F < c.val.toNat) :
    ∀ b ∈ String.utf8EncodeChar c, 0x7F < b.toNat := by
  simp only [String.utf8EncodeChar, Nat.not_le.2 beyond, ↓reduceIte]
  -- One goal for each number of bytes; what marks a byte as one of several is above 0x7F.
  split
  · simp only [List.forall_mem_cons, UInt8.toNat_ofNat']
    exact ⟨by omega, by omega, by simp⟩
  · split
    · simp only [List.forall_mem_cons, UInt8.toNat_ofNat']
      exact ⟨by omega, by omega, by omega, by simp⟩
    · simp only [List.forall_mem_cons, UInt8.toNat_ofNat']
      exact ⟨by omega, by omega, by omega, by omega, by simp⟩

theorem count_utf8EncodeChar {a : Char} (ascii : a.val.toNat ≤ 0x7F) (c : Char) :
    (String.utf8EncodeChar c).count (UInt8.ofNat a.toNat) = if c = a then 1 else 0 := by
  have small : (UInt8.ofNat a.toNat).toNat = a.val.toNat := by
    rw [UInt8.toNat_ofNat']
    exact Nat.mod_eq_of_lt (Nat.lt_of_le_of_lt ascii (by decide))
  by_cases low : c.val.toNat ≤ 0x7F
  · have own : String.utf8EncodeChar c = [UInt8.ofNat c.val.toNat] := by
      simp only [String.utf8EncodeChar, low, ↓reduceIte]
    have same : UInt8.ofNat c.val.toNat = UInt8.ofNat a.toNat ↔ c = a := by
      rw [← UInt8.toNat_inj, small, UInt8.toNat_ofNat', Nat.mod_eq_of_lt (Nat.lt_of_le_of_lt low (by decide)),
        UInt32.toNat_inj, ← Char.ext_iff]
    simp only [own, List.count_singleton, beq_iff_eq, same]
  · have absent : UInt8.ofNat a.toNat ∉ String.utf8EncodeChar c := by
      intro member
      have beyond := beyond_of_mem_utf8EncodeChar (Nat.lt_of_not_le low) _ member
      omega
    have other : c ≠ a := by
      rintro rfl
      exact low ascii
    rw [List.count_eq_zero.2 absent, if_neg other]

/-- An ASCII character stands in a text as often as its byte stands in the bytes of the text. -/
theorem count_encode {a : Char} (ascii : a.val.toNat ≤ 0x7F) (chars : List Char) :
    (encode chars).count (UInt8.ofNat a.toNat) = chars.count a := by
  induction chars with
  | nil => rfl
  | cons c chars ih =>
    rw [encode, List.flatMap_cons, List.count_append, ← encode, ih,
      count_utf8EncodeChar ascii, List.count_cons, Nat.add_comm]
    simp only [beq_iff_eq]

end ClassScript.Text.Utf8
