import StyleSieve.Text.Utf8

/-!
# Texts as bytes and back

* `start_two`, `start_three`, `start_four`: what a byte begins that leads a character of so many
  bytes.
* `piecesFrom_encodeChar`: the bytes of a character are read as this character, and what follows
  them is read by itself.
* `decode_encodeChars`, `decode_encode`: every text is read back from its bytes.
-/

namespace StyleSieve.Utf8

variable {b : UInt8} {p : Pending} {c : Char} {n : Nat} {rest : Bytes}

/-! ## Single bytes -/

theorem start_one (h : b.toNat < 0x80) : start b = .inl (.char (Char.ofNat b.toNat)) := by
  simp [start, h]

theorem start_two (hLow : 0xC2 ≤ b.toNat) (hHigh : b.toNat < 0xE0) :
    start b = .inr ⟨1, 0x80, 0xBF, b.toNat - 0xC0, b, 1⟩ := by
  simp only [start]
  rw [if_neg (by omega), if_neg (by omega), if_pos hHigh]

theorem start_three (hLow : 0xE0 ≤ b.toNat) (hHigh : b.toNat < 0xF0) :
    start b = .inr ⟨2, if b.toNat == 0xE0 then 0xA0 else 0x80,
      if b.toNat == 0xED then 0x9F else 0xBF, b.toNat - 0xE0, b, 1⟩ := by
  simp only [start]
  rw [if_neg (by omega), if_neg (by omega), if_neg (by omega), if_pos hHigh]

theorem start_four (hLow : 0xF0 ≤ b.toNat) (hHigh : b.toNat < 0xF5) :
    start b = .inr ⟨3, if b.toNat == 0xF0 then 0x90 else 0x80,
      if b.toNat == 0xF4 then 0x8F else 0xBF, b.toNat - 0xF0, b, 1⟩ := by
  simp only [start]
  rw [if_neg (by omega), if_neg (by omega), if_neg (by omega), if_neg (by omega), if_pos hHigh]

/-! ## Bytes behind one another -/

theorem piecesFrom_start_char (h : start b = .inl (.char c)) :
    piecesFrom none (b :: rest) = .char c :: piecesFrom none rest := by
  rw [piecesFrom, h]
  rfl

theorem piecesFrom_start_pending (h : start b = .inr p) :
    piecesFrom none (b :: rest) = piecesFrom (some p) rest := by
  rw [piecesFrom, h]
  rfl

/-- A byte that fits leaves one less to come. -/
theorem piecesFrom_more (hOwed : 1 < p.owed) (hFits : p.low ≤ b.toNat ∧ b.toNat ≤ p.high) :
    piecesFrom (some p) (b :: rest) =
      piecesFrom
        (some ⟨p.owed - 1, 0x80, 0xBF, 64 * p.code + (b.toNat - 0x80), p.first, p.width + 1⟩) rest := by
  rw [piecesFrom, if_pos (by simpa [Pending.fits] using hFits), Pending.advance,
    if_neg (Nat.not_le.mpr hOwed)]
  rfl

/-- The last byte that a character lacks completes it. -/
theorem piecesFrom_last (hOwed : p.owed = 1) (hFits : p.low ≤ b.toNat ∧ b.toNat ≤ p.high) :
    piecesFrom (some p) (b :: rest) =
      .char (Char.ofNat (64 * p.code + (b.toNat - 0x80))) :: piecesFrom none rest := by
  rw [piecesFrom, if_pos (by simpa [Pending.fits] using hFits), Pending.advance,
    if_pos (Nat.le_of_eq hOwed)]
  rfl

/-! ## Characters -/

theorem toNat_lead (h : n < 256) : (UInt8.ofNat n).toNat = n := by
  rw [UInt8.toNat_ofNat', Nat.mod_eq_of_lt h]

theorem toNat_tail (n : Nat) : (UInt8.ofNat (n % 64 + 0x80)).toNat = n % 64 + 0x80 :=
  toNat_lead (by omega)

theorem piecesFrom_one (h : n ≤ 0x7F) :
    piecesFrom none (UInt8.ofNat n :: rest) = .char (Char.ofNat n) :: piecesFrom none rest := by
  have hLead := toNat_lead (show n < 256 by omega)
  rw [piecesFrom_start_char (start_one (by omega)), hLead]

theorem piecesFrom_two (hLow : 0x7F < n) (hHigh : n ≤ 0x7FF) :
    piecesFrom none
        (UInt8.ofNat (n / 64 % 32 + 0xC0) :: UInt8.ofNat (n % 64 + 0x80) :: rest) =
      .char (Char.ofNat n) :: piecesFrom none rest := by
  have hLead := toNat_lead (show n / 64 % 32 + 0xC0 < 256 by omega)
  have hCode : 64 * (n / 64 % 32 + 0xC0 - 0xC0) + (n % 64 + 0x80 - 0x80) = n := by omega
  rw [piecesFrom_start_pending (start_two (by omega) (by omega)),
    piecesFrom_last rfl (by simp only [toNat_tail]; omega)]
  simp only [toNat_tail, hLead, hCode]

theorem piecesFrom_three (hLow : 0x7FF < n) (hHigh : n ≤ 0xFFFF)
    (hValid : n < 0xD800 ∨ 0xDFFF < n) :
    piecesFrom none
        (UInt8.ofNat (n / 4096 % 16 + 0xE0) :: UInt8.ofNat (n / 64 % 64 + 0x80) ::
          UInt8.ofNat (n % 64 + 0x80) :: rest) =
      .char (Char.ofNat n) :: piecesFrom none rest := by
  have hLead := toNat_lead (show n / 4096 % 16 + 0xE0 < 256 by omega)
  have hCode : 64 * (64 * (n / 4096 % 16 + 0xE0 - 0xE0) + (n / 64 % 64 + 0x80 - 0x80)) +
      (n % 64 + 0x80 - 0x80) = n := by omega
  -- The second byte has narrower bounds where the first one alone would allow a code that is
  -- too small or a surrogate.
  rw [piecesFrom_start_pending (start_three (by omega) (by omega)),
    piecesFrom_more (by simp)
      (by simp only [toNat_tail, hLead, beq_iff_eq]; split <;> split <;> omega),
    piecesFrom_last rfl (by simp only [toNat_tail]; omega)]
  simp only [toNat_tail, hLead, hCode]

theorem piecesFrom_four (hLow : 0xFFFF < n) (hHigh : n < 0x110000) :
    piecesFrom none
        (UInt8.ofNat (n / 262144 % 8 + 0xF0) :: UInt8.ofNat (n / 4096 % 64 + 0x80) ::
          UInt8.ofNat (n / 64 % 64 + 0x80) :: UInt8.ofNat (n % 64 + 0x80) :: rest) =
      .char (Char.ofNat n) :: piecesFrom none rest := by
  have hLead := toNat_lead (show n / 262144 % 8 + 0xF0 < 256 by omega)
  have hCode : 64 * (64 * (64 * (n / 262144 % 8 + 0xF0 - 0xF0) + (n / 4096 % 64 + 0x80 - 0x80)) +
      (n / 64 % 64 + 0x80 - 0x80)) + (n % 64 + 0x80 - 0x80) = n := by omega
  rw [piecesFrom_start_pending (start_four (by omega) (by omega)),
    piecesFrom_more (by simp)
      (by simp only [toNat_tail, hLead, beq_iff_eq]; split <;> split <;> omega),
    piecesFrom_more (by simp) (by simp only [toNat_tail]; omega),
    piecesFrom_last rfl (by simp only [toNat_tail]; omega)]
  simp only [toNat_tail, hLead, hCode]

theorem utf8EncodeChar_eq (c : Char) :
    String.utf8EncodeChar c =
      if c.toNat ≤ 0x7F then [UInt8.ofNat c.toNat]
      else if c.toNat ≤ 0x7FF then
        [UInt8.ofNat (c.toNat / 64 % 32 + 0xC0), UInt8.ofNat (c.toNat % 64 + 0x80)]
      else if c.toNat ≤ 0xFFFF then
        [UInt8.ofNat (c.toNat / 4096 % 16 + 0xE0), UInt8.ofNat (c.toNat / 64 % 64 + 0x80),
          UInt8.ofNat (c.toNat % 64 + 0x80)]
      else
        [UInt8.ofNat (c.toNat / 262144 % 8 + 0xF0), UInt8.ofNat (c.toNat / 4096 % 64 + 0x80),
          UInt8.ofNat (c.toNat / 64 % 64 + 0x80), UInt8.ofNat (c.toNat % 64 + 0x80)] :=
  rfl

/-- The bytes of a character are read as this character, whatever follows them. -/
theorem piecesFrom_encodeChar (c : Char) (rest : Bytes) :
    piecesFrom none (String.utf8EncodeChar c ++ rest) = .char c :: piecesFrom none rest := by
  have hValid : c.toNat < 0xD800 ∨ 0xDFFF < c.toNat ∧ c.toNat < 0x110000 := c.valid
  have hChar := Char.ofNat_toNat c
  rw [utf8EncodeChar_eq]
  generalize c.toNat = n at hValid hChar
  subst hChar
  split
  · exact piecesFrom_one (by omega)
  split
  · exact piecesFrom_two (by omega) (by omega)
  split
  · exact piecesFrom_three (by omega) (by omega) (by omega)
  · exact piecesFrom_four (by omega) (by omega)

/-! ## Texts -/

/-- The bytes of characters behind one another. -/
def encodeChars (cs : List Char) : Bytes := cs.flatMap String.utf8EncodeChar

@[simp] theorem encode_ofList (cs : List Char) : encode (String.ofList cs) = encodeChars cs := by
  rw [encode, String.toList_ofList, encodeChars]

theorem encodeChars_append (cs ds : List Char) :
    encodeChars (cs ++ ds) = encodeChars cs ++ encodeChars ds :=
  List.flatMap_append

theorem piecesFrom_encodeChars (cs : List Char) :
    piecesFrom none (encodeChars cs) = cs.map .char := by
  induction cs with
  | nil => rfl
  | cons c cs ih =>
    rw [encodeChars, List.flatMap_cons, piecesFrom_encodeChar, ← encodeChars, ih, List.map_cons]

theorem charsFrom_chars (cs : List Char) (offset : Nat) :
    charsFrom offset (cs.map .char) = .ok cs := by
  induction cs generalizing offset with
  | nil => rfl
  | cons c cs ih =>
    rw [List.map_cons, charsFrom, ih]
    rfl

theorem decode_encodeChars (cs : List Char) : decode (encodeChars cs) = .ok (String.ofList cs) := by
  rw [decode, pieces, piecesFrom_encodeChars, charsFrom_chars]
  rfl

/-- Every text is read back from its bytes. -/
theorem decode_encode (s : String) : decode (encode s) = .ok s := by
  rw [encode, ← encodeChars, decode_encodeChars, String.ofList_toList]

end StyleSieve.Utf8
