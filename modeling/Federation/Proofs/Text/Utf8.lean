import Federation.Text.Utf8

/-!
# Written text is read back

Scanning the bytes of a string gives its characters, whatever follows
(`scan_encode_append`).  So the bytes of a string are decoded to it, and no two strings
have the same bytes (`encode_injective`).
-/

namespace Federation.Utf8

/-! ### Bytes that begin a character -/

theorem toNat_ofNat {n : Nat} (h : n < 256) :
  (UInt8.ofNat n).toNat = n
  := by
  rw [UInt8.toNat_ofNat']
  apply Nat.mod_eq_of_lt h

theorem lead_one {a : Nat} (h : a < 0x80) :
  lead (.ofNat a) = .char (Char.ofNat a)
  := by
  rw [lead, toNat_ofNat (by omega), if_pos h]

theorem lead_two {a : Nat} (h : 0xC2 ≤ a ∧ a < 0xE0) :
  lead (.ofNat a) = .pending ⟨1, 0x80, 0xBF, a % 32⟩
  := by
  rw [lead, toNat_ofNat (by omega), if_neg (by omega), if_neg (by omega), if_pos h.2]

/-- The first byte of three allows a second one, unless that makes the character too
short or a surrogate. -/
theorem lead_three {a b : Nat} (ha : 0xE0 ≤ a ∧ a < 0xF0) (hb : 0x80 ≤ b ∧ b ≤ 0xBF)
    (hshort : a = 0xE0 → 0xA0 ≤ b) (hsurrogate : a = 0xED → b ≤ 0x9F) :
  ∃ least greatest, lead (.ofNat a) = .pending ⟨2, least, greatest, a % 16⟩
    ∧ least ≤ b ∧ b ≤ greatest
  := by
  rw [lead, toNat_ofNat (by omega), if_neg (by omega), if_neg (by omega), if_neg (by omega)]
  by_cases hE0 : a = 0xE0
  · rw [if_pos hE0, hE0]
    exact ⟨_, _, rfl, hshort hE0, hb.2⟩
  · rw [if_neg hE0]
    by_cases hED : a = 0xED
    · rw [if_pos hED, hED]
      exact ⟨_, _, rfl, hb.1, hsurrogate hED⟩
    · rw [if_neg hED, if_pos ha.2]
      exact ⟨_, _, rfl, hb⟩

/-- The first byte of four allows a second one, unless that makes the character too
short or too large. -/
theorem lead_four {a b : Nat} (ha : 0xF0 ≤ a ∧ a < 0xF5) (hb : 0x80 ≤ b ∧ b ≤ 0xBF)
    (hshort : a = 0xF0 → 0x90 ≤ b) (hlarge : a = 0xF4 → b ≤ 0x8F) :
  ∃ least greatest, lead (.ofNat a) = .pending ⟨3, least, greatest, a % 8⟩
    ∧ least ≤ b ∧ b ≤ greatest
  := by
  rw [lead, toNat_ofNat (by omega), if_neg (by omega), if_neg (by omega), if_neg (by omega),
    if_neg (by omega), if_neg (by omega), if_neg (by omega)]
  by_cases hF0 : a = 0xF0
  · rw [if_pos hF0, hF0]
    exact ⟨_, _, rfl, hshort hF0, hb.2⟩
  · rw [if_neg hF0]
    by_cases hF4 : a = 0xF4
    · rw [if_neg (by omega), if_pos hF4, hF4]
      exact ⟨_, _, rfl, hb.1, hlarge hF4⟩
    · rw [if_pos (by omega)]
      exact ⟨_, _, rfl, hb⟩

/-! ### Scanning a character -/

theorem scan_char {b : UInt8} {c : Char} (h : lead b = .char c) (rest : Bytes) :
  scan none (b :: rest) = some c :: scan none rest
  := by simp only [scan, h]

theorem scan_pending {b : UInt8} {p : Pending} (h : lead b = .pending p) (rest : Bytes) :
  scan none (b :: rest) = scan (some p) rest
  := by simp only [scan, h]

/-- A byte that ends a character. -/
theorem scan_last {least greatest bits b : Nat} (h : least ≤ b ∧ b ≤ greatest) (hb : b < 256)
    (rest : Bytes) :
  scan (some ⟨1, least, greatest, bits⟩) (.ofNat b :: rest)
    = some (Char.ofNat (64 * bits + b % 64)) :: scan none rest
  := by
  rw [scan]
  simp only [toNat_ofNat hb, if_pos h, Nat.le_refl, if_true]

/-- A byte in the middle of a character. -/
theorem scan_next {need least greatest bits b : Nat} (h : least ≤ b ∧ b ≤ greatest)
    (hb : b < 256) (rest : Bytes) :
  scan (some ⟨need + 2, least, greatest, bits⟩) (.ofNat b :: rest)
    = scan (some ⟨need + 1, 0x80, 0xBF, 64 * bits + b % 64⟩) rest
  := by
  rw [scan]
  simp only [toNat_ofNat hb, if_pos h]
  rw [if_neg (by omega)]
  rfl

/-- The bytes of a character, by its code point. -/
theorem encodeChar_eq (c : Char) :
  String.utf8EncodeChar c
    = (let v := c.toNat
      if v ≤ 0x7F then [UInt8.ofNat v]
      else if v ≤ 0x7FF then [UInt8.ofNat (v / 64 % 32 + 192), UInt8.ofNat (v % 64 + 128)]
      else if v ≤ 0xFFFF then
        [UInt8.ofNat (v / 4096 % 16 + 224), UInt8.ofNat (v / 64 % 64 + 128),
          UInt8.ofNat (v % 64 + 128)]
      else
        [UInt8.ofNat (v / 262144 % 8 + 240), UInt8.ofNat (v / 4096 % 64 + 128),
          UInt8.ofNat (v / 64 % 64 + 128), UInt8.ofNat (v % 64 + 128)])
  := rfl

theorem scan_encodeChar_append (c : Char) (rest : Bytes) :
  scan none (String.utf8EncodeChar c ++ rest) = some c :: scan none rest
  := by
  have hvalid : c.toNat < 0xD800 ∨ (0xDFFF < c.toNat ∧ c.toNat < 0x110000) := c.valid
  have hc : c = Char.ofNat c.toNat := by simp
  rw [encodeChar_eq]
  generalize c.toNat = v at hvalid hc ⊢
  subst hc
  simp only
  split
  · simp only [List.cons_append, List.nil_append]
    rw [scan_char (lead_one (by omega))]
  · split
    · simp only [List.cons_append, List.nil_append]
      rw [scan_pending (lead_two (by omega)), scan_last (by omega) (by omega)]
      congr 3
      omega
    · split
      · obtain ⟨least, greatest, hlead, hsecond⟩ :=
          lead_three (a := v / 4096 % 16 + 224) (b := v / 64 % 64 + 128) (by omega) (by omega)
            (by omega) (by omega)
        simp only [List.cons_append, List.nil_append]
        rw [scan_pending hlead, scan_next hsecond (by omega), scan_last (by omega) (by omega)]
        congr 3
        omega
      · obtain ⟨least, greatest, hlead, hsecond⟩ :=
          lead_four (a := v / 262144 % 8 + 240) (b := v / 4096 % 64 + 128) (by omega) (by omega)
            (by omega) (by omega)
        simp only [List.cons_append, List.nil_append]
        rw [scan_pending hlead, scan_next hsecond (by omega), scan_next (by omega) (by omega),
          scan_last (by omega) (by omega)]
        congr 3
        omega

/-- A byte below 0x80 is a character of its own. -/
theorem toNat_of_mem_encodeChar {c : Char} {b : UInt8} (h : b ∈ String.utf8EncodeChar c) :
  b.toNat = c.toNat ∨ 0x80 ≤ b.toNat
  := by
  rw [encodeChar_eq] at h
  generalize c.toNat = v at h
  simp only at h
  split at h
  · obtain rfl := List.mem_singleton.mp h
    left
    rw [toNat_ofNat (by omega)]
  · right
    split at h
    · simp only [List.mem_cons, List.not_mem_nil, or_false] at h
      obtain rfl | rfl := h
      all_goals
        rw [toNat_ofNat (by omega)]
        omega
    · split at h
      · simp only [List.mem_cons, List.not_mem_nil, or_false] at h
        obtain rfl | rfl | rfl := h
        all_goals
          rw [toNat_ofNat (by omega)]
          omega
      · simp only [List.mem_cons, List.not_mem_nil, or_false] at h
        obtain rfl | rfl | rfl | rfl := h
        all_goals
          rw [toNat_ofNat (by omega)]
          omega

/-! ### Strings -/

theorem scan_encode_append (s : String) (rest : Bytes) :
  scan none (encode s ++ rest) = s.toList.map some ++ scan none rest
  := by
  rw [encode]
  induction s.toList with
  | nil => rfl
  | cons c cs ih =>
    rw [List.flatMap_cons, List.append_assoc, scan_encodeChar_append, ih]
    rfl

theorem scan_encode (s : String) :
  scan none (encode s) = s.toList.map some
  := by
  have h := scan_encode_append s []
  simpa [scan] using h

/-- Pieces that are all readable are the characters that they give. -/
theorem mapM_id_eq_some_iff {pieces : List (Option Char)} {cs : List Char} :
  pieces.mapM id = some cs ↔ pieces = cs.map some
  := by
  induction pieces generalizing cs with
  | nil => cases cs <;> simp
  | cons piece pieces ih =>
    rw [List.mapM_cons]
    simp only [id_eq, Option.bind_eq_bind, Option.bind_eq_some_iff, ih]
    constructor
    · rintro ⟨c, rfl, cs', rfl, heq⟩
      cases heq
      rfl
    · intro heq
      cases cs with
      | nil => cases heq
      | cons c cs =>
        obtain ⟨rfl, rfl⟩ := List.cons.inj heq
        exact ⟨c, rfl, cs, rfl, rfl⟩

/-- Bytes that are all readable are scanned as the characters of their text. -/
theorem scan_of_decode? {bytes : Bytes} {text : String} (h : decode? bytes = some text) :
  scan none bytes = text.toList.map some
  := by
  obtain ⟨cs, hcs, rfl⟩ := Option.map_eq_some_iff.mp h
  rw [String.toList_ofList]
  exact mapM_id_eq_some_iff.mp hcs

theorem decode?_encode (s : String) :
  decode? (encode s) = some s
  := by
  rw [decode?, scan_encode, mapM_id_eq_some_iff.mpr rfl, Option.map_some, String.ofList_toList]

theorem decodeLossy_encode (s : String) :
  decodeLossy (encode s) = s
  := by
  rw [decodeLossy, scan_encode, List.map_map]
  have hid : (fun o : Option Char => o.getD '\uFFFD') ∘ some = id := rfl
  rw [hid, List.map_id, String.ofList_toList]

theorem encode_injective {s t : String} (h : encode s = encode t) :
  s = t
  := by
  rw [← decodeLossy_encode s, h, decodeLossy_encode]

theorem encode_append (s t : String) :
  encode (s ++ t) = encode s ++ encode t
  := by rw [encode, String.toList_append, List.flatMap_append, encode, encode]

end Federation.Utf8
