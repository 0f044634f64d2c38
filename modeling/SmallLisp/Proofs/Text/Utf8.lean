import SmallLisp.Text.Utf8

/-! Decoding undoes encoding, and only what has been encoded is decoded. The bytes of a character
are taken one at a time, the leading one and those that continue it, and are the character in the
end. A byte of the ASCII range is a character of its own. -/
namespace SmallLisp.Text.Utf8

section

variable {position n : Nat} {begun : Begun} {done : List Char} {rest : List UInt8}

theorem toNat_ofNat (small : n < 256) : (UInt8.ofNat n).toNat = n :=
  UInt8.toNat_ofNat_of_lt' small

theorem decodeFrom_ascii (ascii : n < 0x80) :
    decodeFrom position none done (UInt8.ofNat n :: rest) =
      decodeFrom (position + 1) none (Char.ofNat n :: done) rest := by
  have same := toNat_ofNat (by omega : n < 256)
  rw [decodeFrom]
  simp only [same]
  rw [if_pos ascii]

theorem decodeFrom_lead (high : 0x80 ≤ n) (small : n < 256)
    (leads : begin? position (UInt8.ofNat n) = some begun) :
    decodeFrom position none done (UInt8.ofNat n :: rest) =
      decodeFrom (position + 1) (some begun) done rest := by
  have same := toNat_ofNat small
  rw [decodeFrom]
  simp only [same]
  rw [if_neg (Nat.not_lt.mpr high)]
  simp only [leads]

/-- A byte that continues a character adds six bits. -/
def Begun.next (begun : Begun) (n : Nat) : Begun :=
  ⟨begun.first, begun.lead, begun.needs - 1, 0x80, 0xBF, begun.bits * 64 + (n - 0x80)⟩

theorem decodeFrom_next (low : begun.low ≤ n) (high : n ≤ begun.high) (small : n < 256)
    (more : 1 < begun.needs) :
    decodeFrom position (some begun) done (UInt8.ofNat n :: rest) =
      decodeFrom (position + 1) (some (begun.next n)) done rest := by
  have same := toNat_ofNat small
  rw [decodeFrom]
  simp only [same]
  rw [if_pos ⟨low, high⟩, if_neg (Nat.not_le.mpr more)]
  rfl

theorem decodeFrom_last (low : begun.low ≤ n) (high : n ≤ begun.high) (small : n < 256)
    (last : begun.needs = 1) :
    decodeFrom position (some begun) done (UInt8.ofNat n :: rest) =
      decodeFrom (position + 1) none (Char.ofNat (begun.next n).bits :: done) rest := by
  have same := toNat_ofNat small
  rw [decodeFrom]
  simp only [same]
  rw [if_pos ⟨low, high⟩, if_pos (Nat.le_of_eq last)]
  rfl

theorem begin?_two (low : 0xC2 ≤ n) (high : n ≤ 0xDF) :
    begin? position (UInt8.ofNat n) = some ⟨position, UInt8.ofNat n, 1, 0x80, 0xBF, n - 0xC0⟩ := by
  have same := toNat_ofNat (by omega : n < 256)
  simp only [begin?, same]
  rw [if_pos ⟨low, high⟩]

theorem begin?_three (low : 0xE0 ≤ n) (high : n ≤ 0xEF) :
    begin? position (UInt8.ofNat n) = some ⟨position, UInt8.ofNat n, 2,
      if n = 0xE0 then 0xA0 else 0x80, if n = 0xED then 0x9F else 0xBF, n - 0xE0⟩ := by
  have same := toNat_ofNat (by omega : n < 256)
  simp only [begin?, same]
  rw [if_neg (by omega)]
  by_cases first : n = 0xE0
  · simp [first]
  · by_cases last : n = 0xED
    · simp [last]
    · rw [if_neg first, if_neg last, if_pos (by omega), if_neg first, if_neg last]

theorem begin?_four (low : 0xF0 ≤ n) (high : n ≤ 0xF4) :
    begin? position (UInt8.ofNat n) = some ⟨position, UInt8.ofNat n, 3,
      if n = 0xF0 then 0x90 else 0x80, if n = 0xF4 then 0x8F else 0xBF, n - 0xF0⟩ := by
  have same := toNat_ofNat (by omega : n < 256)
  simp only [begin?, same]
  rw [if_neg (by omega), if_neg (by omega), if_neg (by omega), if_neg (by omega)]
  by_cases first : n = 0xF0
  · simp [first]
  · by_cases last : n = 0xF4
    · simp [last]
    · rw [if_neg first, if_neg last, if_pos (by omega), if_neg first, if_neg last]

end

/-- The bytes of a character are decoded as the character. -/
theorem decodeFrom_char (position : Nat) (done : List Char) (c : Char) (rest : List UInt8) :
    ∃ position', decodeFrom position none done (String.utf8EncodeChar c ++ rest) =
      decodeFrom position' none (c :: done) rest := by
  have back : Char.ofNat c.val.toNat = c := Char.ofNat_toNat c
  have scalar : c.val.toNat < 0xD800 ∨ 0xDFFF < c.val.toNat ∧ c.val.toNat < 0x110000 := c.valid
  simp only [String.utf8EncodeChar]
  generalize c.val.toNat = v at back scalar ⊢
  split
  · exact ⟨position + 1, by rw [List.singleton_append, decodeFrom_ascii (by omega), back]⟩
  · split
    · refine ⟨position + 2, ?_⟩
      have whole : (v / 64 % 32 + 192 - 0xC0) * 64 + (v % 64 + 128 - 0x80) = v := by omega
      simp only [List.cons_append, List.nil_append]
      rw [decodeFrom_lead (by omega) (by omega) (begin?_two (by omega) (by omega)),
        decodeFrom_last (by simp only; omega) (by simp only; omega) (by omega) rfl]
      simp only [Begun.next, whole, back]
    · split
      · refine ⟨position + 3, ?_⟩
        have whole : ((v / 4096 % 16 + 224 - 0xE0) * 64 + (v / 64 % 64 + 128 - 0x80)) * 64 +
            (v % 64 + 128 - 0x80) = v := by omega
        simp only [List.cons_append, List.nil_append]
        rw [decodeFrom_lead (by omega) (by omega) (begin?_three (by omega) (by omega)),
          decodeFrom_next (by simp only; split <;> omega) (by simp only; split <;> omega) (by omega)
            (by simp only; omega),
          decodeFrom_last (by simp only [Begun.next]; omega) (by simp only [Begun.next]; omega)
            (by omega) rfl]
        simp only [Begun.next, whole, back]
      · refine ⟨position + 4, ?_⟩
        have whole : (((v / 262144 % 8 + 240 - 0xF0) * 64 + (v / 4096 % 64 + 128 - 0x80)) * 64 +
            (v / 64 % 64 + 128 - 0x80)) * 64 + (v % 64 + 128 - 0x80) = v := by omega
        simp only [List.cons_append, List.nil_append]
        rw [decodeFrom_lead (by omega) (by omega) (begin?_four (by omega) (by omega)),
          decodeFrom_next (by simp only; split <;> omega) (by simp only; split <;> omega) (by omega)
            (by simp only; omega),
          decodeFrom_next (by simp only [Begun.next]; omega) (by simp only [Begun.next]; omega)
            (by omega) (by simp only [Begun.next]; omega),
          decodeFrom_last (by simp only [Begun.next]; omega) (by simp only [Begun.next]; omega)
            (by omega) rfl]
        simp only [Begun.next, whole, back]

theorem decodeFrom_encode (position : Nat) (done text : List Char) :
    decodeFrom position none done (text.flatMap String.utf8EncodeChar) =
      .ok (done.reverse ++ text) := by
  induction text generalizing position done with
  | nil => simp [decodeFrom]
  | cons c text ih =>
    obtain ⟨position', decoded⟩ := decodeFrom_char position done c
      (text.flatMap String.utf8EncodeChar)
    rw [List.flatMap_cons, decoded, ih]
    simp

/-- Decoding undoes encoding. -/
theorem decode_encode (text : String) : decode (encode text) = .ok text := by
  rw [decode, encode, decodeFrom_encode]
  simp [Except.map]

section

variable {position n a : Nat} {begun : Begun} {done chars : List Char} {bytes : List UInt8}

theorem exists_ofNat (byte : UInt8) : ∃ n < 256, byte = UInt8.ofNat n :=
  ⟨byte.toNat, byte.toNat_lt, by simp⟩

/-- A character that has begun goes on with a byte between its bounds. -/
theorem byte_of_begun (decoded : decodeFrom position (some begun) done bytes = .ok chars) :
    ∃ n rest, bytes = UInt8.ofNat n :: rest ∧ n < 256 ∧ begun.low ≤ n ∧ n ≤ begun.high := by
  cases bytes with
  | nil => cases decoded
  | cons byte rest =>
    obtain ⟨n, small, rfl⟩ := exists_ofNat byte
    by_cases within : begun.low ≤ n ∧ n ≤ begun.high
    · exact ⟨n, rest, rfl, small, within⟩
    · rw [decodeFrom, toNat_ofNat small, if_neg within] at decoded
      cases decoded

theorem next_of_begun (decoded : decodeFrom position (some begun) done bytes = .ok chars)
    (more : 1 < begun.needs) :
    ∃ n rest, bytes = UInt8.ofNat n :: rest ∧ begun.low ≤ n ∧ n ≤ begun.high ∧
      decodeFrom (position + 1) (some (begun.next n)) done rest = .ok chars := by
  obtain ⟨n, rest, rfl, small, low, high⟩ := byte_of_begun decoded
  rw [decodeFrom_next low high small more] at decoded
  exact ⟨n, rest, rfl, low, high, decoded⟩

theorem last_of_begun (decoded : decodeFrom position (some begun) done bytes = .ok chars)
    (last : begun.needs = 1) :
    ∃ n rest, bytes = UInt8.ofNat n :: rest ∧ begun.low ≤ n ∧ n ≤ begun.high ∧
      decodeFrom (position + 1) none (Char.ofNat (begun.next n).bits :: done) rest = .ok chars := by
  obtain ⟨n, rest, rfl, small, low, high⟩ := byte_of_begun decoded
  rw [decodeFrom_last low high small last] at decoded
  exact ⟨n, rest, rfl, low, high, decoded⟩

theorem begin?_bounds (small : n < 256) (leads : begin? position (UInt8.ofNat n) = some begun) :
    0xC2 ≤ n ∧ n ≤ 0xF4 := by
  refine Decidable.byContradiction fun outside => ?_
  simp only [begin?, toNat_ofNat small] at leads
  rw [if_neg (by omega), if_neg (by omega), if_neg (by omega), if_neg (by omega),
    if_neg (by omega), if_neg (by omega), if_neg (by omega)] at leads
  cases leads

theorem toNat_val_ofNat (scalar : n < 0xD800 ∨ 0xDFFF < n ∧ n < 0x110000) :
    (Char.ofNat n).val.toNat = n := by
  rw [Char.ofNat, dif_pos scalar]
  rfl

/-- The bytes begin with those of a character, and the others are decoded as what follows it. -/
def StartsWithChar (done chars : List Char) (bytes : List UInt8) : Prop :=
  ∃ c rest position, bytes = String.utf8EncodeChar c ++ rest ∧
    decodeFrom position none (c :: done) rest = .ok chars

theorem startsWithChar_ascii (ascii : a < 0x80)
    (decoded : decodeFrom position none done (UInt8.ofNat a :: bytes) = .ok chars) :
    StartsWithChar done chars (UInt8.ofNat a :: bytes) := by
  rw [decodeFrom_ascii ascii] at decoded
  refine ⟨_, bytes, _, ?_, decoded⟩
  rw [String.utf8EncodeChar, toNat_val_ofNat (by omega), if_pos (by omega)]
  rfl

variable (leads : begin? position (UInt8.ofNat a) = some begun)
  (decoded : decodeFrom (position + 1) (some begun) done bytes = .ok chars)

include leads decoded

theorem startsWithChar_two (low : 0xC2 ≤ a) (high : a ≤ 0xDF) :
    StartsWithChar done chars (UInt8.ofNat a :: bytes) := by
  obtain rfl := Option.some.inj (leads.symm.trans (begin?_two low high))
  obtain ⟨b, rest, rfl, above, below, decoded⟩ := last_of_begun decoded rfl
  simp only [Begun.next] at above below decoded
  generalize value : (a - 0xC0) * 64 + (b - 0x80) = v at decoded
  have first : v / 64 % 32 + 192 = a := by omega
  have second : v % 64 + 128 = b := by omega
  refine ⟨_, rest, _, ?_, decoded⟩
  rw [String.utf8EncodeChar, toNat_val_ofNat (by omega), if_neg (by omega), if_pos (by omega), first,
    second]
  rfl

theorem startsWithChar_three (low : 0xE0 ≤ a) (high : a ≤ 0xEF) :
    StartsWithChar done chars (UInt8.ofNat a :: bytes) := by
  obtain rfl := Option.some.inj (leads.symm.trans (begin?_three low high))
  obtain ⟨b, bytes, rfl, above, below, decoded⟩ := next_of_begun decoded (by simp)
  obtain ⟨c, rest, rfl, above', below', decoded⟩ := last_of_begun decoded rfl
  simp only [Begun.next] at above below above' below' decoded
  -- the bounds rule out overlong forms and surrogates
  have wide : 0x80 ≤ b ∧ (a = 0xE0 → 0xA0 ≤ b) := by split at above <;> omega
  have scalar : b ≤ 0xBF ∧ (a = 0xED → b ≤ 0x9F) := by split at below <;> omega
  generalize value : ((a - 0xE0) * 64 + (b - 0x80)) * 64 + (c - 0x80) = v at decoded
  have first : v / 4096 % 16 + 224 = a := by omega
  have second : v / 64 % 64 + 128 = b := by omega
  have third : v % 64 + 128 = c := by omega
  refine ⟨_, rest, _, ?_, decoded⟩
  rw [String.utf8EncodeChar, toNat_val_ofNat (by omega), if_neg (by omega), if_neg (by omega),
    if_pos (by omega), first, second, third]
  rfl

theorem startsWithChar_four (low : 0xF0 ≤ a) (high : a ≤ 0xF4) :
    StartsWithChar done chars (UInt8.ofNat a :: bytes) := by
  obtain rfl := Option.some.inj (leads.symm.trans (begin?_four low high))
  obtain ⟨b, bytes, rfl, above, below, decoded⟩ := next_of_begun decoded (by simp)
  obtain ⟨c, bytes, rfl, above', below', decoded⟩ := next_of_begun decoded (by simp [Begun.next])
  obtain ⟨d, rest, rfl, above'', below'', decoded⟩ := last_of_begun decoded rfl
  simp only [Begun.next] at above below above' below' above'' below'' decoded
  -- the bounds rule out overlong forms and what is beyond the last plane
  have wide : 0x80 ≤ b ∧ (a = 0xF0 → 0x90 ≤ b) := by split at above <;> omega
  have scalar : b ≤ 0xBF ∧ (a = 0xF4 → b ≤ 0x8F) := by split at below <;> omega
  generalize value : (((a - 0xF0) * 64 + (b - 0x80)) * 64 + (c - 0x80)) * 64 + (d - 0x80) = v
    at decoded
  have first : v / 262144 % 8 + 240 = a := by omega
  have second : v / 4096 % 64 + 128 = b := by omega
  have third : v / 64 % 64 + 128 = c := by omega
  have fourth : v % 64 + 128 = d := by omega
  refine ⟨_, rest, _, ?_, decoded⟩
  rw [String.utf8EncodeChar, toNat_val_ofNat (by omega), if_neg (by omega), if_neg (by omega),
    if_neg (by omega), first, second, third, fourth]
  rfl

end

/-- What is decoded begins with the bytes of a character. -/
theorem startsWithChar_of_decodeFrom {position : Nat} {done chars : List Char} {byte : UInt8}
    {bytes : List UInt8} (decoded : decodeFrom position none done (byte :: bytes) = .ok chars) :
    StartsWithChar done chars (byte :: bytes) := by
  obtain ⟨a, small, rfl⟩ := exists_ofNat byte
  by_cases ascii : a < 0x80
  · exact startsWithChar_ascii ascii decoded
  · cases leads : begin? position (UInt8.ofNat a) with
    | none =>
      rw [decodeFrom, toNat_ofNat small, if_neg ascii, leads] at decoded
      cases decoded
    | some begun =>
      rw [decodeFrom_lead (by omega) small leads] at decoded
      obtain ⟨low, high⟩ := begin?_bounds small leads
      by_cases two : a ≤ 0xDF
      · exact startsWithChar_two leads decoded low two
      · by_cases three : a ≤ 0xEF
        · exact startsWithChar_three leads decoded (by omega) three
        · exact startsWithChar_four leads decoded (by omega) high

theorem encode_of_decodeFrom {position : Nat} {done chars : List Char} {bytes : List UInt8}
    (decoded : decodeFrom position none done bytes = .ok chars) :
    ∃ text, chars = done.reverse ++ text ∧ bytes = text.flatMap String.utf8EncodeChar := by
  induction length : bytes.length using Nat.strongRecOn generalizing position done bytes with
  | ind n ih =>
    cases bytes with
    | nil => exact ⟨[], by rw [List.append_nil]; exact (Except.ok.inj decoded).symm, rfl⟩
    | cons byte more =>
      obtain ⟨c, rest, position', same, decoded⟩ := startsWithChar_of_decodeFrom decoded
      have shorter : rest.length < n := by
        have first := String.length_utf8EncodeChar c
        have size := c.utf8Size_pos
        rw [← length, same, List.length_append]
        omega
      obtain ⟨text, whole, rfl⟩ := ih rest.length shorter decoded rfl
      refine ⟨c :: text, ?_, ?_⟩
      · rw [whole, List.reverse_cons, List.append_assoc, List.singleton_append]
      · rw [same, List.flatMap_cons]

/-- Just the bytes of a text are decoded, and as that text. -/
theorem decode_eq_ok_iff {bytes : List UInt8} {text : String} :
    decode bytes = .ok text ↔ bytes = encode text := by
  constructor
  · intro decoded
    rw [decode] at decoded
    cases found : decodeFrom 0 none [] bytes with
    | error fault =>
      rw [found] at decoded
      cases decoded
    | ok chars =>
      rw [found] at decoded
      obtain rfl : String.ofList chars = text := Except.ok.inj decoded
      obtain ⟨text, rfl, rfl⟩ := encode_of_decodeFrom found
      simp [encode]
  · rintro rfl
    exact decode_encode text

/-- A byte of the ASCII range is a character of its own. -/
theorem eq_of_mem_encodeChar {c : Char} {byte : UInt8} (member : byte ∈ String.utf8EncodeChar c)
    (ascii : byte.toNat < 0x80) : c.toNat = byte.toNat := by
  change c.val.toNat = byte.toNat
  have high {n : Nat} (small : n < 256) (large : 0x80 ≤ n) : byte ≠ UInt8.ofNat n := by
    rintro rfl
    rw [toNat_ofNat small] at ascii
    omega
  simp only [String.utf8EncodeChar] at member
  generalize c.val.toNat = v at member ⊢
  split at member
  · rw [List.mem_singleton.mp member, toNat_ofNat (by omega)]
  · -- the bytes of a longer character are all above that range
    split at member
    · simp only [List.mem_cons, List.not_mem_nil, or_false] at member
      rcases member with same | same <;> exact absurd same (high (by omega) (by omega))
    · split at member
      · simp only [List.mem_cons, List.not_mem_nil, or_false] at member
        rcases member with same | same | same <;> exact absurd same (high (by omega) (by omega))
      · simp only [List.mem_cons, List.not_mem_nil, or_false] at member
        rcases member with same | same | same | same <;>
          exact absurd same (high (by omega) (by omega))

end SmallLisp.Text.Utf8
