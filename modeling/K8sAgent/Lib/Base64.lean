import K8sAgent.Lib.Encoding

set_option relaxedAutoImplicit false
set_option autoImplicit false

/-!
# Base64 and hexadecimal text, written and read back

The standard base64 text of a byte string, as the Go standard library writes it, and what the two
decoders of `K8sAgent.Lib.Encoding` do with texts of their own alphabet and of each other's. Every
hexadecimal digit is a base64 character, so a hexadecimal text is read by both decoders; the two
readings differ in length.

## Main definitions

* `Encoding.base64Encode` — the standard base64 text of a byte string, padded.

## Main results

* `Encoding.utf8_ofList_of_ascii` — the bytes of a text of ASCII characters are their codes.
* `Encoding.base64Decode_base64Encode` — the base64 text of a byte string is read back.
* `Encoding.length_base64Chars` — its length.
* `Encoding.hexDecode_of_toLower` — the hexadecimal text of a byte string is read back in either
  letter case.
* `Encoding.length_of_hexDecode_of_base64Decode` — where a text is read by both decoders, the base64
  reading is half as long again as the hexadecimal one.
-/

namespace Encoding

/-! ## The bytes of a text -/

/-- The bytes of a text, character by character. -/
lemma utf8_eq_flatMap (s : String) : utf8 s = s.toList.flatMap String.utf8EncodeChar := by
  rw [utf8, String.toUTF8, ← String.utf8Encode_toList, List.utf8Encode, List.data_toByteArray]

/-- A string is determined by its UTF-8 bytes. -/
lemma utf8_injective : Function.Injective utf8 := by
  intro s t h
  refine String.toByteArray_inj.mp (ByteArray.ext ?_)
  exact Array.toList_inj.mp h

/-- The byte of an ASCII character is its code. -/
lemma utf8EncodeChar_of_ascii {c : Char} (hc : c.toNat < 128) :
    String.utf8EncodeChar c = [UInt8.ofNat c.toNat] := by
  unfold String.utf8EncodeChar
  exact if_pos (Nat.le_of_lt_succ hc)

/-- The bytes of a text of ASCII characters are their codes. -/
theorem utf8_ofList_of_ascii {cs : List Char} (hcs : ∀ c ∈ cs, c.toNat < 128) :
    utf8 (String.ofList cs) = cs.map fun c => UInt8.ofNat c.toNat := by
  rw [utf8_eq_flatMap, String.toList_ofList]
  induction cs with
  | nil => rfl
  | cons c cs ih =>
    rw [List.flatMap_cons, List.map_cons, utf8EncodeChar_of_ascii (hcs c List.mem_cons_self),
      ih fun d hd => hcs d (List.mem_cons_of_mem c hd), List.singleton_append]

/-! ## Writing base64 -/

/-- The base64 character of six bits. -/
def base64Char (n : ℕ) : Char :=
  Char.ofNat <|
    if n < 26 then 65 + n
    else if n < 52 then 71 + n
    else if n < 62 then n - 4
    else if n = 62 then 43
    else 47

/-- The base64 characters of a byte string: four for every three bytes, the last quantum padded. -/
def base64Chars : Bytes → List Char
  | [] => []
  | [a] => [base64Char (a.toNat / 4), base64Char (a.toNat % 4 * 16), '=', '=']
  | [a, b] =>
    [base64Char (a.toNat / 4), base64Char (a.toNat % 4 * 16 + b.toNat / 16),
      base64Char (b.toNat % 16 * 4), '=']
  | a :: b :: c :: rest =>
    base64Char (a.toNat / 4) :: base64Char (a.toNat % 4 * 16 + b.toNat / 16) ::
      base64Char (b.toNat % 16 * 4 + c.toNat / 64) :: base64Char (c.toNat % 64) ::
        base64Chars rest

/-- The standard base64 text of a byte string. -/
def base64Encode (b : Bytes) : String := String.ofList (base64Chars b)

/-- Six bits are read back from their character, which is an ASCII one. -/
lemma base64Value_base64Char {n : ℕ} (hn : n < 64) :
    base64Value (UInt8.ofNat (base64Char n).toNat) = some n ∧ (base64Char n).toNat < 128 := by
  have key : ∀ n : Fin 64, base64Value (UInt8.ofNat (base64Char n).toNat) = some n.val ∧
      (base64Char n).toNat < 128 := by decide
  exact key ⟨n, hn⟩

/-- Four characters for every three bytes begun. -/
theorem length_base64Chars (b : Bytes) : (base64Chars b).length = 4 * ((b.length + 2) / 3) := by
  induction b using base64Chars.induct with
  | case1 => rfl
  | case2 a => simp [base64Chars]
  | case3 a b => simp [base64Chars]
  | case4 a b c rest ih =>
    simp only [base64Chars, List.length_cons, ih]
    omega

/-- A base64 text is made of characters of the alphabet and the padding character. -/
lemma mem_base64Chars {b : Bytes} {c : Char} (hc : c ∈ base64Chars b) :
    c = '=' ∨ ∃ n < 64, c = base64Char n := by
  induction b using base64Chars.induct with
  | case1 => cases hc
  | case2 a =>
    have ha := a.toNat_lt
    simp only [base64Chars, List.mem_cons, List.not_mem_nil, or_false] at hc
    rcases hc with rfl | rfl | rfl | rfl
    · exact .inr ⟨_, by omega, rfl⟩
    · exact .inr ⟨_, by omega, rfl⟩
    · exact .inl rfl
    · exact .inl rfl
  | case3 a b =>
    have ha := a.toNat_lt
    have hb := b.toNat_lt
    simp only [base64Chars, List.mem_cons, List.not_mem_nil, or_false] at hc
    rcases hc with rfl | rfl | rfl | rfl
    · exact .inr ⟨_, by omega, rfl⟩
    · exact .inr ⟨_, by omega, rfl⟩
    · exact .inr ⟨_, by omega, rfl⟩
    · exact .inl rfl
  | case4 a b d rest ih =>
    have ha := a.toNat_lt
    have hb := b.toNat_lt
    have hd := d.toNat_lt
    simp only [base64Chars, List.mem_cons] at hc
    rcases hc with rfl | rfl | rfl | rfl | hc
    · exact .inr ⟨_, by omega, rfl⟩
    · exact .inr ⟨_, by omega, rfl⟩
    · exact .inr ⟨_, by omega, rfl⟩
    · exact .inr ⟨_, by omega, rfl⟩
    · exact ih hc

/-- A base64 text is ASCII. -/
lemma ascii_of_mem_base64Chars {b : Bytes} {c : Char} (hc : c ∈ base64Chars b) :
    c.toNat < 128 := by
  rcases mem_base64Chars hc with rfl | ⟨n, hn, rfl⟩
  · decide
  · exact (base64Value_base64Char hn).2

/-- The bytes of a base64 text are the codes of its characters. -/
lemma utf8_base64Encode (b : Bytes) :
    utf8 (base64Encode b) = (base64Chars b).map fun c => UInt8.ofNat c.toNat :=
  utf8_ofList_of_ascii fun _ => ascii_of_mem_base64Chars

/-! ## Reading base64 back -/

/-- The loop takes one of the first three characters of a quantum. -/
lemma base64Loop_sextet {c : UInt8} {v : ℕ} (hv : base64Value c = some v) {q : List ℕ}
    (hq : q.length < 3) (rest : Bytes) (si : ℕ) (out : Bytes) :
    base64Loop (c :: rest) si q out = base64Loop rest (si + 1) (q ++ [v]) out := by
  rw [base64Loop.eq_def]
  dsimp only
  rw [hv]
  dsimp only
  split
  next => exact absurd hq (Nat.lt_irrefl 3)
  next => rfl

/-- The loop takes the fourth character of a quantum. -/
lemma base64Loop_fourth {c : UInt8} {v : ℕ} (hv : base64Value c = some v) (s₀ s₁ s₂ : ℕ)
    (rest : Bytes) (si : ℕ) (out : Bytes) :
    base64Loop (c :: rest) si [s₀, s₁, s₂] out = base64Loop rest (si + 1) []
      (out ++ [quantumByte s₀ s₁ s₂ v 0, quantumByte s₀ s₁ s₂ v 1, quantumByte s₀ s₁ s₂ v 2]) := by
  simp [base64Loop, hv]

/-- Four characters with the values `s₀`, `s₁`, `s₂`, `s₃` give the three bytes of their quantum,
and the loop goes on behind them. -/
lemma base64Loop_quantum {c₀ c₁ c₂ c₃ : UInt8} {s₀ s₁ s₂ s₃ : ℕ} (h₀ : base64Value c₀ = some s₀)
    (h₁ : base64Value c₁ = some s₁) (h₂ : base64Value c₂ = some s₂) (h₃ : base64Value c₃ = some s₃)
    (rest : Bytes) (si : ℕ) (out : Bytes) :
    base64Loop (c₀ :: c₁ :: c₂ :: c₃ :: rest) si [] out =
      base64Loop rest (si + 4) [] (out ++ [quantumByte s₀ s₁ s₂ s₃ 0, quantumByte s₀ s₁ s₂ s₃ 1,
        quantumByte s₀ s₁ s₂ s₃ 2]) := by
  rw [base64Loop_sextet h₀ (by simp), base64Loop_sextet h₁ (by simp),
    base64Loop_sextet h₂ (by simp)]
  exact base64Loop_fourth h₃ s₀ s₁ s₂ rest _ out

/-- The loop takes a quantum of two characters and the padding. -/
lemma base64Loop_pad_two {c₀ c₁ : UInt8} {s₀ s₁ : ℕ} (h₀ : base64Value c₀ = some s₀)
    (h₁ : base64Value c₁ = some s₁) (si : ℕ) (out : Bytes) :
    base64Loop [c₀, c₁, 61, 61] si [] out = .ok (out ++ [quantumByte s₀ s₁ 0 0 0]) := by
  have hpad : base64Value 61 = none := by decide
  simp [base64Loop, h₀, h₁, hpad, isNewline, skipNewlines, base64Finish]

/-- The loop takes a quantum of three characters and the padding. -/
lemma base64Loop_pad_one {c₀ c₁ c₂ : UInt8} {s₀ s₁ s₂ : ℕ} (h₀ : base64Value c₀ = some s₀)
    (h₁ : base64Value c₁ = some s₁) (h₂ : base64Value c₂ = some s₂) (si : ℕ) (out : Bytes) :
    base64Loop [c₀, c₁, c₂, 61] si [] out =
      .ok (out ++ [quantumByte s₀ s₁ s₂ 0 0, quantumByte s₀ s₁ s₂ 0 1]) := by
  have hpad : base64Value 61 = none := by decide
  simp [base64Loop, h₀, h₁, h₂, hpad, isNewline, skipNewlines, base64Finish]

/-- The byte number `i` of a quantum is `x`, if the 24 bits shifted right to it end in `x`. -/
lemma quantumByte_eq {s₀ s₁ s₂ s₃ : ℕ} {i : ℕ} {x : UInt8} (m : ℕ)
    (h : (s₀ * 2 ^ 18 + s₁ * 2 ^ 12 + s₂ * 2 ^ 6 + s₃) / 2 ^ (8 * (2 - i)) = x.toNat + m * 256) :
    quantumByte s₀ s₁ s₂ s₃ i = x := by
  have hx := x.toNat_lt
  apply UInt8.toNat_inj.mp
  rw [quantumByte, h, UInt8.toNat_ofNat']
  omega

/-- The decoder reads the characters of a byte string back, after anything already read.

**Proof sketch.** Induction along the encoder, one quantum at a time; in each quantum the sextets
put together give the bytes they were cut from. -/
lemma base64Loop_base64Chars (b : Bytes) : ∀ (si : ℕ) (out : Bytes),
    base64Loop ((base64Chars b).map fun c => UInt8.ofNat c.toNat) si [] out = .ok (out ++ b) := by
  induction b using base64Chars.induct with
  | case1 =>
    intro si out
    simp [base64Chars, base64Loop]
  | case2 a =>
    intro si out
    have ha := a.toNat_lt
    refine (base64Loop_pad_two (base64Value_base64Char (by omega)).1
      (base64Value_base64Char (by omega)).1 si out).trans ?_
    rw [quantumByte_eq (x := a) 0 (by omega)]
  | case3 a b =>
    intro si out
    have ha := a.toNat_lt
    have hb := b.toNat_lt
    refine (base64Loop_pad_one (base64Value_base64Char (by omega)).1
      (base64Value_base64Char (by omega)).1 (base64Value_base64Char (by omega)).1 si out).trans ?_
    rw [quantumByte_eq (x := a) 0 (by omega), quantumByte_eq (x := b) a.toNat (by omega)]
  | case4 a b c rest ih =>
    intro si out
    have ha := a.toNat_lt
    have hb := b.toNat_lt
    have hc := c.toNat_lt
    refine (base64Loop_quantum (base64Value_base64Char (by omega)).1
      (base64Value_base64Char (by omega)).1 (base64Value_base64Char (by omega)).1
      (base64Value_base64Char (by omega)).1 _ si out).trans ?_
    rw [ih, quantumByte_eq (x := a) 0 (by omega), quantumByte_eq (x := b) a.toNat (by omega),
      quantumByte_eq (x := c) (a.toNat * 256 + b.toNat) (by omega), List.append_assoc]
    rfl

/-- **The base64 text of a byte string is read back.** -/
theorem base64Decode_base64Encode (b : Bytes) : base64Decode (utf8 (base64Encode b)) = .ok b := by
  rw [utf8_base64Encode]
  exact base64Loop_base64Chars b 0 []

/-- A byte string is known from its base64 text. -/
lemma base64Encode_injective : Function.Injective base64Encode := by
  intro b₁ b₂ h
  have h₁ := base64Decode_base64Encode b₁
  rw [h, base64Decode_base64Encode] at h₁
  exact (Except.ok.inj h₁).symm

/-! ## Texts of the other alphabet -/

/-- The decoder makes three bytes of every four characters of the alphabet, where there is neither
padding nor a line break. -/
lemma length_of_base64Loop {src : Bytes} (hsrc : ∀ c ∈ src, (base64Value c).isSome) :
    ∀ {si : ℕ} {q : List ℕ} {out raw : Bytes}, q.length < 4 →
      base64Loop src si q out = .ok raw → 4 * raw.length = 4 * out.length +
        3 * (q.length + src.length) := by
  induction src with
  | nil =>
    intro si q out raw _ h
    rw [base64Loop] at h
    split_ifs at h with hq
    rw [← Except.ok.inj h, hq]
    rfl
  | cons c src ih =>
    intro si q out raw hlen h
    replace ih := @ih fun d hd => hsrc d (List.mem_cons_of_mem c hd)
    obtain ⟨v, hv⟩ := Option.isSome_iff_exists.mp (hsrc c List.mem_cons_self)
    rcases Nat.lt_or_ge q.length 3 with hq | hq
    · rw [base64Loop_sextet hv hq] at h
      have := ih (by rw [List.length_append, List.length_singleton]; omega) h
      simp only [List.length_append, List.length_cons, List.length_nil] at this ⊢
      omega
    · obtain ⟨s₀, s₁, s₂, rfl⟩ := List.length_eq_three.mp (show q.length = 3 by omega)
      rw [base64Loop_fourth hv] at h
      have := ih (by decide) h
      simp only [List.length_append, List.length_cons, List.length_nil] at this ⊢
      omega

/-- The bytes of a hexadecimal text are digits, two for each byte read. -/
lemma digits_of_hexDecode : ∀ {src raw : Bytes}, hexDecode src = some raw →
    src.length = 2 * raw.length ∧ ∀ c ∈ src, (hexValue c).isSome := by
  intro src
  induction src using hexDecode.induct with
  | case1 =>
    intro raw h
    rw [hexDecode] at h
    rw [← Option.some.inj h]
    exact ⟨rfl, fun _ hc => nomatch hc⟩
  | case2 _ =>
    intro raw h
    cases h
  | case3 a b rest x y out hout hy hx ih =>
    intro raw h
    rw [hexDecode, hx, hy, hout] at h
    obtain ⟨hlen, hdigits⟩ := ih hout
    rw [← Option.some.inj h]
    refine ⟨?_, fun c hc => ?_⟩
    · simp only [List.length_cons]
      omega
    · rcases List.mem_cons.mp hc with rfl | hc
      · exact Option.isSome_iff_exists.mpr ⟨x, hx⟩
      · rcases List.mem_cons.mp hc with rfl | hc
        · exact Option.isSome_iff_exists.mpr ⟨y, hy⟩
        · exact hdigits c hc
  | case4 a b rest hnone ih =>
    intro raw h
    rw [hexDecode] at h
    split at h
    next x y out hx hy hout => exact absurd hout (hnone x y out hx hy)
    next => cases h

/-- A hexadecimal digit is a base64 character. -/
lemma isSome_base64Value_of_hexValue {c : UInt8} (hc : (hexValue c).isSome) :
    (base64Value c).isSome := by
  have key : ∀ n : Fin 256, (hexValue (UInt8.ofNat n)).isSome →
      (base64Value (UInt8.ofNat n)).isSome := by decide +kernel
  have hofNat : UInt8.ofNat c.toNat = c := UInt8.ofNat_toNat
  rw [← hofNat] at hc ⊢
  exact key ⟨c.toNat, c.toNat_lt⟩ hc

/-- **Where a text is read by both decoders, the lengths differ**: the base64 reading is half as
long again as the hexadecimal one. -/
theorem length_of_hexDecode_of_base64Decode {src raw raw' : Bytes} (hhex : hexDecode src = some raw)
    (hbase : base64Decode src = .ok raw') : 2 * raw'.length = 3 * raw.length := by
  obtain ⟨hlen, hdigits⟩ := digits_of_hexDecode hhex
  have := length_of_base64Loop (fun c hc => isSome_base64Value_of_hexValue (hdigits c hc))
    (by decide) hbase
  simp only [List.length_nil, hlen] at this
  omega

/-! ## Reading hexadecimal text back -/

/-- A character whose lower-case form is the digit of four bits is read as these bits. -/
lemma hexValue_of_toLower {c : Char} {n : ℕ} (hn : n < 16) (hc : c.toLower = hexDigit n) :
    c.toNat < 128 ∧ hexValue (UInt8.ofNat c.toNat) = some n := by
  have key : ∀ c : Fin 128, ∀ n : Fin 16, (Char.ofNat c).toLower = hexDigit n →
      hexValue (UInt8.ofNat c) = some n.val := by decide +kernel
  have hdigit : ∀ n : Fin 16, (hexDigit n).toNat < 128 := by decide
  have hascii : c.toNat < 128 := by
    by_contra hge
    -- beyond ASCII there are no capitals to change
    have hlow : c.toLower = c := by
      refine dif_neg fun hcap => hge ?_
      have hle : c.toNat ≤ 90 := UInt32.le_iff_toNat_le.mp hcap.2
      omega
    rw [hlow] at hc
    exact hge (hc ▸ hdigit ⟨n, hn⟩)
  refine ⟨hascii, key ⟨c.toNat, hascii⟩ ⟨n, hn⟩ ?_⟩
  rw [Char.ofNat_toNat]
  exact hc

/-- The digits of a byte string, some of them capitals, are ASCII and are read back. -/
lemma hexDecode_map_of_toLower {cs : List Char} {b : Bytes}
    (hcs : cs.map Char.toLower = (hexEncode b).toList) :
    (∀ c ∈ cs, c.toNat < 128) ∧ hexDecode (cs.map fun c => UInt8.ofNat c.toNat) = some b := by
  rw [toList_hexEncode] at hcs
  induction b generalizing cs with
  | nil =>
    obtain rfl := List.map_eq_nil_iff.mp hcs
    exact ⟨by simp, rfl⟩
  | cons x b ih =>
    have hlt := x.toNat_lt
    rw [List.flatMap_cons, List.cons_append, List.cons_append, List.nil_append] at hcs
    obtain ⟨hi, cs, rfl, hhi, hcs⟩ := List.map_eq_cons_iff.mp hcs
    obtain ⟨lo, cs, rfl, hlo, hcs⟩ := List.map_eq_cons_iff.mp hcs
    obtain ⟨hascii, hdecode⟩ := ih hcs
    obtain ⟨hhiAscii, hhiValue⟩ := hexValue_of_toLower (by omega) hhi
    obtain ⟨hloAscii, hloValue⟩ := hexValue_of_toLower (by omega) hlo
    refine ⟨?_, ?_⟩
    · simp only [List.mem_cons, forall_eq_or_imp]
      exact ⟨hhiAscii, hloAscii, hascii⟩
    · rw [List.map_cons, List.map_cons, hexDecode, hhiValue, hloValue, hdecode]
      dsimp only
      rw [Nat.div_add_mod', UInt8.ofNat_toNat]

/-- **The hexadecimal text of a byte string is read back**, whichever letters are capitals. -/
theorem hexDecode_of_toLower {s : String} {b : Bytes}
    (hs : s.toList.map Char.toLower = (hexEncode b).toList) : hexDecode (utf8 s) = some b := by
  obtain ⟨hascii, hdecode⟩ := hexDecode_map_of_toLower hs
  rw [← String.ofList_toList (s := s), utf8_ofList_of_ascii hascii]
  exact hdecode

end Encoding
