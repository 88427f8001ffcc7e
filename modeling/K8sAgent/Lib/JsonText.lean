import Mathlib.Data.List.Infix
import Mathlib.Tactic.NormNum
import K8sAgent.Lib.Base64

set_option relaxedAutoImplicit false
set_option autoImplicit false

/-!
# JSON texts of objects

Compact JSON texts as the Go standard library writes them, for objects made of strings, integers and
objects. Texts are lists of characters; what is written to a file or sent are their UTF-8 bytes.

## Main definitions

* `JsonText.quoted`, `number`, `object` — the texts.
* `JsonText.bytes` — the bytes of a text.
* `JsonText.quotedSize` — the size of a string in bytes.

## Main results

* `JsonText.quoted_append_inj` — a string is known from a text that begins with it.
* `JsonText.bytes_injective` — a text is known from its bytes.
* `JsonText.length_bytes_quoted`, `JsonText.length_bytes_object` — the sizes.
-/

namespace JsonText

open Encoding

/-- A JSON text, character by character. -/
abbrev Text := List Char

/-- The bytes of a text. -/
def bytes (t : Text) : Bytes := t.flatMap String.utf8EncodeChar

/-- The opening brace. -/
def openBrace : Char := '\x7b'
/-- The closing brace. -/
def closeBrace : Char := '\x7d'

/-! ## Writing -/

/-- The letter of a character that is escaped by two characters. -/
def shortEscape (c : Char) : Option Char :=
  if c = '"' ∨ c = '\\' then some c
  else if c = '\x08' then some 'b'
  else if c = '\x0c' then some 'f'
  else if c = '\n' then some 'n'
  else if c = '\r' then some 'r'
  else if c = '\t' then some 't'
  else none

/-- Control characters, the characters special to HTML and the two line separators are escaped by
their code. -/
def codeEscaped (c : Char) : Bool :=
  c.toNat < 0x20 || c ∈ ['<', '>', '&', '\u2028', '\u2029']

/-- One character of a string. -/
def escapeChar (c : Char) : Text :=
  match shortEscape c with
  | some x => ['\\', x]
  | none => if codeEscaped c then '\\' :: 'u' :: hexDigits c.toNat 4 else [c]

/-- A string. -/
def quoted (s : String) : Text := '"' :: (s.toList.flatMap escapeChar ++ ['"'])

/-- An integer. -/
def number (n : ℤ) : Text := (if n < 0 then ['-'] else []) ++ Nat.toDigits 10 n.natAbs

/-- A key with its value. -/
def member (m : String × Text) : Text := quoted m.1 ++ ':' :: m.2

/-- An object with at least one key. -/
def object (m : String × Text) (ms : List (String × Text)) : Text :=
  openBrace :: (member m ++ ms.flatMap (fun m => ',' :: member m) ++ [closeBrace])

/-! ## Strings are known from their texts -/

/-- A character is written as a short escape, as a code of four hexadecimal digits, or as it is. -/
lemma escapeChar_cases (c : Char) :
    (∃ x, shortEscape c = some x ∧ escapeChar c = ['\\', x]) ∨
    (shortEscape c = none ∧ codeEscaped c = true ∧
      escapeChar c = '\\' :: 'u' :: hexDigits c.toNat 4) ∨
    (shortEscape c = none ∧ codeEscaped c = false ∧ escapeChar c = [c]) := by
  unfold escapeChar
  cases hshort : shortEscape c with
  | some x => exact .inl ⟨x, rfl, rfl⟩
  | none =>
    cases hcode : codeEscaped c with
    | true => exact .inr (.inl ⟨rfl, rfl, rfl⟩)
    | false => exact .inr (.inr ⟨rfl, rfl, rfl⟩)

/-- The character that is escaped by a backslash and the given one. -/
def unescape (x : Char) : Char :=
  if x = 'b' then '\x08'
  else if x = 'f' then '\x0c'
  else if x = 'n' then '\n'
  else if x = 'r' then '\r'
  else if x = 't' then '\t'
  else x

/-- A character escaped by two is known from the second, which is a printable one and not `u`. -/
lemma unescape_of_shortEscape {c x : Char} (h : shortEscape c = some x) :
    unescape x = c ∧ x ≠ 'u' ∧ 32 ≤ x.toNat ∧ x.toNat < 128 := by
  unfold shortEscape at h
  split_ifs at h with h₁ h₂ h₃ h₄ h₅ h₆
  · obtain rfl := Option.some.inj h
    rcases h₁ with rfl | rfl <;> decide
  all_goals
    obtain rfl := Option.some.inj h
    subst c
    decide

/-- A character that is not escaped by two is neither the quotation mark nor the backslash. -/
lemma ne_of_shortEscape {c : Char} (h : shortEscape c = none) : c ≠ '"' ∧ c ≠ '\\' := by
  unfold shortEscape at h
  split_ifs at h with h₁
  exact not_or.mp h₁

/-- A character escaped by its code has a code of sixteen bits. -/
lemma toNat_lt_of_codeEscaped {c : Char} (h : codeEscaped c = true) : c.toNat < 16 ^ 4 := by
  unfold codeEscaped at h
  rw [Bool.or_eq_true, decide_eq_true_eq, decide_eq_true_eq] at h
  rcases h with h | h
  · omega
  · simp only [List.mem_cons, List.not_mem_nil, or_false] at h
    rcases h with rfl | rfl | rfl | rfl | rfl <;> decide

lemma length_hexDigits (n width : ℕ) : (hexDigits n width).length = width := by
  induction width generalizing n with
  | zero => rfl
  | succ width ih => rw [hexDigits, List.length_append, ih, List.length_singleton]

/-- A number is known from its hexadecimal digits, if there are enough of them. -/
lemma hexDigits_inj {m n width : ℕ} (hm : m < 16 ^ width) (hn : n < 16 ^ width)
    (h : hexDigits m width = hexDigits n width) : m = n := by
  induction width generalizing m n with
  | zero => omega
  | succ width ih =>
    rw [pow_succ] at hm hn
    rw [hexDigits, hexDigits] at h
    obtain ⟨hhigh, hlow⟩ := List.append_inj' h rfl
    have h₁ := ih (by omega) (by omega) hhigh
    have h₂ := hexDigit_inj (by omega) (by omega) (List.singleton_inj.mp hlow)
    omega

/-- A character is known from a text that begins with it.

**Proof sketch.** The three forms are told apart by the first two characters, and within each form
the character is known from what it is written as. -/
lemma escapeChar_append_inj {c d : Char} {r r' : Text}
    (h : escapeChar c ++ r = escapeChar d ++ r') : c = d ∧ r = r' := by
  rcases escapeChar_cases c with ⟨x, hc, hx⟩ | ⟨hc, hcode, hx⟩ | ⟨hc, -, hx⟩ <;>
    rcases escapeChar_cases d with ⟨y, hd, hy⟩ | ⟨hd, hcode', hy⟩ | ⟨hd, -, hy⟩ <;>
    rw [hx, hy] at h
  · obtain ⟨rfl, rfl⟩ : x = y ∧ r = r' := by simpa using h
    exact ⟨(unescape_of_shortEscape hc).1.symm.trans (unescape_of_shortEscape hd).1, rfl⟩
  · exact absurd (by simpa using h : x = 'u' ∧ _).1 (unescape_of_shortEscape hc).2.1
  · exact absurd (by simpa using h : '\\' = d ∧ _).1.symm (ne_of_shortEscape hd).2
  · exact absurd (by simpa using h : 'u' = y ∧ _).1.symm (unescape_of_shortEscape hd).2.1
  · have hdigits : hexDigits c.toNat 4 ++ r = hexDigits d.toNat 4 ++ r' := by simpa using h
    obtain ⟨hcode₁, hr⟩ := List.append_inj hdigits (by rw [length_hexDigits, length_hexDigits])
    exact ⟨Char.toNat_inj.mp (hexDigits_inj (toNat_lt_of_codeEscaped hcode)
      (toNat_lt_of_codeEscaped hcode') hcode₁), hr⟩
  · exact absurd (by simpa using h : '\\' = d ∧ _).1.symm (ne_of_shortEscape hd).2
  · exact absurd (by simpa using h : c = '\\' ∧ _).1 (ne_of_shortEscape hc).2
  · exact absurd (by simpa using h : c = '\\' ∧ _).1 (ne_of_shortEscape hc).2
  · simpa using h

/-- No character is written as a text that begins with a quotation mark. -/
lemma escapeChar_append_ne (c : Char) (r r' : Text) : escapeChar c ++ r ≠ '"' :: r' := by
  intro h
  rcases escapeChar_cases c with ⟨x, -, hx⟩ | ⟨-, -, hx⟩ | ⟨hc, -, hx⟩ <;> rw [hx] at h
  · simp at h
  · simp at h
  · exact absurd (by simpa using h : c = '"' ∧ _).1 (ne_of_shortEscape hc).1

/-- The characters of a string end at the first quotation mark that is not escaped. -/
lemma flatMap_escapeChar_inj {cs ds : List Char} {r r' : Text}
    (h : cs.flatMap escapeChar ++ '"' :: r = ds.flatMap escapeChar ++ '"' :: r') :
    cs = ds ∧ r = r' := by
  induction cs generalizing ds with
  | nil =>
    cases ds with
    | nil => exact ⟨rfl, by simpa using h⟩
    | cons d ds =>
      rw [List.flatMap_cons, List.append_assoc] at h
      exact absurd h.symm (escapeChar_append_ne d _ _)
  | cons c cs ih =>
    cases ds with
    | nil =>
      rw [List.flatMap_cons, List.append_assoc] at h
      exact absurd h (escapeChar_append_ne c _ _)
    | cons d ds =>
      rw [List.flatMap_cons, List.flatMap_cons, List.append_assoc, List.append_assoc] at h
      obtain ⟨rfl, hrest⟩ := escapeChar_append_inj h
      obtain ⟨rfl, hr⟩ := ih hrest
      exact ⟨rfl, hr⟩

/-- **A string is known from a text that begins with it.** -/
theorem quoted_append_inj {s t : String} {r r' : Text} (h : quoted s ++ r = quoted t ++ r') :
    s = t ∧ r = r' := by
  simp only [quoted, List.cons_append, List.append_assoc, List.cons.injEq, true_and,
    List.nil_append] at h
  obtain ⟨hchars, hr⟩ := flatMap_escapeChar_inj h
  exact ⟨String.toList_inj.mp hchars, hr⟩

/-- A key is known from a text that begins with it, and so is what follows it. -/
lemma member_append_inj {k k' : String} {v v' r r' : Text}
    (h : member (k, v) ++ r = member (k', v') ++ r') : k = k' ∧ v ++ r = v' ++ r' := by
  rw [member, member, List.append_assoc, List.append_assoc] at h
  obtain ⟨hkey, hrest⟩ := quoted_append_inj h
  exact ⟨hkey, (List.cons.inj hrest).2⟩

/-- A key with a string is known from a text that begins with them. -/
lemma member_quoted_append_inj {k k' s s' : String} {r r' : Text}
    (h : member (k, quoted s) ++ r = member (k', quoted s') ++ r') : k = k' ∧ s = s' ∧ r = r' := by
  obtain ⟨hkey, hrest⟩ := member_append_inj h
  exact ⟨hkey, quoted_append_inj hrest⟩

/-- An integer is known from its text. -/
lemma number_injective : Function.Injective number := by
  have hdigits : ∀ a b : ℕ, Nat.toDigits 10 a = Nat.toDigits 10 b → a = b := by
    intro a b h
    rw [← Nat.ofDigitChars_toDigits (b := 10) (n := a) (by omega) (by omega), h,
      Nat.ofDigitChars_toDigits (by omega) (by omega)]
  have hsign : ∀ a b : ℕ, '-' :: Nat.toDigits 10 a ≠ Nat.toDigits 10 b := by
    intro a b h
    have hdigit := Nat.isDigit_of_mem_toDigits (b := 10) (n := b) (c := '-') (by omega) (by omega)
      (h ▸ List.mem_cons_self)
    exact absurd hdigit (by decide)
  intro m n h
  unfold number at h
  split_ifs at h with hm hn hn
  · have := hdigits _ _ (List.append_cancel_left h)
    omega
  · exact absurd h (hsign _ _)
  · exact absurd h.symm (hsign _ _)
  · have := hdigits _ _ (List.append_cancel_left h)
    omega

/-! ## Bytes -/

@[simp] lemma bytes_nil : bytes [] = [] := rfl

lemma bytes_cons (c : Char) (t : Text) : bytes (c :: t) = String.utf8EncodeChar c ++ bytes t :=
  List.flatMap_cons

@[simp] lemma bytes_append (t t' : Text) : bytes (t ++ t') = bytes t ++ bytes t' :=
  List.flatMap_append

/-- The byte of an ASCII character. -/
lemma bytes_cons_of_ascii {c : Char} (hc : c.toNat < 128) (t : Text) :
    bytes (c :: t) = UInt8.ofNat c.toNat :: bytes t := by
  rw [bytes_cons, utf8EncodeChar_of_ascii hc, List.singleton_append]

/-- A text is known from its bytes. -/
theorem bytes_injective : Function.Injective bytes := by
  intro t t' h
  have hutf8 : utf8 (String.ofList t) = utf8 (String.ofList t') := by
    rw [utf8_eq_flatMap, utf8_eq_flatMap, String.toList_ofList, String.toList_ofList]
    exact h
  exact String.ofList_injective (utf8_injective hutf8)

/-- A byte of a character is the character's code, for an ASCII character, or beyond ASCII. -/
lemma mem_utf8EncodeChar {c : Char} {b : UInt8} (hb : b ∈ String.utf8EncodeChar c) :
    (c.toNat < 128 ∧ b.toNat = c.toNat) ∨ 128 ≤ b.toNat := by
  by_cases hc : c.toNat < 128
  · rw [utf8EncodeChar_of_ascii hc, List.mem_singleton] at hb
    rw [hb, UInt8.toNat_ofNat']
    exact .inl ⟨hc, by omega⟩
  · have hval : c.val.toNat = c.toNat := rfl
    refine .inr ?_
    unfold String.utf8EncodeChar at hb
    rw [hval] at hb
    dsimp only at hb
    split_ifs at hb <;> simp only [List.mem_cons, List.not_mem_nil, or_false] at hb
    · omega
    · rcases hb with rfl | rfl <;> rw [UInt8.toNat_ofNat'] <;> omega
    · rcases hb with rfl | rfl | rfl <;> rw [UInt8.toNat_ofNat'] <;> omega
    · rcases hb with rfl | rfl | rfl | rfl <;> rw [UInt8.toNat_ofNat'] <;> omega

/-- The byte of an ASCII character is found only where the character is. -/
lemma ne_of_mem_bytes {t : Text} {x : Char} (hx : x.toNat < 128) (hxt : x ∉ t) {b : UInt8}
    (hb : b ∈ bytes t) : b ≠ UInt8.ofNat x.toNat := by
  obtain ⟨c, hc, hbc⟩ := List.mem_flatMap.mp hb
  intro hbx
  have hcode : b.toNat = x.toNat := by
    rw [hbx, UInt8.toNat_ofNat']
    omega
  rcases mem_utf8EncodeChar hbc with ⟨-, h⟩ | h
  · exact hxt (Char.toNat_inj.mp (hcode.symm.trans h) ▸ hc)
  · omega

/-- A text without control characters. -/
def Printable (t : Text) : Prop := ∀ c ∈ t, 32 ≤ c.toNat

/-- A text of printable characters has no control characters among its bytes. -/
lemma le_of_mem_bytes {t : Text} (ht : Printable t) {b : UInt8} (hb : b ∈ bytes t) :
    32 ≤ b.toNat := by
  obtain ⟨c, hc, hbc⟩ := List.mem_flatMap.mp hb
  have := ht c hc
  rcases mem_utf8EncodeChar hbc with ⟨-, h⟩ | h <;> omega

/-- The digits of a number are printable ASCII characters, and no escapes. -/
lemma mem_hexDigits {n width : ℕ} {x : Char} (hx : x ∈ hexDigits n width) :
    32 ≤ x.toNat ∧ x.toNat < 128 ∧ x ≠ '"' ∧ x ≠ '\\' := by
  have key : ∀ k : Fin 16, 32 ≤ (hexDigit k).toNat ∧ (hexDigit k).toNat < 128 ∧
      hexDigit k ≠ '"' ∧ hexDigit k ≠ '\\' := by decide
  induction width generalizing n with
  | zero => cases hx
  | succ width ih =>
    rw [hexDigits, List.mem_append, List.mem_singleton] at hx
    rcases hx with hx | rfl
    · exact ih hx
    · exact key ⟨n % 16, Nat.mod_lt _ (by decide)⟩

/-- A character is written with printable ones. -/
lemma le_of_mem_escapeChar {c x : Char} (hx : x ∈ escapeChar c) : 32 ≤ x.toNat := by
  rcases escapeChar_cases c with ⟨y, hc, h⟩ | ⟨-, -, h⟩ | ⟨-, hcode, h⟩ <;> rw [h] at hx
  · simp only [List.mem_cons, List.not_mem_nil, or_false] at hx
    rcases hx with rfl | rfl
    · decide
    · exact (unescape_of_shortEscape hc).2.2.1
  · simp only [List.mem_cons] at hx
    rcases hx with rfl | rfl | hx
    · decide
    · decide
    · exact (mem_hexDigits hx).1
  · rw [List.mem_singleton] at hx
    subst hx
    by_contra hlt
    unfold codeEscaped at hcode
    rw [Bool.or_eq_false_iff, decide_eq_false_iff_not] at hcode
    omega

lemma printable_quoted (s : String) : Printable (quoted s) := by
  intro x hx
  simp only [quoted, List.mem_cons, List.mem_append, List.mem_flatMap, List.not_mem_nil,
    or_false] at hx
  rcases hx with rfl | ⟨c, -, hx⟩ | rfl
  · decide
  · exact le_of_mem_escapeChar hx
  · decide

/-- The characters of a number: a sign or digits. -/
lemma mem_number {n : ℤ} {c : Char} (hc : c ∈ number n) : 45 ≤ c.toNat ∧ c.toNat ≤ 57 := by
  rw [number, List.mem_append] at hc
  rcases hc with hc | hc
  · split_ifs at hc
    · obtain rfl := List.mem_singleton.mp hc
      decide
    · cases hc
  · have hdigit := Nat.isDigit_of_mem_toDigits (by omega) (by omega) hc
    have : 48 ≤ c.toNat ∧ c.toNat ≤ 57 := by
      simpa [Char.isDigit, UInt32.le_iff_toNat_le] using hdigit
    omega

lemma printable_number (n : ℤ) : Printable (number n) := by
  intro c hc
  have := mem_number hc
  omega

lemma printable_object {m : String × Text} {ms : List (String × Text)} (hm : Printable m.2)
    (hms : ∀ m' ∈ ms, Printable m'.2) : Printable (object m ms) := by
  have hmember : ∀ {m : String × Text}, Printable m.2 → Printable (member m) := by
    intro m hm x hx
    rw [member, List.mem_append, List.mem_cons] at hx
    rcases hx with hx | rfl | hx
    · exact printable_quoted m.1 x hx
    · decide
    · exact hm x hx
  intro x hx
  simp only [object, List.mem_cons, List.mem_append, List.mem_flatMap, List.not_mem_nil,
    or_false] at hx
  rcases hx with rfl | (hx | ⟨m', hm', rfl | hx⟩) | rfl
  · decide
  · exact hmember hm x hx
  · decide
  · exact hmember (hms m' hm') x hx
  · decide

/-! ## Sizes -/

/-- The size of a character of a string. -/
def escapedSize (c : Char) : ℕ :=
  if (shortEscape c).isSome then 2 else if codeEscaped c then 6 else c.utf8Size

/-- The size of an integer. -/
def numberSize (n : ℤ) : ℕ := (if n < 0 then 1 else 0) + (Nat.toDigits 10 n.natAbs).length

/-- The size of a string. -/
def quotedSize (s : String) : ℕ := (s.toList.map escapedSize).sum + 2

/-- The bytes of a text of ASCII characters are as many as the characters. -/
lemma length_bytes_of_ascii {t : Text} (ht : ∀ c ∈ t, c.toNat < 128) :
    (bytes t).length = t.length := by
  induction t with
  | nil => rfl
  | cons c t ih =>
    rw [bytes_cons_of_ascii (ht c List.mem_cons_self), List.length_cons, List.length_cons,
      ih fun d hd => ht d (List.mem_cons_of_mem c hd)]

lemma length_bytes_escapeChar (c : Char) : (bytes (escapeChar c)).length = escapedSize c := by
  unfold escapedSize
  rcases escapeChar_cases c with ⟨x, hc, h⟩ | ⟨hc, hcode, h⟩ | ⟨hc, hcode, h⟩ <;> rw [h, hc]
  · rw [length_bytes_of_ascii]
    · rfl
    · simp only [List.mem_cons, List.not_mem_nil, or_false, forall_eq_or_imp, forall_eq]
      exact ⟨by decide, (unescape_of_shortEscape hc).2.2.2⟩
  · rw [length_bytes_of_ascii, hcode]
    · rw [List.length_cons, List.length_cons, length_hexDigits]
      rfl
    · simp only [List.mem_cons, forall_eq_or_imp]
      exact ⟨by decide, by decide, fun x hx => (mem_hexDigits hx).2.1⟩
  · rw [hcode, bytes_cons, bytes_nil, List.append_nil, String.length_utf8EncodeChar]
    rfl

/-- **The size of a string** in quotation marks and with its escapes is `quotedSize`. -/
theorem length_bytes_quoted (s : String) : (bytes (quoted s)).length = quotedSize s := by
  have hchars : ∀ cs : List Char,
      (bytes (cs.flatMap escapeChar)).length = (cs.map escapedSize).sum := by
    intro cs
    induction cs with
    | nil => rfl
    | cons c cs ih =>
      rw [List.flatMap_cons, bytes_append, List.length_append, length_bytes_escapeChar, ih,
        List.map_cons, List.sum_cons]
  rw [quoted, bytes_cons_of_ascii (by decide), bytes_append, List.length_cons, List.length_append,
    hchars, bytes_cons_of_ascii (by decide)]
  rfl

lemma length_bytes_number (n : ℤ) : (bytes (number n)).length = numberSize n := by
  rw [length_bytes_of_ascii]
  · rw [number, numberSize, List.length_append]
    split_ifs <;> rfl
  · intro c hc
    have := mem_number hc
    omega

/-- The size of a key with its value. -/
def memberSize (m : String × Text) : ℕ := quotedSize m.1 + (bytes m.2).length + 1

lemma length_bytes_member (m : String × Text) : (bytes (member m)).length = memberSize m := by
  rw [member, bytes_append, bytes_cons_of_ascii (by decide), List.length_append, List.length_cons,
    length_bytes_quoted, memberSize]
  rfl

/-- The size of an object: its members, a comma for each but the first, and two braces. -/
theorem length_bytes_object (m : String × Text) (ms : List (String × Text)) :
    (bytes (object m ms)).length = memberSize m + (ms.map fun m => memberSize m + 1).sum + 2 := by
  have hrest : (bytes (ms.flatMap fun m => ',' :: member m)).length =
      (ms.map fun m => memberSize m + 1).sum := by
    induction ms with
    | nil => rfl
    | cons m ms ih =>
      rw [List.flatMap_cons, bytes_append, bytes_cons_of_ascii (by decide), List.length_append,
        List.length_cons, length_bytes_member, ih, List.map_cons, List.sum_cons]
  rw [object, bytes_cons_of_ascii (by decide), bytes_append, bytes_append,
    bytes_cons_of_ascii (by decide), List.length_cons, List.length_append, List.length_append,
    length_bytes_member, hrest]
  rfl

end JsonText
