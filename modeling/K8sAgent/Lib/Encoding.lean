import Mathlib.Algebra.Ring.Nat
import Mathlib.Algebra.Ring.Int.Defs
import Mathlib.Data.List.DropRight

set_option relaxedAutoImplicit false
set_option autoImplicit false

/-!
# Byte strings and their textual forms

Byte strings as lists of bytes, and the decoders of the Go standard library for the two textual
forms of a byte string: base64 with padding and hexadecimal. A base64 error carries the offset
the Go decoder reports.

## Main definitions

* `Encoding.Bytes`, `Encoding.utf8` — byte strings, and the bytes of a text.
* `Encoding.base64Decode` — the standard base64 decoder: carriage returns and line feeds are
  skipped anywhere, padding is required, trailing bits are not checked.
* `Encoding.hexDecode`, `Encoding.hexEncode` — hexadecimal text, read in either letter case and
  written in lower case.
* `Encoding.quote` — the quoted form of a text in messages.
* `Encoding.trimSpace` — a byte string without leading and trailing Unicode white space.
* `Encoding.formatInt`, `Encoding.parseInt` — integers in decimal form.
* `Encoding.durationString` — a duration of at least a second in hours, minutes and seconds.

## Main results

* `Encoding.hexEncode_injective` — a byte string is known from its hexadecimal form.
* `Encoding.parseInt_formatInt`, `Encoding.trimSpace_formatInt` — a number in decimal form is read
  back, and trimming does nothing to it.
-/

namespace Encoding

/-- A byte string. A nil slice and an empty one are the same byte string. -/
abbrev Bytes := List UInt8

/-- The bytes of a text. -/
def utf8 (s : String) : Bytes := s.toUTF8.data.toList

/-! ## Base64 -/

/-- The six bits a base64 character stands for. -/
def base64Value (c : UInt8) : Option ℕ :=
  if 65 ≤ c ∧ c ≤ 90 then some (c.toNat - 65)
  else if 97 ≤ c ∧ c ≤ 122 then some (c.toNat - 97 + 26)
  else if 48 ≤ c ∧ c ≤ 57 then some (c.toNat - 48 + 52)
  else if c = 43 then some 62
  else if c = 47 then some 63
  else none

/-- The byte at bit offset `8 * (2 - i)` of the 24 bits spelled by four sextets. -/
def quantumByte (s₀ s₁ s₂ s₃ i : ℕ) : UInt8 :=
  UInt8.ofNat ((s₀ * 2 ^ 18 + s₁ * 2 ^ 12 + s₂ * 2 ^ 6 + s₃) / 2 ^ (8 * (2 - i)))

/-- A carriage return or a line feed. -/
def isNewline (c : UInt8) : Bool := c = 10 || c = 13

/-- Drop leading line breaks, keeping the offset of what follows. -/
def skipNewlines : Bytes → ℕ → Bytes × ℕ
  | [], si => ([], si)
  | c :: rest, si => if isNewline c then skipNewlines rest (si + 1) else (c :: rest, si)

/-- The end of the input after its padding: nothing but line breaks may follow. -/
def base64Finish (rest : Bytes) (si : ℕ) (out : Bytes) : Except ℕ Bytes :=
  match skipNewlines rest si with
  | ([], _) => .ok out
  | (_ :: _, si') => .error si'

/-- The decoder loop at offset `si`, with the sextets `q` of the current quantum and the output
so far. -/
def base64Loop : Bytes → ℕ → List ℕ → Bytes → Except ℕ Bytes
  | [], si, q, out => if q = [] then .ok out else .error (si - q.length)
  | c :: rest, si, q, out =>
    match base64Value c with
    | some v => match q with
      | [s₀, s₁, s₂] => base64Loop rest (si + 1) []
          (out ++ [quantumByte s₀ s₁ s₂ v 0, quantumByte s₀ s₁ s₂ v 1, quantumByte s₀ s₁ s₂ v 2])
      | q => base64Loop rest (si + 1) (q ++ [v]) out
    | none =>
      if isNewline c then base64Loop rest (si + 1) q out
      else if c ≠ 61 then .error si
      else match q with
        | [s₀, s₁, s₂] => base64Finish rest (si + 1)
            (out ++ [quantumByte s₀ s₁ s₂ 0 0, quantumByte s₀ s₁ s₂ 0 1])
        | [s₀, s₁] =>
          -- one `=` has been read, a second one is due
          match skipNewlines rest (si + 1) with
          | ([], si') => .error si'
          | (c' :: rest', si') =>
            if c' ≠ 61 then .error (si' - 1)
            else base64Finish rest' (si' + 1) (out ++ [quantumByte s₀ s₁ 0 0 0])
        | _ => .error si

/-- Decode standard base64, or report the offset of the first corrupt input byte. -/
def base64Decode (src : Bytes) : Except ℕ Bytes := base64Loop src 0 [] []

/-- The text of a base64 error. -/
def corruptInputError (off : ℕ) : String := s!"illegal base64 data at input byte {off}"

/-! ## Hexadecimal -/

/-- The four bits a hexadecimal digit stands for. -/
def hexValue (c : UInt8) : Option ℕ :=
  if 48 ≤ c ∧ c ≤ 57 then some (c.toNat - 48)
  else if 97 ≤ c ∧ c ≤ 102 then some (c.toNat - 97 + 10)
  else if 65 ≤ c ∧ c ≤ 70 then some (c.toNat - 65 + 10)
  else none

/-- Decode hexadecimal text; `none` on a character that is no digit and on an odd length. -/
def hexDecode : Bytes → Option Bytes
  | [] => some []
  | [_] => none
  | a :: b :: rest => match hexValue a, hexValue b, hexDecode rest with
    | some x, some y, some out => some (UInt8.ofNat (x * 16 + y) :: out)
    | _, _, _ => none

/-- The bytes written as hexadecimal text. -/
def ofHex (s : String) : Bytes := (hexDecode (utf8 s)).getD []

/-- The lower-case hexadecimal digit of a number below sixteen. -/
def hexDigit (n : ℕ) : Char := Char.ofNat (if n < 10 then 48 + n else 87 + n)

/-- Lower-case hexadecimal text. -/
def hexEncode (b : Bytes) : String :=
  String.ofList (b.flatMap fun c => [hexDigit (c.toNat / 16), hexDigit (c.toNat % 16)])

lemma toList_hexEncode (b : Bytes) : (hexEncode b).toList =
    b.flatMap fun c => [hexDigit (c.toNat / 16), hexDigit (c.toNat % 16)] := by
  rw [hexEncode, String.toList_ofList]

/-- Distinct numbers below sixteen have distinct digits. -/
lemma hexDigit_inj {m n : ℕ} (hm : m < 16) (hn : n < 16) (h : hexDigit m = hexDigit n) :
    m = n := by
  have key : ∀ m n : Fin 16, hexDigit m = hexDigit n → m = n := by decide
  exact Fin.mk.inj_iff.mp (key ⟨m, hm⟩ ⟨n, hn⟩ h)

/-- A byte string has twice as many hexadecimal digits. -/
lemma length_hexEncode (b : Bytes) : (hexEncode b).toList.length = 2 * b.length := by
  rw [toList_hexEncode]
  induction b with
  | nil => rfl
  | cons c b ih =>
    rw [List.flatMap_cons, List.length_append, ih, List.length_cons, List.length_cons,
      List.length_cons, List.length_nil]
    omega

/-- A byte string is determined by its hexadecimal text. -/
theorem hexEncode_injective : Function.Injective hexEncode := by
  intro b₁ b₂ h
  have hlist := congrArg String.toList h
  rw [toList_hexEncode, toList_hexEncode] at hlist
  clear h
  induction b₁ generalizing b₂ with
  | nil =>
    cases b₂ with
    | nil => rfl
    | cons c b₂ => simp at hlist
  | cons c b₁ ih =>
    cases b₂ with
    | nil => simp at hlist
    | cons d b₂ =>
      simp only [List.flatMap_cons, List.cons_append, List.nil_append, List.cons.injEq] at hlist
      obtain ⟨hhi, hlo, hrest⟩ := hlist
      have hc := c.toNat_lt
      have hd := d.toNat_lt
      have h1 := hexDigit_inj (by omega) (by omega) hhi
      have h2 := hexDigit_inj (by omega) (by omega) hlo
      have hcd : c = d := UInt8.toNat_inj.mp (by omega)
      rw [hcd, ih hrest]

/-- Hexadecimal text is one line. -/
lemma newline_not_mem_hexEncode (b : Bytes) : '\n' ∉ (hexEncode b).toList := by
  have key : ∀ n : Fin 16, hexDigit n ≠ '\n' := by decide
  rw [toList_hexEncode, List.mem_flatMap]
  rintro ⟨c, -, hc⟩
  have hlt := c.toNat_lt
  simp only [List.mem_cons, List.not_mem_nil, or_false] at hc
  rcases hc with hc | hc
  · exact key ⟨c.toNat / 16, by omega⟩ hc.symm
  · exact key ⟨c.toNat % 16, by omega⟩ hc.symm

/-! ## Quoted text -/

/-- The `width` lower-case hexadecimal digits of a number. -/
def hexDigits (n : ℕ) : ℕ → List Char
  | 0 => []
  | width + 1 => hexDigits (n / 16) width ++ [hexDigit (n % 16)]

/-- One character of a quoted text; `isPrint` tells which characters beyond ASCII are shown as
they are. -/
def quoteChar (isPrint : Char → Bool) (c : Char) : List Char :=
  let n := c.toNat
  if c = '"' ∨ c = '\\' then ['\\', c]
  else if 0x20 ≤ n ∧ n < 0x7F then [c]
  else if 0x80 ≤ n ∧ isPrint c then [c]
  else match n with
    | 7 => ['\\', 'a']
    | 8 => ['\\', 'b']
    | 9 => ['\\', 't']
    | 10 => ['\\', 'n']
    | 11 => ['\\', 'v']
    | 12 => ['\\', 'f']
    | 13 => ['\\', 'r']
    | n =>
      if n < 0x80 then '\\' :: 'x' :: hexDigits n 2
      else if n < 0x10000 then '\\' :: 'u' :: hexDigits n 4
      else '\\' :: 'U' :: hexDigits n 8

/-- A text as a double-quoted Go string literal (the `%q` verb of `fmt`). -/
def quote (isPrint : Char → Bool) (s : String) : String :=
  String.ofList ('"' :: s.toList.flatMap (quoteChar isPrint) ++ ['"'])

/-! ## White space -/

/-- The UTF-8 forms of the Unicode white space characters. -/
def spaces : List Bytes :=
  [[9], [10], [11], [12], [13], [32], [0xC2, 0x85], [0xC2, 0xA0], [0xE1, 0x9A, 0x80],
   [0xE2, 0x80, 0x80], [0xE2, 0x80, 0x81], [0xE2, 0x80, 0x82], [0xE2, 0x80, 0x83],
   [0xE2, 0x80, 0x84], [0xE2, 0x80, 0x85], [0xE2, 0x80, 0x86], [0xE2, 0x80, 0x87],
   [0xE2, 0x80, 0x88], [0xE2, 0x80, 0x89], [0xE2, 0x80, 0x8A], [0xE2, 0x80, 0xA8],
   [0xE2, 0x80, 0xA9], [0xE2, 0x80, 0xAF], [0xE2, 0x81, 0x9F], [0xE3, 0x80, 0x80]]

/-- Strip up to `n` of the given words from the front. -/
def stripWords (words : List Bytes) : ℕ → Bytes → Bytes
  | 0, b => b
  | n + 1, b => match words.find? (·.isPrefixOf b) with
    | some w => stripWords words n (b.drop w.length)
    | none => b

/-- A byte string without its leading and trailing white space. -/
def trimSpace (b : Bytes) : Bytes :=
  let b := stripWords spaces b.length b
  (stripWords (spaces.map List.reverse) b.length b.reverse).reverse

/-- The words a text is stripped of stay as they are where none of them comes first. -/
lemma stripWords_of_forall {words : List Bytes} {b : Bytes}
    (h : ∀ w ∈ words, w.isPrefixOf b = false) (n : ℕ) : stripWords words n b = b := by
  cases n with
  | zero => rfl
  | succ n =>
    have hnone : words.find? (·.isPrefixOf b) = none := by
      refine List.find?_eq_none.mpr fun w hw => ?_
      rw [h w hw]
      exact Bool.false_ne_true
    rw [stripWords, hnone]

/-! ## Decimal numbers -/

/-- The decimal form of an integer. -/
def formatInt (n : ℤ) : Bytes :=
  (if n < 0 then [45] else []) ++ (Nat.toDigits 10 n.natAbs).map fun c => UInt8.ofNat c.toNat

/-- A natural number in decimal form; there has to be a digit, and nothing else. -/
def parseNat (b : Bytes) : Option ℕ :=
  let cs := b.map fun x => Char.ofNat x.toNat
  if cs ≠ [] ∧ cs.all Char.isDigit then some (Nat.ofDigitChars 10 cs 0) else none

/-- A decimal integer of 64 bits with an optional sign. -/
def parseInt (b : Bytes) : Option ℤ :=
  match b with
  | 45 :: ds => (parseNat ds).bind fun n => if n ≤ 2 ^ 63 then some (-n) else none
  | 43 :: ds => (parseNat ds).bind fun n => if n < 2 ^ 63 then some n else none
  | ds => (parseNat ds).bind fun n => if n < 2 ^ 63 then some n else none

section Decimal

variable {n : ℕ}

/-- A digit is the byte of its code. -/
lemma ofNat_toNat_of_isDigit {c : Char} (h : c.isDigit = true) :
    Char.ofNat (UInt8.ofNat c.toNat).toNat = c ∧ 48 ≤ (UInt8.ofNat c.toNat).toNat ∧
      (UInt8.ofNat c.toNat).toNat ≤ 57 := by
  have hc : 48 ≤ c.toNat ∧ c.toNat ≤ 57 := by
    simpa [Char.isDigit, UInt32.le_iff_toNat_le] using h
  have hbyte : (UInt8.ofNat c.toNat).toNat = c.toNat := by
    rw [UInt8.toNat_ofNat']
    omega
  rw [hbyte]
  exact ⟨Char.ofNat_toNat c, hc⟩

/-- The bytes of a natural number in decimal form are digits, and there is one at least. -/
lemma digits_formatInt (n : ℕ) :
    formatInt n ≠ [] ∧ ∀ x ∈ formatInt n, 48 ≤ x.toNat ∧ x.toNat ≤ 57 := by
  have hneg : ¬(n : ℤ) < 0 := by omega
  rw [formatInt, if_neg hneg, List.nil_append]
  refine ⟨fun hnil => Nat.toDigits_ne_nil (List.map_eq_nil_iff.mp hnil), fun x hx => ?_⟩
  obtain ⟨c, hc, rfl⟩ := List.mem_map.mp hx
  exact (ofNat_toNat_of_isDigit (Nat.isDigit_of_mem_toDigits (by omega) (by omega) hc)).2

/-- The decimal form of a natural number is read back. -/
lemma parseNat_formatInt (n : ℕ) : parseNat (formatInt n) = some n := by
  have hdigit : ∀ c ∈ Nat.toDigits 10 n, c.isDigit = true :=
    fun c hc => Nat.isDigit_of_mem_toDigits (by omega) (by omega) hc
  have hchars : (formatInt n).map (fun x => Char.ofNat x.toNat) = Nat.toDigits 10 n := by
    have hneg : ¬(n : ℤ) < 0 := by omega
    rw [formatInt, if_neg hneg, List.nil_append, List.map_map, Int.natAbs_natCast]
    refine (List.map_congr_left fun c hc => ?_).trans (List.map_id _)
    exact (ofNat_toNat_of_isDigit (hdigit c hc)).1
  rw [parseNat, hchars]
  rw [if_pos ⟨Nat.toDigits_ne_nil, List.all_eq_true.mpr hdigit⟩]
  rw [Nat.ofDigitChars_toDigits (by omega) (by omega)]

/-- **The decimal form of a number of 63 bits is read back.** -/
theorem parseInt_formatInt (hn : n < 2 ^ 63) : parseInt (formatInt n) = some (n : ℤ) := by
  obtain ⟨hne, hdigits⟩ := digits_formatInt n
  obtain ⟨x, xs, hcons⟩ := List.exists_cons_of_ne_nil hne
  have hx := hdigits x (by rw [hcons]; exact List.mem_cons_self)
  have hparse : (parseNat (x :: xs)).bind (fun n => if n < 2 ^ 63 then some (n : ℤ) else none) =
      some (n : ℤ) := by
    rw [← hcons, parseNat_formatInt, Option.bind_some, if_pos hn]
  rw [hcons]
  unfold parseInt
  split
  next heq =>
    obtain ⟨rfl, -⟩ := List.cons.inj heq
    exact absurd hx (by decide)
  next heq =>
    obtain ⟨rfl, -⟩ := List.cons.inj heq
    exact absurd hx (by decide)
  next => exact hparse

/-- No word of white space begins or ends with a digit. -/
lemma space_not_digit : ∀ w ∈ spaces ++ spaces.map List.reverse, ∀ x ∈ w.head?,
    ¬(48 ≤ x.toNat ∧ x.toNat ≤ 57) := by decide +kernel

/-- Digits are no white space. -/
theorem trimSpace_formatInt (n : ℕ) : trimSpace (formatInt n) = formatInt n := by
  obtain ⟨hne, hdigits⟩ := digits_formatInt n
  have hfront : ∀ b : Bytes, b ≠ [] → (∀ x ∈ b, 48 ≤ x.toNat ∧ x.toNat ≤ 57) →
      ∀ w ∈ spaces ++ spaces.map List.reverse, w.isPrefixOf b = false := by
    intro b hb hdig w hw
    obtain ⟨x, xs, rfl⟩ := List.exists_cons_of_ne_nil hb
    cases w with
    | nil => exact absurd hw (by decide)
    | cons y ys =>
      have hy := space_not_digit _ hw y rfl
      have hx := hdig x List.mem_cons_self
      have hxy : y ≠ x := by
        rintro rfl
        exact hy hx
      simp [List.isPrefixOf, hxy]
  unfold trimSpace
  dsimp only
  rw [stripWords_of_forall fun w hw => hfront _ hne hdigits w (List.mem_append_left _ hw)]
  rw [stripWords_of_forall fun w hw => hfront _ (by simpa using hne)
    (fun x hx => hdigits x (List.mem_reverse.mp hx)) w (List.mem_append_right _ hw)]
  rw [List.reverse_reverse]

end Decimal

/-! ## Durations -/

/-- The digits of a fraction of a second given in nanoseconds, without trailing zeros. -/
def fractionDigits (ns : ℕ) : String :=
  let digits := toString (10 ^ 9 + ns)
  String.ofList ((digits.toList.drop 1).rdropWhile (· = '0'))

/-- The text of a duration in nanoseconds, for durations of at least a second. -/
def durationString (d : ℤ) : String :=
  let ns := d.natAbs
  let s := ns / 10 ^ 9
  let frac := fractionDigits (ns % 10 ^ 9)
  let h := s / 3600
  let m := s / 60 % 60
  (if d < 0 then "-" else "")
    ++ (if h = 0 then "" else s!"{h}h")
    ++ (if h = 0 ∧ m = 0 then "" else s!"{m}m")
    ++ s!"{s % 60}" ++ (if frac = "" then "" else "." ++ frac) ++ "s"

end Encoding
