import K8sAgent.Lib.JsonText
import K8sAgent.Lib.Transition

set_option relaxedAutoImplicit false
set_option autoImplicit false

/-!
# Reading JSON

A reader of JSON texts that takes one character after another, as the scanner of the Go standard
library does, and builds the value on the way. It reads exactly the texts of the JSON grammar, with
white space between tokens, nested at most ten thousand deep. Bytes that are not UTF-8 are read as
replacement characters, and so are halves of surrogate pairs.

## Main definitions

* `JsonReader.Json` — values as they are read: numbers by their texts, members in order.
* `JsonReader.step` — one character; `JsonReader.parse` — a whole text.
* `JsonReader.runes` — the characters of some bytes.
* `JsonReader.Reads` — a text is read as a value wherever one is expected.

## Main results

* `JsonReader.reads_quoted`, `reads_number`, `reads_object`, `reads_array` — the texts of
  `K8sAgent.Lib.JsonText` are read as what they are the texts of.
* `JsonReader.Reads.parse_eq` — what is read wherever a value is expected is parsed.
* `JsonReader.runes_bytes` — a text is known from its bytes.
-/

namespace JsonReader

open Encoding JsonText

/-! ## Values -/

/-- A JSON value. Numbers are kept as they are written; the members of an object are kept in order,
repeated keys included. -/
inductive Json : Type where
  /-- The word `null`. -/
  | null
  /-- The words `true` and `false`. -/
  | bool (b : Bool)
  /-- A number. -/
  | number (t : Text)
  /-- A string. -/
  | string (s : String)
  /-- An array. -/
  | array (items : List Json)
  /-- An object. -/
  | object (members : List (String × Json))

/-! ## Strings -/

/-- A part of a string: a character, or sixteen bits that are written as a code. -/
inductive Piece : Type where
  /-- A character. -/
  | char (c : Char)
  /-- A code. -/
  | code (n : ℕ)

/-- The value of a hexadecimal digit. -/
def hexCode (c : Char) : Option ℕ :=
  if c.toNat < 128 then hexValue (UInt8.ofNat c.toNat) else none

/-- The number four digits stand for. -/
def codeOf (a b c d : Char) : ℕ :=
  [a, b, c, d].foldl (fun n x => 16 * n + (hexCode x).getD 0) 0

/-- The parts of what stands between the quotation marks. -/
def pieces : Text → List Piece
  | [] => []
  | '\\' :: 'u' :: a :: b :: c :: d :: rest => .code (codeOf a b c d) :: pieces rest
  | '\\' :: x :: rest => .char (unescape x) :: pieces rest
  | c :: rest => .char c :: pieces rest

/-- The replacement character. -/
def replacement : Char := '\ufffd'

/-- The first half of a surrogate pair. -/
def isHigh (n : ℕ) : Bool := 0xd800 ≤ n && n < 0xdc00

/-- The second half of a surrogate pair. -/
def isLow (n : ℕ) : Bool := 0xdc00 ≤ n && n < 0xe000

/-- The character of a code that stands alone. -/
def lone (n : ℕ) : Char := if isHigh n || isLow n then replacement else Char.ofNat n

/-- The characters of the parts: two halves make one character, a half alone is replaced. -/
def join : List Piece → Text
  | [] => []
  | .char c :: ps => c :: join ps
  | .code hi :: .code lo :: ps =>
    if isHigh hi && isLow lo then
      Char.ofNat (0x10000 + 0x400 * (hi - 0xd800) + (lo - 0xdc00)) :: join ps
    else lone hi :: join (.code lo :: ps)
  | .code n :: ps => lone n :: join ps

/-- The string that stands between the quotation marks. -/
def unquote (raw : Text) : String := String.ofList (join (pieces raw))

/-! ## The reader -/

/-- Where a number has got to. -/
inductive Num : Type where
  /-- After the minus sign. -/
  | neg
  /-- After a leading zero. -/
  | zero
  /-- After a digit before the point. -/
  | int
  /-- After the point. -/
  | dot
  /-- After a digit behind the point. -/
  | frac
  /-- After the letter of the exponent. -/
  | exp
  /-- After the sign of the exponent. -/
  | expSign
  /-- After a digit of the exponent. -/
  | expInt
  deriving DecidableEq

/-- What may follow a digit other than a digit. -/
def Num.pointOrExp (c : Char) : Option Num :=
  if c = '.' then some .dot else if c = 'e' ∨ c = 'E' then some .exp else none

/-- One more character of a number. -/
def Num.next : Num → Char → Option Num
  | .neg, c => if c = '0' then some .zero else if c.isDigit then some .int else none
  | .zero, c => pointOrExp c
  | .int, c => if c.isDigit then some .int else pointOrExp c
  | .dot, c => if c.isDigit then some .frac else none
  | .frac, c => if c.isDigit then some .frac else if c = 'e' ∨ c = 'E' then some .exp else none
  | .exp, c => if c = '+' ∨ c = '-' then some .expSign else if c.isDigit then some .expInt else none
  | .expSign, c => if c.isDigit then some .expInt else none
  | .expInt, c => if c.isDigit then some .expInt else none

/-- A number may end here. -/
def Num.ends : Num → Bool
  | .zero | .int | .frac | .expInt => true
  | .neg | .dot | .exp | .expSign => false

/-- The words of the grammar. -/
inductive Word : Type where
  /-- `true` and `false`. -/
  | truth (b : Bool)
  /-- `null`. -/
  | null

/-- The text of a truth value. -/
def truth : Bool → Text
  | true => ['t', 'r', 'u', 'e']
  | false => ['f', 'a', 'l', 's', 'e']

/-- The text of a word. -/
def Word.text : Word → Text
  | .truth b => JsonReader.truth b
  | .null => ['n', 'u', 'l', 'l']

/-- The value of a word. -/
def Word.value : Word → Json
  | .truth b => .bool b
  | .null => .null

/-- An array or an object around the value that is read: what it holds so far, and the key of the
value. -/
inductive Frame : Type where
  /-- An array. -/
  | array (items : List Json)
  /-- An object. -/
  | object (members : List (String × Json)) (key : String)

/-- What may come next. -/
inductive Mode : Type where
  /-- A value. -/
  | value
  /-- The first value of an array, or its end. -/
  | first
  /-- The first key of an object, or its end. -/
  | opened
  /-- A key of an object with some members. -/
  | key (members : List (String × Json))
  /-- More of a string: a value, or a key of an object with some members. -/
  | string (into : Option (List (String × Json))) (raw : Text)
  /-- The character after a backslash. -/
  | escape (into : Option (List (String × Json))) (raw : Text)
  /-- In a code, of which `n + 1` digits are left. -/
  | code (into : Option (List (String × Json))) (raw : Text) (n : ℕ)
  /-- The colon after a key. -/
  | colon (members : List (String × Json)) (key : String)
  /-- The rest of a word, after so many letters. -/
  | word (w : Word) (n : ℕ)
  /-- More of a number, or what follows it. -/
  | num (n : Num) (raw : Text)
  /-- What follows a value. -/
  | after (v : Json)

/-- The reader: what may come next, and the arrays and objects around it. -/
structure Reader where
  /-- What may come next. -/
  mode : Mode
  /-- Innermost first. -/
  stack : List Frame

/-- The nesting that is allowed. -/
def maxNestingDepth : ℕ := 10000

/-- White space. -/
def isSpace (c : Char) : Bool := c = ' ' || c = '\t' || c = '\r' || c = '\n'

/-- A value begins. -/
def beginValue (k : List Frame) (c : Char) : Option Reader :=
  if c = openBrace then if k.length < maxNestingDepth then some ⟨.opened, k⟩ else none
  else if c = '[' then if k.length < maxNestingDepth then some ⟨.first, k⟩ else none
  else if c = '"' then some ⟨.string none [], k⟩
  else if c = '-' then some ⟨.num .neg [c], k⟩
  else if c = '0' then some ⟨.num .zero [c], k⟩
  else if c.isDigit then some ⟨.num .int [c], k⟩
  else if c = 't' then some ⟨.word (.truth true) 1, k⟩
  else if c = 'f' then some ⟨.word (.truth false) 1, k⟩
  else if c = 'n' then some ⟨.word .null 1, k⟩
  else none

/-- A value has ended. -/
def endValue (v : Json) (k : List Frame) (c : Char) : Option Reader :=
  if isSpace c then some ⟨.after v, k⟩
  else match k with
    | [] => none
    | .array items :: k =>
      if c = ',' then some ⟨.value, .array (items ++ [v]) :: k⟩
      else if c = ']' then some ⟨.after (.array (items ++ [v])), k⟩
      else none
    | .object members key :: k =>
      if c = ',' then some ⟨.key (members ++ [(key, v)]), k⟩
      else if c = closeBrace then some ⟨.after (.object (members ++ [(key, v)])), k⟩
      else none

/-- A string has ended. -/
def endString (into : Option (List (String × Json))) (raw : Text) : Mode :=
  match into with
  | none => .after (.string (unquote raw))
  | some members => .colon members (unquote raw)

/-- The reader takes one character; `none` where it is no JSON. -/
def step : Reader → Char → Option Reader
  | ⟨.value, k⟩, c => if isSpace c then some ⟨.value, k⟩ else beginValue k c
  | ⟨.first, k⟩, c =>
    if isSpace c then some ⟨.first, k⟩
    else if c = ']' then some ⟨.after (.array []), k⟩
    else beginValue (.array [] :: k) c
  | ⟨.opened, k⟩, c =>
    if isSpace c then some ⟨.opened, k⟩
    else if c = closeBrace then some ⟨.after (.object []), k⟩
    else if c = '"' then some ⟨.string (some []) [], k⟩
    else none
  | ⟨.key members, k⟩, c =>
    if isSpace c then some ⟨.key members, k⟩
    else if c = '"' then some ⟨.string (some members) [], k⟩
    else none
  | ⟨.string into raw, k⟩, c =>
    if c = '"' then some ⟨endString into raw, k⟩
    else if c = '\\' then some ⟨.escape into raw, k⟩
    else if c.toNat < 0x20 then none
    else some ⟨.string into (raw ++ [c]), k⟩
  | ⟨.escape into raw, k⟩, c =>
    if c = 'u' then some ⟨.code into (raw ++ ['\\', c]) 3, k⟩
    else if c ∈ ['b', 'f', 'n', 'r', 't', '\\', '/', '"'] then
      some ⟨.string into (raw ++ ['\\', c]), k⟩
    else none
  | ⟨.code into raw n, k⟩, c =>
    if (hexCode c).isSome then match n with
      | 0 => some ⟨.string into (raw ++ [c]), k⟩
      | n + 1 => some ⟨.code into (raw ++ [c]) n, k⟩
    else none
  | ⟨.colon members key, k⟩, c =>
    if isSpace c then some ⟨.colon members key, k⟩
    else if c = ':' then some ⟨.value, .object members key :: k⟩
    else none
  | ⟨.word w n, k⟩, c =>
    if w.text[n]? = some c then
      if n + 1 = w.text.length then some ⟨.after w.value, k⟩ else some ⟨.word w (n + 1), k⟩
    else none
  | ⟨.num n raw, k⟩, c => match n.next c with
    | some n => some ⟨.num n (raw ++ [c]), k⟩
    | none => if n.ends then endValue (.number raw) k c else none
  | ⟨.after v, k⟩, c => endValue v k c

/-- The value, at the end of the text. -/
def finish : Reader → Option Json
  | ⟨.after v, []⟩ => some v
  | ⟨.num n raw, []⟩ => if n.ends then some (.number raw) else none
  | _ => none

/-- The value of a text. -/
def parse (t : Text) : Option Json := (Transition.run step ⟨.value, []⟩ t).bind finish

/-! ## Characters -/

/-- The characters of some bytes, after so many that belong to the last one. -/
def runesFrom : ℕ → Bytes → Text
  | _, [] => []
  | k + 1, _ :: bs => runesFrom k bs
  | 0, b :: bs => match (List.toByteArray ((b :: bs).take 4)).utf8DecodeChar? 0 with
    | some c => c :: runesFrom (c.utf8Size - 1) bs
    | none => replacement :: runesFrom 0 bs

/-- The characters of some bytes. -/
def runes (b : Bytes) : Text := runesFrom 0 b

/-- The bytes `b`, which belong to the last character, are skipped. -/
lemma runesFrom_append (bs : Bytes) : ∀ b : Bytes, runesFrom b.length (b ++ bs) = runes bs
  | [] => rfl
  | _ :: b => runesFrom_append bs b

/-- A character is read off its bytes. -/
lemma runes_utf8EncodeChar_append (c : Char) (bs : Bytes) :
    runes (String.utf8EncodeChar c ++ bs) = c :: runes bs := by
  have hlen := String.length_utf8EncodeChar c
  have hfour : c.utf8Size ≤ 4 := Char.utf8Size_le_four c
  have hdecode : (List.toByteArray ((String.utf8EncodeChar c ++ bs).take 4)).utf8DecodeChar? 0 =
      some c := by
    rw [List.take_append, List.take_of_length_le (by omega), List.toByteArray_append]
    exact ByteArray.utf8DecodeChar?_utf8EncodeChar_append
  obtain ⟨b, rest, hcons⟩ := List.exists_cons_of_ne_nil (String.utf8EncodeChar_ne_nil (c := c))
  rw [hcons, List.cons_append] at hdecode
  rw [hcons, List.length_cons] at hlen
  rw [hcons, List.cons_append, runes, runesFrom, hdecode]
  show c :: runesFrom (c.utf8Size - 1) (rest ++ bs) = _
  rw [show c.utf8Size - 1 = rest.length by omega, runesFrom_append]

/-- **A text is known from its bytes.** -/
theorem runes_bytes (t : Text) : runes (bytes t) = t := by
  induction t with
  | nil => rfl
  | cons c t ih => rw [bytes_cons, runes_utf8EncodeChar_append, ih]

/-! ## Strings come back -/

lemma hexCode_hexDigit {n : ℕ} (hn : n < 16) : hexCode (hexDigit n) = some n := by
  have key : ∀ n : Fin 16, hexCode (hexDigit n) = some n.val := by decide
  exact key ⟨n, hn⟩

/-- The digits of a number stand for it. -/
lemma foldl_hexDigits {n width : ℕ} (hn : n < 16 ^ width) :
    (hexDigits n width).foldl (fun n x => 16 * n + (hexCode x).getD 0) 0 = n := by
  induction width generalizing n with
  | zero =>
    rw [pow_zero] at hn
    exact (Nat.lt_one_iff.mp hn).symm
  | succ width ih =>
    rw [pow_succ] at hn
    have hhigh := ih (n := n / 16) (by omega)
    rw [hexDigits, List.foldl_append, hhigh, List.foldl_cons, List.foldl_nil,
      hexCode_hexDigit (by omega), Option.getD_some]
    omega

/-- A code is a part of its own. -/
lemma pieces_code {n : ℕ} (hn : n < 16 ^ 4) (rest : Text) :
    pieces ('\\' :: 'u' :: hexDigits n 4 ++ rest) = .code n :: pieces rest :=
  congrArg (Piece.code · :: pieces rest) (foldl_hexDigits hn)

/-- A character after a backslash is a part of its own. -/
lemma pieces_escape {x : Char} (hx : x ≠ 'u') (rest : Text) :
    pieces ('\\' :: x :: rest) = .char (unescape x) :: pieces rest := by
  rw [pieces]
  rintro a b c d rest' rfl
  exact absurd rfl hx

/-- Any other character is a part of its own. -/
lemma pieces_plain {c : Char} (hc : c ≠ '\\') (rest : Text) :
    pieces (c :: rest) = .char c :: pieces rest := by
  rw [pieces]
  · rintro a b c d rest' rfl
    exact absurd rfl hc
  · rintro x rest' rfl
    exact absurd rfl hc

/-- The code of a character is no half of a pair. -/
lemma lone_toNat (c : Char) : lone c.toNat = c ∧ isHigh c.toNat = false := by
  have hvalid : c.toNat < 0xd800 ∨ 0xdfff < c.toNat ∧ c.toNat < 0x110000 := c.valid
  have hhigh : isHigh c.toNat = false := by
    simp only [isHigh, Bool.and_eq_false_iff, decide_eq_false_iff_not]
    omega
  have hlow : isLow c.toNat = false := by
    simp only [isLow, Bool.and_eq_false_iff, decide_eq_false_iff_not]
    omega
  refine ⟨?_, hhigh⟩
  rw [lone, hhigh, hlow]
  exact Char.ofNat_toNat c

/-- The code of a character is read as the character. -/
lemma join_code (c : Char) (ps : List Piece) : join (.code c.toNat :: ps) = c :: join ps := by
  obtain ⟨hlone, hhigh⟩ := lone_toNat c
  cases ps with
  | nil => exact congrArg (· :: join []) hlone
  | cons p ps =>
    cases p with
    | char x => exact congrArg (· :: join (.char x :: ps)) hlone
    | code n =>
      rw [join, hhigh, hlone]
      rfl

/-- What a character is written as is read as the character. -/
lemma join_pieces_escapeChar (c : Char) (rest : Text) :
    join (pieces (escapeChar c ++ rest)) = c :: join (pieces rest) := by
  rcases escapeChar_cases c with ⟨x, hshort, h⟩ | ⟨-, hcode, h⟩ | ⟨hshort, -, h⟩ <;> rw [h]
  · obtain ⟨hx, hu, -⟩ := unescape_of_shortEscape hshort
    show join (pieces ('\\' :: x :: rest)) = _
    rw [pieces_escape hu, hx, join]
  · rw [pieces_code (toNat_lt_of_codeEscaped hcode), join_code]
  · rw [List.singleton_append, pieces_plain (ne_of_shortEscape hshort).2, join]

/-- **A string is read as it was written.** -/
theorem unquote_escaped (s : String) : unquote (s.toList.flatMap escapeChar) = s := by
  have hchars : ∀ cs : List Char, join (pieces (cs.flatMap escapeChar)) = cs := by
    intro cs
    induction cs with
    | nil => rfl
    | cons c cs ih => rw [List.flatMap_cons, join_pieces_escapeChar, ih]
  rw [unquote, hchars, String.ofList_toList]

/-! ## Strings are read to their ends -/

section Strings

variable {into : Option (List (String × Json))} {raw : Text} {k : List Frame}

/-- The letter of an escape is one that may follow a backslash. -/
lemma mem_of_shortEscape {c x : Char} (h : shortEscape c = some x) :
    x ∈ ['b', 'f', 'n', 'r', 't', '\\', '/', '"'] := by
  unfold shortEscape at h
  split_ifs at h with h₁
  · obtain rfl := Option.some.inj h
    rcases h₁ with rfl | rfl <;> decide
  all_goals
    obtain rfl := Option.some.inj h
    decide

/-- The `n + 1` hexadecimal digits that are left of a code are read. -/
lemma run_code {ds : Text} (hds : ∀ c ∈ ds, (hexCode c).isSome) :
    ∀ {raw : Text} {n : ℕ}, ds.length = n + 1 →
      Transition.run step ⟨.code into raw n, k⟩ ds = some ⟨.string into (raw ++ ds), k⟩ := by
  induction ds with
  | nil => intro _ _ hlen; cases hlen
  | cons c ds ih =>
    intro raw n hlen
    have hc := hds c List.mem_cons_self
    rw [List.length_cons, Nat.add_right_cancel_iff] at hlen
    cases n with
    | zero =>
      rw [List.length_eq_zero_iff] at hlen
      subst hlen
      rw [Transition.run, step, if_pos hc]
      rfl
    | succ n =>
      have hrest : Transition.run step ⟨.code into (raw ++ [c]) n, k⟩ ds =
          some ⟨.string into (raw ++ [c] ++ ds), k⟩ :=
        ih (fun x hx => hds x (List.mem_cons_of_mem c hx)) hlen
      rw [Transition.run, step, if_pos hc, Option.bind_some, hrest, List.append_assoc]
      rfl

/-- Hexadecimal digits have values. -/
lemma isSome_hexCode {n width : ℕ} {c : Char} (hc : c ∈ hexDigits n width) :
    (hexCode c).isSome := by
  induction width generalizing n with
  | zero => cases hc
  | succ width ih =>
    rw [hexDigits, List.mem_append, List.mem_singleton] at hc
    rcases hc with hc | rfl
    · exact ih hc
    · rw [hexCode_hexDigit (by omega)]
      rfl

/-- What a character is written as is read as a part of the string. -/
lemma run_escapeChar (c : Char) :
    Transition.run step ⟨.string into raw, k⟩ (escapeChar c) =
      some ⟨.string into (raw ++ escapeChar c), k⟩ := by
  rcases escapeChar_cases c with ⟨x, hshort, h⟩ | ⟨-, -, h⟩ | ⟨hshort, hcode, h⟩ <;> rw [h]
  · obtain ⟨-, hu, -⟩ := unescape_of_shortEscape hshort
    show (step ⟨.escape into raw, k⟩ x).bind _ = _
    rw [step, if_neg hu, if_pos (mem_of_shortEscape hshort)]
    rfl
  · have hlen : (hexDigits c.toNat 4).length = 3 + 1 := length_hexDigits _ _
    show Transition.run step ⟨.code into (raw ++ ['\\', 'u']) 3, k⟩ (hexDigits c.toNat 4) = _
    rw [run_code (fun x hx => isSome_hexCode hx) hlen, List.append_assoc]
    rfl
  · obtain ⟨hquote, hback⟩ := ne_of_shortEscape hshort
    have hprintable : ¬c.toNat < 0x20 := by
      intro hlt
      simp [codeEscaped, hlt] at hcode
    rw [Transition.run, step, if_neg hquote, if_neg hback, if_neg hprintable]
    rfl

/-- The escaped characters of `s` and the quotation mark after them are read as a string. -/
lemma run_string (s : String) :
    Transition.run step ⟨.string into [], k⟩ (s.toList.flatMap escapeChar ++ ['"']) =
      some ⟨endString into (s.toList.flatMap escapeChar), k⟩ := by
  have hchars : ∀ (cs : List Char) (raw : Text),
      Transition.run step ⟨.string into raw, k⟩ (cs.flatMap escapeChar) =
        some ⟨.string into (raw ++ cs.flatMap escapeChar), k⟩ := by
    intro cs
    induction cs with
    | nil =>
      intro raw
      rw [List.flatMap_nil, List.append_nil]
      rfl
    | cons c cs ih =>
      intro raw
      rw [List.flatMap_cons, Transition.run_append, run_escapeChar, Option.bind_some, ih,
        List.append_assoc]
  rw [Transition.run_append, hchars, Option.bind_some, List.nil_append]
  rfl

/-- A key is read to its end, from where one may come. -/
lemma run_key {r : Reader} {members : List (String × Json)}
    (hr : step r '"' = some ⟨.string (some members) [], k⟩) (s : String) :
    Transition.run step r (quoted s) = some ⟨.colon members s, k⟩ := by
  rw [quoted, Transition.run, hr, Option.bind_some, run_string]
  show some (⟨.colon members (unquote _), k⟩ : Reader) = _
  rw [unquote_escaped]

end Strings

/-! ## Values are read to their ends -/

/-- The reader has read a value, or a number that may end here. -/
inductive Holds (v : Json) (k : List Frame) : Reader → Prop where
  /-- The value has ended. -/
  | after : Holds v k ⟨.after v, k⟩
  /-- The number may end. -/
  | num {n : Num} {raw : Text} (hn : n.ends = true) (hv : v = .number raw) :
      Holds v k ⟨.num n raw, k⟩

/-- The text is read as a value wherever one is expected, if `d` more levels are allowed there. -/
def Reads (d : ℕ) (t : Text) (v : Json) : Prop :=
  ∀ k : List Frame, k.length + d ≤ maxNestingDepth →
    ∃ r, Transition.run step ⟨.value, k⟩ t = some r ∧ Holds v k r

lemma Reads.mono {d d' : ℕ} {t : Text} {v : Json} (h : Reads d t v) (hd : d ≤ d') :
    Reads d' t v := fun k hk => h k (by omega)

/-- A number does not go on with a comma, a closing bracket or brace, or a line feed. -/
lemma Num.next_separator (n : Num) :
    ∀ c ∈ [',', ']', closeBrace, '\n'], n.next c = none := by
  intro c hc
  simp only [List.mem_cons, List.not_mem_nil, or_false] at hc
  rcases hc with rfl | rfl | rfl | rfl <;> cases n <;> decide

/-- A reader that holds the value `v` ends it at a comma, a closing bracket or brace, or a line
feed. -/
lemma Holds.step_eq {v : Json} {k : List Frame} {r : Reader} (h : Holds v k r) {c : Char}
    (hc : c ∈ [',', ']', closeBrace, '\n']) : step r c = endValue v k c := by
  cases h with
  | after => rfl
  | @num n raw hn hv =>
    rw [step, n.next_separator c hc, hv]
    exact if_pos hn

/-- At the end of the text there is the value. -/
lemma Holds.finish_eq {v : Json} {r : Reader} (h : Holds v [] r) : finish r = some v := by
  cases h with
  | after => rfl
  | num hn hv =>
    rw [hv]
    exact if_pos hn

/-- **What is read wherever a value is expected is parsed**, at the end of the text and with a line
feed after it. -/
theorem Reads.parse_eq {d : ℕ} {t : Text} {v : Json} (h : Reads d t v)
    (hd : d ≤ maxNestingDepth) : parse t = some v ∧ parse (t ++ ['\n']) = some v := by
  obtain ⟨r, hr, hv⟩ := h [] (by rw [List.length_nil]; omega)
  constructor
  · rw [parse, hr, Option.bind_some, hv.finish_eq]
  · rw [parse, Transition.run_append, hr, Option.bind_some, Transition.run, hv.step_eq (by decide)]
    rfl

/-- A string is read. -/
theorem reads_quoted (s : String) : Reads 0 (quoted s) (.string s) := by
  intro k _
  refine ⟨⟨.after (.string s), k⟩, ?_, .after⟩
  show Transition.run step ⟨.string none [], k⟩ _ = _
  rw [run_string]
  show some (⟨.after (.string (unquote _)), k⟩ : Reader) = _
  rw [unquote_escaped]

/-- The word `null` is read. -/
lemma reads_null : Reads 0 ['n', 'u', 'l', 'l'] .null := fun _ _ => ⟨_, rfl, .after⟩

/-- A truth value is read. -/
lemma reads_truth (b : Bool) : Reads 0 (truth b) (.bool b) := by
  intro k _
  cases b with
  | true => exact ⟨_, rfl, .after⟩
  | false => exact ⟨_, rfl, .after⟩

/-! ### Numbers -/

/-- The digits of a number: a zero alone, or digits of which the first is none. -/
lemma toDigits_cases (n : ℕ) : Nat.toDigits 10 n = ['0'] ∨
    ∃ c cs, Nat.toDigits 10 n = c :: cs ∧ c ≠ '0' ∧ ∀ x ∈ c :: cs, x.isDigit = true := by
  induction n using Nat.strong_induction_on with
  | _ n ih =>
    by_cases hn : n < 10
    · rw [Nat.toDigits_of_lt_base hn]
      have key : ∀ m : Fin 10, [Nat.digitChar m] = ['0'] ∨
          Nat.digitChar m ≠ '0' ∧ (Nat.digitChar m).isDigit = true := by decide
      rcases key ⟨n, hn⟩ with h | ⟨hne, hdigit⟩
      · exact .inl h
      · refine .inr ⟨_, _, rfl, hne, fun x hx => ?_⟩
        rwa [List.mem_singleton.mp hx]
    · have hall : ∀ x ∈ Nat.toDigits 10 n, x.isDigit = true :=
        fun x hx => Nat.isDigit_of_mem_toDigits (by omega) (by omega) hx
      rw [Nat.toDigits_of_base_le (by omega) (by omega)] at hall ⊢
      rcases ih (n / 10) (by omega) with h | ⟨c, cs, h, hne, -⟩
      · -- a zero alone would be the digits of zero
        have hzero := congrArg (Nat.ofDigitChars 10 · 0) h
        simp only [Nat.ofDigitChars_toDigits (b := 10) (by omega) (by omega)] at hzero
        have : Nat.ofDigitChars 10 ['0'] 0 = 0 := by decide
        omega
      · rw [h, List.cons_append] at hall ⊢
        exact .inr ⟨c, _, rfl, hne, hall⟩

/-- The digits `cs` are read as a continuation of the integer `raw`. -/
lemma run_digits {k : List Frame} {cs : Text} (hcs : ∀ x ∈ cs, x.isDigit = true) :
    ∀ raw, Transition.run step ⟨.num .int raw, k⟩ cs = some ⟨.num .int (raw ++ cs), k⟩ := by
  induction cs with
  | nil =>
    intro raw
    rw [List.append_nil]
    rfl
  | cons c cs ih =>
    intro raw
    have hnext : Num.next .int c = some .int := if_pos (hcs c List.mem_cons_self)
    rw [Transition.run, step, hnext]
    show Transition.run step ⟨.num .int (raw ++ [c]), k⟩ cs = _
    rw [ih fun x hx => hcs x (List.mem_cons_of_mem c hx), List.append_assoc]
    rfl

/-- A digit other than zero begins a number. -/
lemma beginValue_digit {c : Char} (hc : c.isDigit = true) (hne : c ≠ '0') (k : List Frame) :
    step ⟨.value, k⟩ c = some ⟨.num .int [c], k⟩ := by
  have hspace : isSpace c = false := by
    by_contra h
    rw [Bool.not_eq_false] at h
    simp only [isSpace, Bool.or_eq_true, decide_eq_true_eq] at h
    rcases h with ((rfl | rfl) | rfl) | rfl <;> exact absurd hc (by decide)
  have hother : ∀ x : Char, x.isDigit = false → c ≠ x := by
    rintro x hx rfl
    rw [hx] at hc
    cases hc
  rw [step, hspace, beginValue, if_neg Bool.false_ne_true, if_neg (hother _ (by decide)),
    if_neg (hother _ (by decide)), if_neg (hother _ (by decide)), if_neg (hother _ (by decide)),
    if_neg hne, if_pos hc]

/-- **The text of an integer is read** as a number. -/
theorem reads_number (n : ℤ) : Reads 0 (number n) (.number (number n)) := by
  intro k _
  have hsign : ∀ c : Char, c.isDigit = true → c ≠ '0' →
      step ⟨.num .neg ['-'], k⟩ c = some ⟨.num .int ['-', c], k⟩ := by
    intro c hc hne
    have hnext : Num.next .neg c = some .int := by rw [Num.next, if_neg hne, if_pos hc]
    rw [step, hnext]
    rfl
  unfold number
  split_ifs with hneg
  · rcases toDigits_cases n.natAbs with h | ⟨c, cs, h, hne, hall⟩ <;> rw [h]
    · exact ⟨_, rfl, .num rfl rfl⟩
    · refine ⟨⟨.num .int ('-' :: c :: cs), k⟩, ?_, .num rfl rfl⟩
      show (step ⟨.num .neg ['-'], k⟩ c).bind _ = _
      rw [hsign c (hall c List.mem_cons_self) hne, Option.bind_some,
        run_digits fun x hx => hall x (List.mem_cons_of_mem c hx)]
      rfl
  · rw [List.nil_append]
    rcases toDigits_cases n.natAbs with h | ⟨c, cs, h, hne, hall⟩ <;> rw [h]
    · exact ⟨_, rfl, .num rfl rfl⟩
    · refine ⟨⟨.num .int (c :: cs), k⟩, ?_, .num rfl rfl⟩
      rw [Transition.run, beginValue_digit (hall c List.mem_cons_self) hne, Option.bind_some,
        run_digits fun x hx => hall x (List.mem_cons_of_mem c hx)]
      rfl

/-! ### Objects -/

/-- An object. -/
def objectText : List (String × Text) → Text
  | [] => [openBrace, closeBrace]
  | m :: ms => object m ms

/-- A member is read as a key with a value. -/
def ReadsMember (d : ℕ) (m : String × Text) (v : String × Json) : Prop :=
  m.1 = v.1 ∧ Reads d m.2 v.2

section Objects

variable {d : ℕ} {k : List Frame}

/-- A member is read, from where a key may come. -/
lemma run_member {m : String × Text} {v : String × Json} (h : ReadsMember d m v) {r : Reader}
    {members : List (String × Json)} (hr : step r '"' = some ⟨.string (some members) [], k⟩)
    (hk : k.length + (d + 1) ≤ maxNestingDepth) :
    ∃ r', Transition.run step r (member m) = some r' ∧ Holds v.2 (.object members v.1 :: k) r' := by
  obtain ⟨hkey, hvalue⟩ := h
  obtain ⟨r', hr', hholds⟩ := hvalue (.object members v.1 :: k) (by
    rw [List.length_cons]
    omega)
  refine ⟨r', ?_, hholds⟩
  rw [member, Transition.run_append, run_key hr, Option.bind_some, hkey]
  exact hr'

/-- The members after the first are read to the end of the object. -/
lemma run_members {ms : List (String × Text)} {vs : List (String × Json)}
    (h : List.Forall₂ (ReadsMember d) ms vs) (hk : k.length + (d + 1) ≤ maxNestingDepth) :
    ∀ {r : Reader} {members : List (String × Json)} {key : String} {v : Json},
      Holds v (.object members key :: k) r →
      Transition.run step r (ms.flatMap (fun m => ',' :: member m) ++ [closeBrace]) =
        some ⟨.after (.object (members ++ (key, v) :: vs)), k⟩ := by
  induction h with
  | nil =>
    intro r members key v hr
    rw [List.flatMap_nil, List.nil_append, Transition.run, hr.step_eq (by decide)]
    rfl
  | @cons m v' ms vs hm _ ih =>
    intro r members key v hr
    have hcomma : step r ',' = some ⟨.key (members ++ [(key, v)]), k⟩ := hr.step_eq (by decide)
    obtain ⟨r', hr', hholds⟩ :=
      run_member (r := ⟨.key (members ++ [(key, v)]), k⟩) hm rfl hk
    rw [List.flatMap_cons, List.append_assoc, List.cons_append, Transition.run, hcomma,
      Option.bind_some, Transition.run_append, hr', Option.bind_some, ih hholds, List.append_assoc]
    rfl

/-- **The text of an object is read** as the object of its members, one level deeper than they are.
-/
theorem reads_object {ms : List (String × Text)} {vs : List (String × Json)}
    (h : List.Forall₂ (ReadsMember d) ms vs) : Reads (d + 1) (objectText ms) (.object vs) := by
  intro k hk
  have hopen : step ⟨.value, k⟩ openBrace = some ⟨.opened, k⟩ := if_pos (by omega)
  cases h with
  | nil =>
    refine ⟨⟨.after (.object []), k⟩, ?_, .after⟩
    rw [objectText, Transition.run, hopen]
    rfl
  | @cons m v ms vs hm hms =>
    obtain ⟨r', hr', hholds⟩ := run_member (r := ⟨.opened, k⟩) hm rfl hk
    refine ⟨⟨.after (.object (v :: vs)), k⟩, ?_, .after⟩
    rw [objectText, object, Transition.run, hopen, Option.bind_some, List.append_assoc,
      Transition.run_append, hr',
      Option.bind_some, run_members hms hk hholds]
    rfl

end Objects

/-! ### Arrays -/

/-- An array. -/
def arrayText : List Text → Text
  | [] => ['[', ']']
  | t :: ts => '[' :: (t ++ ts.flatMap (fun t => ',' :: t) ++ [']'])

section Arrays

variable {d : ℕ} {k : List Frame}

/-- What is read as a value is read as the first of an array. -/
lemma run_first {t : Text} {r : Reader}
    (h : Transition.run step ⟨.value, .array [] :: k⟩ t = some r)
    (hr : r.mode ≠ .value) : Transition.run step ⟨.first, k⟩ t = some r := by
  induction t with
  | nil =>
    obtain rfl := Option.some.inj h
    exact absurd rfl hr
  | cons c t ih =>
    rw [Transition.run, step] at h
    rw [Transition.run, step]
    by_cases hspace : isSpace c = true
    · rw [if_pos hspace] at h ⊢
      exact ih h
    · rw [if_neg hspace] at h ⊢
      have hc : c ≠ ']' := by
        rintro rfl
        cases h
      rw [if_neg hc]
      exact h

lemma Holds.mode_ne_value {v : Json} {r : Reader} (h : Holds v k r) : r.mode ≠ .value := by
  cases h <;> exact Mode.noConfusion

/-- The values after the first are read to the end of the array. -/
lemma run_items {ts : List Text} {vs : List Json} (h : List.Forall₂ (Reads d) ts vs)
    (hk : k.length + (d + 1) ≤ maxNestingDepth) :
    ∀ {r : Reader} {items : List Json} {v : Json}, Holds v (.array items :: k) r →
      Transition.run step r (ts.flatMap (fun t => ',' :: t) ++ [']']) =
        some ⟨.after (.array (items ++ v :: vs)), k⟩ := by
  induction h with
  | nil =>
    intro r items v hr
    rw [List.flatMap_nil, List.nil_append, Transition.run, hr.step_eq (by decide)]
    rfl
  | @cons t v' ts vs ht _ ih =>
    intro r items v hr
    have hcomma : step r ',' = some ⟨.value, .array (items ++ [v]) :: k⟩ :=
      hr.step_eq (by decide)
    obtain ⟨r', hr', hholds⟩ := ht (.array (items ++ [v]) :: k) (by
      rw [List.length_cons]
      omega)
    rw [List.flatMap_cons, List.append_assoc, List.cons_append, Transition.run, hcomma,
      Option.bind_some, Transition.run_append, hr', Option.bind_some, ih hholds, List.append_assoc]
    rfl

/-- **The text of an array is read** as the array of its items, one level deeper than they are. -/
theorem reads_array {ts : List Text} {vs : List Json} (h : List.Forall₂ (Reads d) ts vs) :
    Reads (d + 1) (arrayText ts) (.array vs) := by
  intro k hk
  have hopen : step ⟨.value, k⟩ '[' = some ⟨.first, k⟩ := if_pos (by omega)
  cases h with
  | nil =>
    refine ⟨⟨.after (.array []), k⟩, ?_, .after⟩
    rw [arrayText, Transition.run, hopen]
    rfl
  | @cons t v ts vs ht hts =>
    obtain ⟨r', hr', hholds⟩ := ht (.array [] :: k) (by
      rw [List.length_cons]
      omega)
    refine ⟨⟨.after (.array (v :: vs)), k⟩, ?_, .after⟩
    rw [arrayText, Transition.run, hopen, Option.bind_some, List.append_assoc,
      Transition.run_append, run_first hr' hholds.mode_ne_value, Option.bind_some,
      run_items hts hk hholds]
    rfl

end Arrays

end JsonReader
