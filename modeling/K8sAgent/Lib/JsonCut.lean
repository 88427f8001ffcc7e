import K8sAgent.Lib.JsonRecord

set_option relaxedAutoImplicit false
set_option autoImplicit false

/-!
# Texts that are cut short

Bytes of a JSON object that are cut short anywhere, in the middle of a character too, are not read
as a value. So a reader with a limit reads an object whole or not at all.

## Main results

* `JsonReader.exists_cut` — what the characters of cut bytes are.
* `JsonReader.parse_cut` — an object that is cut short is not parsed.
* `JsonReader.Codec.unmarshal_take` — a record is read from so many bytes of its text exactly if
  they are the whole text.
* `JsonReader.Codec.decodeFirst_marshal` — a record is read from the beginning of a stream.
-/

namespace JsonReader

open Encoding JsonText

/-! ## Characters that are cut -/

/-- The bytes of a character that is read off the front stand at the front. -/
lemma prefix_of_utf8DecodeChar? {b : Bytes} {c : Char}
    (h : (List.toByteArray b).utf8DecodeChar? 0 = some c) : String.utf8EncodeChar c <+: b := by
  have hbytes := String.toByteArray_utf8EncodeChar_of_utf8DecodeChar?_eq_some h
  have hlist := congrArg (fun a : ByteArray => a.data.toList) hbytes
  simp only [ByteArray.data_extract, List.data_toByteArray, Array.toList_extract,
    List.extract_eq_take_drop, List.drop_zero, Nat.sub_zero] at hlist
  rw [hlist]
  exact List.take_prefix _ _

/-- Nothing is read off the front of a character that lacks bytes, or of its last bytes. -/
lemma utf8DecodeChar?_of_cut {c : Char} {n i : ℕ} (hn : n < (String.utf8EncodeChar c).length)
    (hi : i < n) {b : Bytes} (hb : b <+: ((String.utf8EncodeChar c).take n).drop i) :
    (List.toByteArray b).utf8DecodeChar? 0 = none := by
  by_contra hsome
  obtain ⟨c', hc'⟩ := Option.ne_none_iff_exists'.mp hsome
  have hprefix : String.utf8EncodeChar c' <+: ((String.utf8EncodeChar c).take n).drop i :=
    (prefix_of_utf8DecodeChar? hc').trans hb
  obtain ⟨x, xs, hcons⟩ := List.exists_cons_of_ne_nil (String.utf8EncodeChar_ne_nil (c := c'))
  -- the first byte of the one is a byte of the other, and only the first byte of it can be one
  have hfirst : x.IsUTF8FirstByte := by
    have h := UInt8.isUTF8FirstByte_getElem_zero_utf8EncodeChar (c := c')
    simpa only [hcons, List.getElem_cons_zero] using h
  have hx : (String.utf8EncodeChar c)[i]? = some x := by
    obtain ⟨rest, hrest⟩ := hprefix
    have hget : (((String.utf8EncodeChar c).take n).drop i)[0]? = some x := by
      rw [← hrest, hcons]
      rfl
    rw [List.getElem?_drop, Nat.add_zero, List.getElem?_take, if_pos hi] at hget
    exact hget
  obtain ⟨hlen, hxi⟩ := List.getElem?_eq_some_iff.mp hx
  obtain rfl : i = 0 := UInt8.isUTF8FirstByte_getElem_utf8EncodeChar.mp (hxi ▸ hfirst)
  -- so the two characters are the same, and the cut one is as long as the whole
  rw [List.drop_zero] at hprefix
  obtain ⟨rest, hrest⟩ := hprefix.trans (List.take_prefix _ _)
  have hwhole := ByteArray.utf8DecodeChar?_utf8EncodeChar_append (b := rest.toByteArray) (c := c')
  rw [← List.toByteArray_append, hrest] at hwhole
  have hsame := ByteArray.utf8DecodeChar?_utf8EncodeChar_append (b := [].toByteArray) (c := c)
  rw [← List.toByteArray_append, List.append_nil, hwhole] at hsame
  obtain rfl := Option.some.inj hsame
  have hle := hprefix.length_le
  rw [List.length_take] at hle
  omega

/-- A character that lacks bytes is read as replacement characters. -/
lemma runes_take {c : Char} {n : ℕ} (hn : n < (String.utf8EncodeChar c).length) :
    runes ((String.utf8EncodeChar c).take n) = List.replicate n replacement := by
  have hdrop : ∀ k i, i + k = n →
      runes (((String.utf8EncodeChar c).take n).drop i) = List.replicate k replacement := by
    intro k
    induction k with
    | zero =>
      intro i hi
      rw [List.drop_eq_nil_of_le (by rw [List.length_take]; omega)]
      rfl
    | succ k ih =>
      intro i hi
      have hrest := ih (i + 1) (by omega)
      have hlt : i < ((String.utf8EncodeChar c).take n).length := by
        rw [List.length_take]
        omega
      have hnone := utf8DecodeChar?_of_cut (i := i) hn (by omega) (List.take_prefix 4 _)
      rw [List.drop_eq_getElem_cons hlt] at hnone ⊢
      rw [runes, runesFrom, hnone, List.replicate_succ, ← hrest]
      rfl
  exact hdrop n 0 (Nat.zero_add n)

/-- **What the characters of cut bytes are**: a proper beginning of the text, and if a character was
cut, replacement characters after it. -/
theorem exists_cut (t : Text) : ∀ {n : ℕ}, n < (bytes t).length →
    ∃ p c q, t = p ++ c :: q ∧ (runes ((bytes t).take n) = p ∨
      128 ≤ c.toNat ∧ ∃ k, runes ((bytes t).take n) = p ++ List.replicate k replacement) := by
  induction t with
  | nil => intro n hn; cases hn
  | cons c t ih =>
    intro n hn
    rw [bytes_cons, List.length_append] at hn
    rw [bytes_cons]
    by_cases hcut : n < (String.utf8EncodeChar c).length
    · -- the cut is in the first character
      rw [List.take_append_of_le_length hcut.le, runes_take hcut]
      refine ⟨[], c, t, rfl, ?_⟩
      cases n with
      | zero => exact .inl rfl
      | succ n =>
        refine .inr ⟨?_, n + 1, rfl⟩
        by_contra hascii
        rw [utf8EncodeChar_of_ascii (by omega)] at hcut
        rw [List.length_singleton] at hcut
        omega
    · -- it is behind the first character
      obtain ⟨p, x, q, rfl, hp⟩ := ih (n := n - (String.utf8EncodeChar c).length) (by omega)
      refine ⟨c :: p, x, q, rfl, ?_⟩
      have hrunes : runes ((String.utf8EncodeChar c ++ bytes (p ++ x :: q)).take n) =
          c :: runes ((bytes (p ++ x :: q)).take (n - (String.utf8EncodeChar c).length)) := by
        rw [List.take_append, List.take_of_length_le (by omega), runes_utf8EncodeChar_append]
      rw [hrunes]
      rcases hp with hp | ⟨hx, k, hk⟩
      · exact .inl (congrArg (c :: ·) hp)
      · exact .inr ⟨hx, k, congrArg (c :: ·) hk⟩

/-! ## Objects that are cut -/

/-- The reader is outside of all arrays and objects and has a value, or a number. -/
inductive Outside : Reader → Prop where
  /-- A reader that has a value. -/
  | after (v : Json) : Outside ⟨.after v, []⟩
  /-- A reader that has a number, which may go on. -/
  | num (n : Num) (raw : Text) : Outside ⟨.num n raw, []⟩

lemma outside_of_finish {r : Reader} {v : Json} (h : finish r = some v) : Outside r := by
  unfold finish at h
  split at h
  · exact .after _
  · exact .num _ _
  · cases h

/-- Outside, there is no way in, and no brace can come. -/
lemma Outside.step {r r' : Reader} {c : Char} (h : Outside r)
    (hstep : JsonReader.step r c = some r') : Outside r' ∧ c ≠ closeBrace := by
  have hend : ∀ {v : Json}, endValue v [] c = some r' → Outside r' ∧ c ≠ closeBrace := by
    intro v hv
    rw [endValue] at hv
    split_ifs at hv with hspace
    obtain rfl := Option.some.inj hv
    refine ⟨.after v, ?_⟩
    rintro rfl
    exact absurd hspace (by decide)
  cases h with
  | after v => exact hend hstep
  | num n raw =>
    rw [JsonReader.step] at hstep
    split at hstep
    next n' hnext =>
      obtain rfl := Option.some.inj hstep
      refine ⟨.num _ _, ?_⟩
      rintro rfl
      rw [n.next_separator closeBrace (by decide)] at hnext
      cases hnext
    next =>
      split_ifs at hstep
      exact hend hstep

/-- Outside of all objects, no text that ends with a closing brace is read. -/
lemma Outside.run_eq_none {r : Reader} (h : Outside r) (q : Text) :
    Transition.run JsonReader.step r (q ++ [closeBrace]) = none := by
  induction q generalizing r with
  | nil =>
    cases hstep : JsonReader.step r closeBrace with
    | none => rw [List.nil_append, Transition.run, hstep, Option.bind_none]
    | some r' => exact absurd rfl (h.step hstep).2
  | cons c q ih =>
    rw [List.cons_append, Transition.run]
    cases hstep : JsonReader.step r c with
    | none => rfl
    | some r' => exact ih (h.step hstep).1

section Beyond

variable {c : Char}

/-- A character beyond ASCII is none of ASCII. -/
lemma ne_of_beyond (hc : 128 ≤ c.toNat) {x : Char} (hx : x.toNat < 128) : c ≠ x := by
  rintro rfl
  omega

lemma isSpace_of_beyond (hc : 128 ≤ c.toNat) : isSpace c = false := by
  have hne : ∀ {x : Char}, x.toNat < 128 → c ≠ x := ne_of_beyond hc
  simp only [isSpace, hne (x := ' ') (by decide), hne (x := '\t') (by decide),
    hne (x := '\r') (by decide), hne (x := '\n') (by decide), decide_false, Bool.or_self]

lemma isDigit_of_beyond (hc : 128 ≤ c.toNat) : c.isDigit = false := by
  by_contra h
  rw [Bool.not_eq_false, Char.isDigit_iff_toNat] at h
  have hnine : '9'.toNat = 57 := rfl
  omega

/-- No value begins with a character beyond ASCII. -/
lemma beginValue_of_beyond (hc : 128 ≤ c.toNat) (k : List Frame) : beginValue k c = none := by
  have hne : ∀ {x : Char}, x.toNat < 128 → c ≠ x := ne_of_beyond hc
  rw [beginValue, if_neg (hne (by decide)), if_neg (hne (by decide)), if_neg (hne (by decide)),
    if_neg (hne (by decide)), if_neg (hne (by decide)), isDigit_of_beyond hc,
    if_neg Bool.false_ne_true, if_neg (hne (by decide)), if_neg (hne (by decide)),
    if_neg (hne (by decide))]

/-- No value is followed by a character beyond ASCII. -/
lemma endValue_of_beyond (hc : 128 ≤ c.toNat) (v : Json) (k : List Frame) :
    endValue v k c = none := by
  have hne : ∀ {x : Char}, x.toNat < 128 → c ≠ x := ne_of_beyond hc
  unfold endValue
  rw [isSpace_of_beyond hc, if_neg Bool.false_ne_true]
  split
  · rfl
  · rw [if_neg (hne (by decide)), if_neg (hne (by decide))]
  · rw [if_neg (hne (by decide)), if_neg (hne (by decide))]

/-- No number goes on with a character beyond ASCII. -/
lemma Num.next_of_beyond (hc : 128 ≤ c.toNat) (n : Num) : n.next c = none := by
  have hne : ∀ {x : Char}, x.toNat < 128 → c ≠ x := ne_of_beyond hc
  have hdigit := isDigit_of_beyond hc
  cases n <;>
    simp [Num.next, Num.pointOrExp, hdigit, hne (x := '0') (by decide),
      hne (x := '.') (by decide), hne (x := 'e') (by decide), hne (x := 'E') (by decide),
      hne (x := '+') (by decide), hne (x := '-') (by decide)]

/-- **A character beyond ASCII can only be a part of a string.** -/
theorem string_of_step (hc : 128 ≤ c.toNat) {r r' : Reader} (hstep : step r c = some r') :
    ∃ into raw k, r = ⟨.string into raw, k⟩ := by
  have hne : ∀ {x : Char}, x.toNat < 128 → c ≠ x := ne_of_beyond hc
  have hspace := isSpace_of_beyond hc
  obtain ⟨mode, k⟩ := r
  cases mode with
  | string into raw => exact ⟨into, raw, k, rfl⟩
  | value =>
    rw [step, hspace, if_neg Bool.false_ne_true, beginValue_of_beyond hc] at hstep
    cases hstep
  | first =>
    rw [step, hspace, if_neg Bool.false_ne_true, if_neg (hne (by decide)),
      beginValue_of_beyond hc] at hstep
    cases hstep
  | opened =>
    rw [step, hspace, if_neg Bool.false_ne_true, if_neg (hne (by decide)),
      if_neg (hne (by decide))] at hstep
    cases hstep
  | key members =>
    rw [step, hspace, if_neg Bool.false_ne_true, if_neg (hne (by decide))] at hstep
    cases hstep
  | escape into raw =>
    have hmem : c ∉ ['b', 'f', 'n', 'r', 't', '\\', '/', '"'] := by
      intro h
      have hascii : ∀ x ∈ ['b', 'f', 'n', 'r', 't', '\\', '/', '"'], x.toNat < 128 := by simp
      exact hne (hascii c h) rfl
    rw [step, if_neg (hne (by decide)), if_neg hmem] at hstep
    cases hstep
  | code into raw n =>
    have hhex : hexCode c = none := if_neg (by omega)
    simp only [step, hhex, Option.isSome_none, Bool.false_eq_true, if_false] at hstep
    cases hstep
  | colon members key =>
    rw [step, hspace, if_neg Bool.false_ne_true, if_neg (hne (by decide))] at hstep
    cases hstep
  | word w n =>
    have hascii : ∀ x ∈ w.text, x.toNat < 128 := by
      cases w with
      | truth b => cases b <;> simp [Word.text, truth]
      | null => simp [Word.text]
    have hnth : w.text[n]? ≠ some c := fun h => hne (hascii c (List.mem_of_getElem? h)) rfl
    rw [step, if_neg hnth] at hstep
    cases hstep
  | num n raw =>
    rw [step, n.next_of_beyond hc, endValue_of_beyond hc, ite_self] at hstep
    cases hstep
  | after v =>
    rw [step, endValue_of_beyond hc] at hstep
    cases hstep

end Beyond

/-- Inside a string, `n` replacement characters leave the reader inside the string. -/
lemma run_replicate (into : Option (List (String × Json))) (k : List Frame) (n : ℕ) :
    ∀ raw, ∃ raw', Transition.run step ⟨.string into raw, k⟩ (List.replicate n replacement) =
      some ⟨.string into raw', k⟩ := by
  induction n with
  | zero => exact fun raw => ⟨raw, rfl⟩
  | succ n ih => exact fun raw => ih (raw ++ [replacement])

/-- **An object that is cut short is not parsed.**

**Proof sketch.** If the cut is between two characters, the reader would have to have a value there,
but then it could not have read on to the brace at the end. If a character was cut, the reader is
inside a string, and the replacement characters do not end it. -/
theorem parse_cut {t : Text} {r : Reader}
    (hrun : Transition.run step ⟨.value, []⟩ (t ++ [closeBrace]) = some r) {n : ℕ}
    (hn : n < (bytes (t ++ [closeBrace])).length) :
    parse (runes ((bytes (t ++ [closeBrace])).take n)) = none := by
  obtain ⟨p, c, q, hsplit, hcut⟩ := exists_cut _ hn
  obtain ⟨q', hq'⟩ : ∃ q', c :: q = q' ++ [closeBrace] := by
    have hne : c :: q ≠ [] := List.cons_ne_nil c q
    have hlast := congrArg List.getLast? hsplit
    rw [List.getLast?_append_of_ne_nil _ hne, List.getLast?_concat,
      List.getLast?_eq_some_getLast hne] at hlast
    refine ⟨(c :: q).dropLast, ?_⟩
    rw [Option.some.inj hlast, List.dropLast_concat_getLast]
  rw [hsplit, Transition.run_append] at hrun
  obtain ⟨r₁, hp, hrest⟩ := Option.bind_eq_some_iff.mp hrun
  rcases hcut with hp' | ⟨hc, k, hp'⟩
  · rw [hp', parse, hp, Option.bind_some]
    cases hfinish : finish r₁ with
    | none => rfl
    | some v =>
      rw [hq', (outside_of_finish hfinish).run_eq_none] at hrest
      cases hrest
  · obtain ⟨r₂, hstep, -⟩ := Option.bind_eq_some_iff.mp hrest
    obtain ⟨into, raw, stack, rfl⟩ := string_of_step hc hstep
    obtain ⟨raw', hraw'⟩ := run_replicate into stack k raw
    rw [hp', parse, Transition.run_append, hp, Option.bind_some, hraw']
    rfl

/-- The text of an object ends with a closing brace. -/
lemma exists_objectText (ms : List (String × Text)) : ∃ t, objectText ms = t ++ [closeBrace] := by
  cases ms with
  | nil => exact ⟨[openBrace], rfl⟩
  | cons m ms => exact ⟨openBrace :: (member m ++ ms.flatMap fun m => ',' :: member m), rfl⟩

/-- **A record is read whole or not at all**, by whatever reader. -/
theorem Codec.unmarshal_take {σ ρ : Type} {zero s : σ} {fields : List (JsonField σ)} {d : ℕ}
    {v : Json} (h : Reads d ((record zero fields).text s) v) (hd : d ≤ maxNestingDepth)
    (c : Codec ρ) {n : ℕ} (hn : n < ((record zero fields).marshal s).length) :
    c.unmarshal (((record zero fields).marshal s).take n) = none := by
  obtain ⟨r, hr, -⟩ := h [] (by rw [List.length_nil]; omega)
  obtain ⟨t, ht⟩ := exists_objectText (membersOf fields s)
  have htext : (record zero fields).text s = t ++ [closeBrace] := ht
  rw [marshal, htext] at hn
  rw [htext] at hr
  rw [unmarshal, marshal, htext, parse_cut hr hn]
  rfl

/-! ## Streams -/

/-- The first value of a stream, as `Decoder.Decode` reads it: what follows the value is not looked
at. No proper part of an object is one, so that the value ends where one is complete; a number would
end too early, but no record is read from one. -/
def firstValue (data : Bytes) : Option Json :=
  (List.range (data.length + 1)).findSome? fun n => parse (runes (data.take n))

/-- An object is the first value of a stream that begins with it. -/
lemma firstValue_append {t : Text} {r : Reader} {v : Json}
    (hrun : Transition.run step ⟨.value, []⟩ (t ++ [closeBrace]) = some r)
    (hparse : parse (t ++ [closeBrace]) = some v) (rest : Bytes) :
    firstValue (bytes (t ++ [closeBrace]) ++ rest) = some v := by
  have hrange : List.range ((bytes (t ++ [closeBrace]) ++ rest).length + 1) =
      List.range (bytes (t ++ [closeBrace])).length ++ (bytes (t ++ [closeBrace])).length ::
        (List.range rest.length).map fun n => (bytes (t ++ [closeBrace])).length + (n + 1) := by
    rw [List.length_append, Nat.add_assoc, List.range_add, List.range_succ_eq_map, List.map_cons,
      List.map_map]
    rfl
  refine List.findSome?_eq_some_iff.mpr ⟨_, _, _, hrange, ?_, fun n hn => ?_⟩
  · rw [List.take_left, runes_bytes]
    exact hparse
  · have hlt := List.mem_range.mp hn
    rw [List.take_append_of_le_length hlt.le]
    exact parse_cut hrun hlt

/-- The first value of a stream, read into a type. -/
def Codec.decodeFirst {ρ : Type} (c : Codec ρ) (data : Bytes) : Option ρ :=
  (firstValue data).bind fun v => c.decode v c.zero

/-- **A record is read from the beginning of a stream**, whatever follows it. -/
theorem Codec.decodeFirst_marshal {σ ρ : Type} {zero s : σ} {fields : List (JsonField σ)} {d : ℕ}
    {v : Json} (h : Reads d ((record zero fields).text s) v) (hd : d ≤ maxNestingDepth)
    {c : Codec ρ} {x : ρ} (hdecode : c.decode v c.zero = some x) (rest : Bytes) :
    c.decodeFirst ((record zero fields).marshal s ++ rest) = some x := by
  obtain ⟨r, hr, -⟩ := h [] (by rw [List.length_nil]; omega)
  have hparse := (h.parse_eq hd).1
  obtain ⟨t, ht⟩ := exists_objectText (membersOf fields s)
  have htext : (record zero fields).text s = t ++ [closeBrace] := ht
  rw [htext] at hr hparse
  rw [decodeFirst, marshal, htext, firstValue_append hr hparse]
  exact hdecode

end JsonReader
