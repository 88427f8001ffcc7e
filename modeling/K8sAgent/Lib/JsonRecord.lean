import K8sAgent.Lib.JsonReader

set_option relaxedAutoImplicit false
set_option autoImplicit false

/-!
# Records in JSON

How the Go standard library writes values of given types as JSON and reads JSON into them. Records
are lists of named fields; a field may be left out where it is empty. Reading starts from a value
that is there already, at first the zero value: unknown keys are skipped, a key that is no name of a
field is compared with the names without regard to case, `null` leaves a value as it is and makes a
pointer or a slice nil, and a value of another kind is an error. Nil slices and empty ones are one.

## Main definitions

* `JsonReader.Codec` — how values of a type are written and read: `string`, `bool`, `int`, `bytes`,
  `pointer`, `slice`, `record`.
* `JsonReader.JsonField` — a field of a record.
* `JsonReader.Codec.marshal`, `unmarshal` — values and bytes.
* `JsonReader.Codec.Takes` — the text of a value is read as a tree that is read into the value.

## Main results

* `JsonReader.Codec.exists_takes_record` — a record is read as it was written, if its fields are.
* `JsonReader.Codec.Takes.unmarshal_marshal` — so is the value of the bytes.
-/

namespace JsonReader

open Encoding JsonText

/-! ## Types -/

/-- How values of a type are written and read. -/
structure Codec (α : Type) where
  /-- The zero value. -/
  zero : α
  /-- The value may be left out of a record. -/
  isEmpty : α → Bool
  /-- The text of a value. -/
  text : α → Text
  /-- Read a tree into a value; `none` where it is of another kind. -/
  decode : Json → α → Option α
  /-- What may be left out is zero. -/
  eq_zero : ∀ {x}, isEmpty x = true → x = zero

/-- A field of a record with values in `σ`. -/
structure JsonField (σ : Type) where
  /-- The name. -/
  name : String
  /-- The text of the field, unless it is left out. -/
  text : σ → Option Text
  /-- Read a tree into the field. -/
  decode : Json → σ → Option σ

/-- The integer has `width` bits, with a sign. -/
def IsInt (width : ℕ) (n : ℤ) : Prop := -2 ^ (width - 1) ≤ n ∧ n < 2 ^ (width - 1)

instance (width : ℕ) (n : ℤ) : Decidable (IsInt width n) := inferInstanceAs (Decidable (_ ∧ _))

namespace Codec

variable {α σ : Type}

/-- Strings. -/
def string : Codec String where
  zero := ""
  isEmpty s := s = ""
  text := quoted
  decode
    | .string s, _ => some s
    | .null, s => some s
    | _, _ => none
  eq_zero := of_decide_eq_true

/-- Truth values. -/
def bool : Codec Bool where
  zero := false
  isEmpty b := !b
  text := truth
  decode
    | .bool b, _ => some b
    | .null, b => some b
    | _, _ => none
  eq_zero h := by simpa using h

/-- Integers of `width` bits, at most 64, with a sign. -/
def int (width : ℕ) : Codec ℤ where
  zero := 0
  isEmpty n := n = 0
  text := number
  decode
    | .number t, _ => (parseInt (JsonText.bytes t)).filter fun n => IsInt width n
    | .null, n => some n
    | _, _ => none
  eq_zero := of_decide_eq_true

/-- Bytes by their values. -/
def byte : Codec UInt8 where
  zero := 0
  isEmpty b := b = 0
  text b := number b.toNat
  decode
    | .number t, _ => ((parseNat (JsonText.bytes t)).filter (· < 256)).map UInt8.ofNat
    | .null, b => some b
    | _, _ => none
  eq_zero := of_decide_eq_true

/-- Read trees into the values that are there, and into zeros after the last. -/
def decodeItems (c : Codec α) : List Json → List α → Option (List α)
  | [], _ => some []
  | v :: vs, xs => (c.decode v (xs.head?.getD c.zero)).bind fun x =>
      (decodeItems c vs xs.tail).map (x :: ·)

/-- Slices. -/
def slice (c : Codec α) : Codec (List α) where
  zero := []
  isEmpty xs := xs.isEmpty
  text xs := arrayText (xs.map c.text)
  decode
    | .array vs, xs => c.decodeItems vs xs
    | .null, _ => some []
    | _, _ => none
  eq_zero := List.isEmpty_iff.mp

/-- Byte slices are written in base64; they may be read from an array too. -/
def bytes : Codec Bytes where
  zero := []
  isEmpty b := b.isEmpty
  text b := quoted (base64Encode b)
  decode
    | .string s, _ => (base64Decode (utf8 s)).toOption
    | .array vs, b => byte.decodeItems vs b
    | .null, _ => some []
    | _, _ => none
  eq_zero := List.isEmpty_iff.mp

/-- Pointers. -/
def pointer (c : Codec α) : Codec (Option α) where
  zero := none
  isEmpty p := p.isNone
  text
    | none => ['n', 'u', 'l', 'l']
    | some x => c.text x
  decode
    | .null, _ => some none
    | v, p => (c.decode v (p.getD c.zero)).map some
  eq_zero := Option.isNone_iff_eq_none.mp

/-- A field of a record. -/
def field (c : Codec α) (name : String) (get : σ → α) (set : α → σ → σ) : JsonField σ where
  name := name
  text s := some (c.text (get s))
  decode v s := (c.decode v (get s)).map fun x => set x s

/-- A field that is left out where it is empty. -/
def omitEmpty (c : Codec α) (name : String) (get : σ → α) (set : α → σ → σ) : JsonField σ where
  name := name
  text s := if c.isEmpty (get s) then none else some (c.text (get s))
  decode v s := (c.decode v (get s)).map fun x => set x s

end Codec

@[simp] lemma Codec.field_name {α σ : Type} (c : Codec α) (name : String) (get : σ → α)
    (set : α → σ → σ) : (c.field name get set).name = name := rfl

@[simp] lemma Codec.omitEmpty_name {α σ : Type} (c : Codec α) (name : String) (get : σ → α)
    (set : α → σ → σ) : (c.omitEmpty name get set).name = name := rfl

/-- A letter without its case. The Kelvin sign and the long s are other forms of letters. -/
def foldChar (c : Char) : Char :=
  if c = '\u212a' then 'K' else if c = '\u017f' then 'S' else c.toUpper

/-- The field a key stands for: the one of that name, or one of a name that differs in case. -/
def lookupField {σ : Type} (fields : List (JsonField σ)) (key : String) : Option (JsonField σ) :=
  (fields.find? fun f => f.name = key).or
    (fields.find? fun f => f.name.toList.map foldChar = key.toList.map foldChar)

/-- Read a member into a record. -/
def decodeMember {σ : Type} (fields : List (JsonField σ)) (s : σ) (m : String × Json) : Option σ :=
  match lookupField fields m.1 with
  | some f => f.decode m.2 s
  | none => some s

/-- The members a record is written with. -/
def membersOf {σ : Type} (fields : List (JsonField σ)) (s : σ) : List (String × Text) :=
  fields.filterMap fun f => (f.text s).map fun t => (f.name, t)

namespace Codec

variable {α σ : Type}

/-- Records. -/
def record (zero : σ) (fields : List (JsonField σ)) : Codec σ where
  zero := zero
  isEmpty _ := false
  text s := objectText (membersOf fields s)
  decode
    | .object ms, s => ms.foldlM (decodeMember fields) s
    | .null, s => some s
    | _, _ => none
  eq_zero := Bool.noConfusion

/-- The bytes of a value. -/
def marshal (c : Codec α) (x : α) : Bytes := JsonText.bytes (c.text x)

/-- The value of some bytes. -/
def unmarshal (c : Codec α) (data : Bytes) : Option α :=
  (parse (runes data)).bind fun v => c.decode v c.zero

/-! ## Values come back -/

/-- The text of the value is read as a tree, and the tree is read as the value. -/
structure Takes (c : Codec α) (d : ℕ) (x : α) (v : Json) : Prop where
  /-- The text is read. -/
  reads : Reads d (c.text x) v
  /-- The tree is read into the zero value. -/
  decode : c.decode v c.zero = some x

/-- What is read of a text is read of its bytes, and of its bytes with a line feed after them. -/
lemma unmarshal_bytes {c : Codec α} {d : ℕ} {t : Text} {x : α} {v : Json} (hreads : Reads d t v)
    (hd : d ≤ maxNestingDepth) (hdecode : c.decode v c.zero = some x) :
    c.unmarshal (JsonText.bytes t) = some x ∧ c.unmarshal (JsonText.bytes t ++ [10]) = some x := by
  obtain ⟨hend, hline⟩ := hreads.parse_eq hd
  have hbytes : JsonText.bytes t ++ [10] = JsonText.bytes (t ++ ['\n']) := by
    rw [bytes_append]
    rfl
  constructor
  · rw [unmarshal, runes_bytes, hend]
    exact hdecode
  · rw [unmarshal, hbytes, runes_bytes, hline]
    exact hdecode

/-- **The value `x` comes back from its bytes**, if it is nested no deeper than `maxNestingDepth`.
-/
theorem Takes.unmarshal_marshal {c : Codec α} {d : ℕ} {x : α} {v : Json} (h : c.Takes d x v)
    (hd : d ≤ maxNestingDepth) : c.unmarshal (c.marshal x) = some x :=
  (unmarshal_bytes h.reads hd h.decode).1

lemma Takes.mono {c : Codec α} {d d' : ℕ} {x : α} {v : Json} (h : c.Takes d x v)
    (hd : d ≤ d') : c.Takes d' x v := ⟨h.reads.mono hd, h.decode⟩

lemma takes_string (d : ℕ) (s : String) : string.Takes d s (.string s) :=
  ⟨(reads_quoted s).mono (Nat.zero_le d), rfl⟩

lemma takes_bool (d : ℕ) (b : Bool) : bool.Takes d b (.bool b) :=
  ⟨(reads_truth b).mono (Nat.zero_le d), rfl⟩

/-- The bytes of a number are its decimal form. -/
lemma bytes_number (n : ℤ) : JsonText.bytes (number n) = formatInt n := by
  have hascii : ∀ t : Text, (∀ c ∈ t, c.toNat < 128) →
      JsonText.bytes t = t.map fun c => UInt8.ofNat c.toNat := by
    intro t ht
    induction t with
    | nil => rfl
    | cons c t ih =>
      rw [bytes_cons_of_ascii (ht c List.mem_cons_self), List.map_cons,
        ih fun x hx => ht x (List.mem_cons_of_mem c hx)]
  rw [hascii _ fun c hc => by have := mem_number hc; omega, number, formatInt, List.map_append]
  split_ifs <;> rfl

/-- An integer of 64 bits is read back from its decimal form. -/
lemma parseInt_of_isInt {n : ℤ} (hn : IsInt 64 n) : parseInt (formatInt n) = some n := by
  obtain ⟨hlow, hhigh⟩ := hn
  norm_num at hlow hhigh
  by_cases hneg : n < 0
  · obtain ⟨m, hm⟩ : ∃ m : ℕ, n = -(m : ℤ) := ⟨n.natAbs, by omega⟩
    have hform : formatInt n = 45 :: formatInt m := by
      have hpos : ¬(m : ℤ) < 0 := by omega
      rw [formatInt, formatInt, if_pos hneg, if_neg hpos, hm, Int.natAbs_neg]
      rfl
    have hle : m ≤ 2 ^ 63 := by omega
    rw [hform, parseInt, parseNat_formatInt, Option.bind_some, if_pos hle, hm]
  · obtain ⟨m, rfl⟩ : ∃ m : ℕ, n = m := ⟨n.toNat, by omega⟩
    exact parseInt_formatInt (by omega)

lemma takes_int (d : ℕ) {width : ℕ} (hwidth : width ≤ 64) {n : ℤ} (hn : IsInt width n) :
    (int width).Takes d n (.number (number n)) := by
  refine ⟨(reads_number n).mono (Nat.zero_le d), ?_⟩
  have hpow : (2 : ℤ) ^ (width - 1) ≤ 2 ^ (64 - 1) := pow_le_pow_right₀ (by omega) (by omega)
  have h64 : IsInt 64 n := ⟨(neg_le_neg hpow).trans hn.1, hn.2.trans_le hpow⟩
  show (parseInt (JsonText.bytes (number n))).filter _ = _
  rw [bytes_number, parseInt_of_isInt h64]
  exact Option.filter_some_pos (decide_eq_true hn)

lemma takes_bytes (d : ℕ) (b : Bytes) : bytes.Takes d b (.string (base64Encode b)) := by
  refine ⟨(reads_quoted _).mono (Nat.zero_le d), ?_⟩
  show (base64Decode (utf8 (base64Encode b))).toOption = _
  rw [base64Decode_base64Encode]
  rfl

lemma takes_nil (d : ℕ) (c : Codec α) : c.pointer.Takes d none .null :=
  ⟨reads_null.mono (Nat.zero_le d), rfl⟩

/-- A pointer to a value that is not written as `null`. -/
lemma Takes.pointer {c : Codec α} {d : ℕ} {x : α} {v : Json} (h : c.Takes d x v)
    (hv : v ≠ .null) : c.pointer.Takes d (some x) v := by
  refine ⟨h.reads, ?_⟩
  have hdecode := h.decode
  cases v with
  | null => exact absurd rfl hv
  | _ => exact congrArg (Option.map some) hdecode

/-- A slice comes back if each of its items does, one level deeper. -/
lemma exists_takes_slice {c : Codec α} {d : ℕ} {xs : List α}
    (h : ∀ x ∈ xs, ∃ v, c.Takes d x v) : ∃ v, c.slice.Takes (d + 1) xs v := by
  have hitems : ∃ vs, List.Forall₂ (Reads d) (xs.map c.text) vs ∧
      c.decodeItems vs [] = some xs := by
    induction xs with
    | nil => exact ⟨[], .nil, rfl⟩
    | cons x xs ih =>
      obtain ⟨v, hv⟩ := h x List.mem_cons_self
      obtain ⟨vs, hreads, hdecode⟩ := ih fun y hy => h y (List.mem_cons_of_mem x hy)
      refine ⟨v :: vs, .cons hv.reads hreads, ?_⟩
      show (c.decode v c.zero).bind _ = _
      rw [hv.decode, Option.bind_some, List.tail_nil, hdecode]
      rfl
  obtain ⟨vs, hreads, hdecode⟩ := hitems
  exact ⟨.array vs, reads_array hreads, hdecode⟩

end Codec

/-! ## Records come back -/

section Records

variable {α σ ρ : Type} {d : ℕ} {s cur cur' : σ}

/-- The members that a record is written with are read, one after another, into a record of the
reader, which may be another one. -/
inductive Carries (readers : List (JsonField ρ)) (d : ℕ) (s : σ) :
    List (JsonField σ) → ρ → ρ → Prop where
  /-- No field is left. -/
  | nil {r : ρ} : Carries readers d s [] r r
  /-- The field is left out. -/
  | absent {f : JsonField σ} {fs : List (JsonField σ)} {r r' : ρ} (htext : f.text s = none)
      (h : Carries readers d s fs r r') : Carries readers d s (f :: fs) r r'
  /-- The field is read. -/
  | read {f : JsonField σ} {fs : List (JsonField σ)} {r r' r'' : ρ} {t : Text} {v : Json}
      (htext : f.text s = some t) (hreads : Reads d t v)
      (hmember : decodeMember readers r (f.name, v) = some r')
      (h : Carries readers d s fs r' r'') : Carries readers d s (f :: fs) r r''

/-- A member whose name is that of no field is skipped. -/
lemma decodeMember_unknown {readers : List (JsonField ρ)} {name : String}
    (h : (lookupField readers name).isNone = true) (r : ρ) (v : Json) :
    decodeMember readers r (name, v) = some r := by
  rw [decodeMember, Option.isNone_iff_eq_none.mp h]

/-- **What is written as a record is read as one.** -/
theorem Carries.exists_object {readers : List (JsonField ρ)} {fields : List (JsonField σ)}
    {r r' : ρ} (h : Carries readers d s fields r r') :
    ∃ ms, Reads (d + 1) (objectText (membersOf fields s)) (.object ms) ∧
      ms.foldlM (decodeMember readers) r = some r' := by
  have hmembers : ∃ ms, List.Forall₂ (ReadsMember d) (membersOf fields s) ms ∧
      ms.foldlM (decodeMember readers) r = some r' := by
    induction h with
    | nil => exact ⟨[], .nil, rfl⟩
    | absent htext _ ih =>
      obtain ⟨ms, hreads, hdecode⟩ := ih
      refine ⟨ms, ?_, hdecode⟩
      rw [membersOf, List.filterMap_cons_none (by rw [htext]; rfl)]
      exact hreads
    | @read f fs r r' r'' t v htext hv hmember _ ih =>
      obtain ⟨ms, hreads, hdecode⟩ := ih
      refine ⟨(f.name, v) :: ms, ?_, ?_⟩
      · rw [membersOf, List.filterMap_cons_some (by rw [htext]; rfl)]
        exact .cons ⟨rfl, hv⟩ hreads
      · rw [List.foldlM_cons, hmember]
        exact hdecode
  obtain ⟨ms, hreads, hdecode⟩ := hmembers
  exact ⟨ms, reads_object hreads, hdecode⟩

/-- Reading the field of `s` leads from one value to another. -/
def JsonField.Moves (f : JsonField σ) (d : ℕ) (s cur cur' : σ) : Prop :=
  (f.text s = none ∧ cur' = cur) ∨
    ∃ t v, f.text s = some t ∧ Reads d t v ∧ f.decode v cur = some cur'

/-- Reading the fields of `s` one after another leads to `s`. -/
def Fills (d : ℕ) (s : σ) : List (JsonField σ) → σ → Prop
  | [], cur => cur = s
  | f :: fs, cur => ∃ cur', f.Moves d s cur cur' ∧ Fills d s fs cur'

/-- A field is read into a record in which it is still zero. -/
lemma Codec.Takes.moves {c : Codec α} {v : Json} {get : σ → α} {set : α → σ → σ}
    (h : c.Takes d (get s) v) (name : String) (hcur : get cur = c.zero) :
    (c.field name get set).Moves d s cur (set (get s) cur) := by
  refine .inr ⟨c.text (get s), v, rfl, h.reads, ?_⟩
  show (c.decode v (get cur)).map _ = _
  rw [hcur, h.decode]
  rfl

/-- A field that may be left out is read into a record in which it is still zero. -/
lemma Codec.Takes.moves_omitEmpty {c : Codec α} {v : Json} {get : σ → α} {set : α → σ → σ}
    (h : c.Takes d (get s) v) (name : String) (hcur : get cur = c.zero)
    (hset : set (get cur) cur = cur) :
    (c.omitEmpty name get set).Moves d s cur (set (get s) cur) := by
  by_cases hs : c.isEmpty (get s) = true
  · refine .inl ⟨if_pos hs, ?_⟩
    rw [c.eq_zero hs, ← hcur, hset]
  · refine .inr ⟨c.text (get s), v, if_neg hs, h.reads, ?_⟩
    show (c.decode v (get cur)).map _ = _
    rw [hcur, h.decode]
    rfl

/-- A name stands for its field, if no two fields share one. -/
lemma lookupField_name {fields : List (JsonField σ)}
    (hnames : (fields.map JsonField.name).Nodup) {f : JsonField σ} (hf : f ∈ fields) :
    lookupField fields f.name = some f := by
  have hfind : fields.find? (fun g => g.name = f.name) = some f := by
    induction fields with
    | nil => cases hf
    | cons g fields ih =>
      rw [List.map_cons, List.nodup_cons] at hnames
      rcases List.mem_cons.mp hf with rfl | hf
      · exact List.find?_cons_of_pos (decide_eq_true rfl)
      · have hne : g.name ≠ f.name := fun h => hnames.1 (h ▸ List.mem_map_of_mem hf)
        rw [List.find?_cons_of_neg (by simpa using hne)]
        exact ih hnames.2 hf
  rw [lookupField, hfind]
  rfl

/-- Fields of the record itself are read by their names. -/
lemma Fills.carries {fields : List (JsonField σ)} (hnames : (fields.map JsonField.name).Nodup) :
    ∀ {fs : List (JsonField σ)} {cur : σ}, fs ⊆ fields → Fills d s fs cur →
      Carries fields d s fs cur s
  | [], cur, _, h => by
    cases h
    exact .nil
  | f :: fs, cur, hsub, ⟨cur', hmoves, hfills⟩ => by
    have hrest := Fills.carries hnames (fun g hg => hsub (List.mem_cons_of_mem f hg)) hfills
    rcases hmoves with ⟨htext, rfl⟩ | ⟨t, v, htext, hv, hcur'⟩
    · exact .absent htext hrest
    · refine .read htext hv ?_ hrest
      rw [decodeMember, lookupField_name hnames (hsub List.mem_cons_self)]
      exact hcur'

/-- **A record comes back, if its fields do.**

**Proof sketch.** The members that are written are read one after another; each is looked up by its
name and read into what the members before it have left. A field that is left out leaves the record
as it is. -/
theorem Codec.exists_takes_record {zero : σ} {fields : List (JsonField σ)}
    (hnames : (fields.map JsonField.name).Nodup) (h : Fills d s fields zero) :
    ∃ ms, (record zero fields).Takes (d + 1) s (.object ms) := by
  obtain ⟨ms, hreads, hdecode⟩ :=
    (Fills.carries hnames (List.Subset.refl fields) h).exists_object
  exact ⟨ms, hreads, hdecode⟩

end Records

/-! ## What is read has the properties of its type -/

section Keeps

variable {α σ : Type} {P : α → Prop}

/-- Whatever is read, starting from the zero value, has the property. -/
structure Codec.Keeps (c : Codec α) (P : α → Prop) : Prop where
  /-- The zero value has it. -/
  zero : P c.zero
  /-- Reading keeps it. -/
  decode : ∀ {v : Json} {x x' : α}, P x → c.decode v x = some x' → P x'

/-- What bytes are read as has the property. -/
lemma Codec.Keeps.unmarshal {c : Codec α} (h : c.Keeps P) {data : Bytes} {x : α}
    (hx : c.unmarshal data = some x) : P x := by
  obtain ⟨v, -, hv⟩ := Option.bind_eq_some_iff.mp hx
  exact h.decode h.zero hv

/-- Integers are read within their bits. -/
lemma Codec.keeps_int (width : ℕ) : (Codec.int width).Keeps (IsInt width) where
  zero := by
    have hpos : (0 : ℤ) < 2 ^ (width - 1) := by positivity
    exact ⟨neg_nonpos.mpr hpos.le, hpos⟩
  decode {v x x'} hx hdecode := by
    cases v with
    | number t => exact of_decide_eq_true (Option.filter_eq_some_iff.mp hdecode).2
    | null => exact Option.some.inj hdecode ▸ hx
    | _ => cases hdecode

/-- A pointer is nil or points to a value with the property. -/
lemma Codec.Keeps.pointer {c : Codec α} (h : c.Keeps P) :
    c.pointer.Keeps fun p => ∀ x ∈ p, P x where
  zero x hx := absurd hx (Option.not_mem_none x)
  decode {v p p'} hp hdecode := by
    have hcur : P (p.getD c.zero) := by
      cases p with
      | none => exact h.zero
      | some x => exact hp x rfl
    have hother : (c.decode v (p.getD c.zero)).map some = some p' → ∀ x ∈ p', P x := by
      intro hmap x hx
      obtain ⟨y, hy, rfl⟩ := Option.map_eq_some_iff.mp hmap
      obtain rfl := Option.some.inj hx
      exact h.decode hcur hy
    cases v with
    | null =>
      obtain rfl := Option.some.inj hdecode
      exact fun x hx => absurd hx (Option.not_mem_none x)
    | _ => exact hother hdecode

/-- If every value read has the property `P`, then so do the items of every slice read. -/
lemma Codec.Keeps.slice {c : Codec α} (h : c.Keeps P) :
    c.slice.Keeps fun xs => ∀ x ∈ xs, P x where
  zero _ hx := absurd hx List.not_mem_nil
  decode {v xs xs'} hxs hdecode := by
    have hitems : ∀ (vs : List Json) (xs xs' : List α), (∀ x ∈ xs, P x) →
        c.decodeItems vs xs = some xs' → ∀ x ∈ xs', P x := by
      intro vs
      induction vs with
      | nil =>
        intro xs xs' _ heq
        obtain rfl := Option.some.inj heq
        exact fun x hx => absurd hx List.not_mem_nil
      | cons v vs ih =>
        intro xs xs' hxs heq
        obtain ⟨y, hy, hrest⟩ := Option.bind_eq_some_iff.mp heq
        obtain ⟨ys, hys, rfl⟩ := Option.map_eq_some_iff.mp hrest
        have hcur : P (xs.head?.getD c.zero) := by
          cases xs with
          | nil => exact h.zero
          | cons x xs => exact hxs x List.mem_cons_self
        intro x hx
        rcases List.mem_cons.mp hx with rfl | hx
        · exact h.decode hcur hy
        · exact ih xs.tail ys (fun z hz => hxs z (List.mem_of_mem_tail hz)) hys x hx
    cases v with
    | array vs => exact hitems vs xs xs' hxs hdecode
    | null =>
      obtain rfl := Option.some.inj hdecode
      exact fun x hx => absurd hx List.not_mem_nil
    | _ => cases hdecode

/-- A record has a property that the zero value has and that reading any field keeps. -/
lemma Codec.keeps_record {P : σ → Prop} {zero : σ} {fields : List (JsonField σ)} (hzero : P zero)
    (hfields : ∀ f ∈ fields, ∀ {v : Json} {s s' : σ}, P s → f.decode v s = some s' → P s') :
    (Codec.record zero fields).Keeps P where
  zero := hzero
  decode {v s s'} hs hdecode := by
    have hmember : ∀ {m : String × Json} {s s' : σ}, P s →
        decodeMember fields s m = some s' → P s' := by
      intro m s s' hs hm
      rw [decodeMember] at hm
      split at hm
      next f hf =>
        have hmem : f ∈ fields := by
          rcases Option.or_eq_some_iff.mp hf with h | ⟨-, h⟩
          · exact List.mem_of_find?_eq_some h
          · exact List.mem_of_find?_eq_some h
        exact hfields f hmem hs hm
      next => exact Option.some.inj hm ▸ hs
    have hmembers : ∀ (ms : List (String × Json)) (s : σ), P s →
        ms.foldlM (decodeMember fields) s = some s' → P s' := by
      intro ms
      induction ms with
      | nil => exact fun s hs heq => Option.some.inj heq ▸ hs
      | cons m ms ih =>
        intro s hs heq
        rw [List.foldlM_cons] at heq
        obtain ⟨s₁, hs₁, hrest⟩ := Option.bind_eq_some_iff.mp heq
        exact ih s₁ (hmember hs hs₁) hrest
    cases v with
    | object ms => exact hmembers ms s hs hdecode
    | null => exact Option.some.inj hdecode ▸ hs
    | _ => cases hdecode

end Keeps

end JsonReader
