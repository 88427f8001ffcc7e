import K8sAgent.Lib.JsonText

set_option relaxedAutoImplicit false
set_option autoImplicit false

/-!
# Reading JSON texts of objects

A machine that reads JSON texts byte by byte and tells when the outermost object has ended. It
accepts more than JSON, but refuses enough to show that texts written one after another do not run
together into one: what is left of texts that were cut short, and joined, is an object only if it
is one whole text.

## Main definitions

* `JsonText.State`, `JsonText.step`, `JsonText.run` — the machine.
* `JsonText.Lexes` — a text is read as a value.
* `JsonText.Whole` — some bytes are one whole object.

## Main results

* `JsonText.run_object` — an object is read to its end.
* `JsonText.unfinished_run` — an object that has been begun and not ended does not end with what
  begins another one.
* `JsonText.eq_singleton_of_run_flatten` — beginnings of objects, joined, are one whole object or
  none.
-/

namespace JsonText

open Encoding

/-! ## The machine -/

/-- What may come next inside an object. -/
inductive Mode : Type where
  /-- A key. -/
  | key
  /-- More of a string. -/
  | str
  /-- The character after a backslash. -/
  | esc
  /-- The end of a key or a value. -/
  | after
  /-- A value. -/
  | value
  /-- More of a number, or its end. -/
  | num
  deriving DecidableEq

/-- The states: before the text, inside `depth + 1` objects, at the end of the outermost, or past
anything that can be an object. -/
inductive State : Type where
  /-- Before the text. -/
  | start
  /-- Inside `depth + 1` objects. -/
  | inside (depth : ℕ) (mode : Mode)
  /-- The outermost object has ended. -/
  | done
  /-- The text is no object. -/
  | bad
  deriving DecidableEq

/-- After a value: the next key, or the end of the object. -/
def separator (d : ℕ) (b : UInt8) : State :=
  if b = 44 then .inside d .key
  else if b = 125 then match d with
    | 0 => .done
    | d + 1 => .inside d .after
  else .bad

/-- The machine reads one byte. -/
def step : State → UInt8 → State
  | .start, b => if b = 123 then .inside 0 .key else .bad
  | .inside d .key, b => if b = 34 then .inside d .str else .bad
  | .inside d .str, b =>
    if b = 34 then .inside d .after else if b = 92 then .inside d .esc else .inside d .str
  | .inside d .esc, _ => .inside d .str
  | .inside d .after, b => if b = 58 then .inside d .value else separator d b
  | .inside d .value, b =>
    if b = 34 then .inside d .str
    else if b = 123 then .inside (d + 1) .key
    else if b = 45 ∨ (48 ≤ b ∧ b ≤ 57) then .inside d .num
    else .bad
  | .inside d .num, b => if 48 ≤ b ∧ b ≤ 57 then .inside d .num else separator d b
  | .done, _ => .bad
  | .bad, _ => .bad

/-- The state after some bytes. -/
def run (s : State) (bs : Bytes) : State := bs.foldl step s

@[simp] lemma run_cons (s : State) (b : UInt8) (bs : Bytes) :
    run s (b :: bs) = run (step s b) bs := rfl

@[simp] lemma run_append (s : State) (bs bs' : Bytes) :
    run s (bs ++ bs') = run (run s bs) bs' := List.foldl_append

@[simp] lemma run_bad (bs : Bytes) : run .bad bs = .bad := by
  induction bs with
  | nil => rfl
  | cons b bs ih => exact ih

/-- Bytes that neither end a string nor begin an escape. -/
lemma run_str {d : ℕ} {bs : Bytes} (h : ∀ b ∈ bs, b ≠ 34 ∧ b ≠ 92) :
    run (.inside d .str) bs = .inside d .str := by
  induction bs with
  | nil => rfl
  | cons b bs ih =>
    obtain ⟨h₁, h₂⟩ := h b List.mem_cons_self
    rw [run_cons, step, if_neg h₁, if_neg h₂]
    exact ih fun x hx => h x (List.mem_cons_of_mem b hx)

/-- A character of a string is read as part of it. -/
lemma run_escapeChar (d : ℕ) (c : Char) :
    run (.inside d .str) (bytes (escapeChar c)) = .inside d .str := by
  have hquote : ('"' : Char).toNat < 128 := by decide
  have hback : ('\\' : Char).toNat < 128 := by decide
  rcases escapeChar_cases c with ⟨x, hc, h⟩ | ⟨-, -, h⟩ | ⟨hc, -, h⟩ <;> rw [h]
  · rw [bytes_cons_of_ascii hback, bytes_cons_of_ascii (unescape_of_shortEscape hc).2.2.2]
    rfl
  · rw [bytes_cons_of_ascii hback, bytes_cons_of_ascii (by decide)]
    show run (.inside d .str) (bytes (hexDigits c.toNat 4)) = _
    refine run_str fun b hb => ⟨?_, ?_⟩
    · exact ne_of_mem_bytes hquote (fun hx => (mem_hexDigits hx).2.2.1 rfl) hb
    · exact ne_of_mem_bytes hback (fun hx => (mem_hexDigits hx).2.2.2 rfl) hb
  · obtain ⟨h₁, h₂⟩ := ne_of_shortEscape hc
    refine run_str fun b hb => ⟨?_, ?_⟩
    · exact ne_of_mem_bytes hquote (fun hx => h₁ (List.mem_singleton.mp hx).symm) hb
    · exact ne_of_mem_bytes hback (fun hx => h₂ (List.mem_singleton.mp hx).symm) hb

/-- A string is read to its end, from where a key or a value may come. -/
lemma run_quoted {d : ℕ} {m : Mode} (hm : m = .key ∨ m = .value) (s : String) :
    run (.inside d m) (bytes (quoted s)) = .inside d .after := by
  have hchars : ∀ cs : List Char,
      run (.inside d .str) (bytes (cs.flatMap escapeChar)) = .inside d .str := by
    intro cs
    induction cs with
    | nil => rfl
    | cons c cs ih => rw [List.flatMap_cons, bytes_append, run_append, run_escapeChar, ih]
  have hopen : step (.inside d m) 34 = .inside d .str := by
    rcases hm with rfl | rfl <;> rfl
  rw [quoted, bytes_cons_of_ascii (by decide), bytes_append, run_cons]
  show run (step (.inside d m) 34) _ = _
  rw [hopen, run_append, hchars, bytes_cons_of_ascii (by decide)]
  rfl

/-- The machine reads the text as a value and is then where the value may end. -/
def Lexes (v : Text) : Prop :=
  ∀ d, run (.inside d .value) (bytes v) = .inside d .after ∨
    run (.inside d .value) (bytes v) = .inside d .num

lemma lexes_quoted (s : String) : Lexes (quoted s) := fun _ => .inl (run_quoted (.inr rfl) s)

/-- Digits are read as more of a number. -/
lemma run_digits {d : ℕ} {m : Mode} (hm : m = .value ∨ m = .num) {t : Text}
    (ht : ∀ c ∈ t, c.isDigit = true) (hne : t ≠ []) :
    run (.inside d m) (bytes t) = .inside d .num := by
  induction t generalizing m with
  | nil => exact absurd rfl hne
  | cons c t ih =>
    obtain ⟨-, hlow, hhigh⟩ := ofNat_toNat_of_isDigit (ht c List.mem_cons_self)
    have hc : c.toNat < 128 := by
      have : 48 ≤ c.toNat ∧ c.toNat ≤ 57 := by
        simpa [Char.isDigit, UInt32.le_iff_toNat_le] using ht c List.mem_cons_self
      omega
    have hdigit : 48 ≤ UInt8.ofNat c.toNat ∧ UInt8.ofNat c.toNat ≤ 57 :=
      ⟨UInt8.le_iff_toNat_le.mpr hlow, UInt8.le_iff_toNat_le.mpr hhigh⟩
    have hstep : step (.inside d m) (UInt8.ofNat c.toNat) = .inside d .num := by
      rcases hm with rfl | rfl
      · rw [step, if_neg, if_neg, if_pos (.inr hdigit)]
        · intro h
          rw [h] at hhigh
          exact absurd hhigh (by decide)
        · intro h
          rw [h] at hlow
          exact absurd hlow (by decide)
      · rw [step, if_pos hdigit]
    rw [bytes_cons_of_ascii hc, run_cons, hstep]
    cases t with
    | nil => rfl
    | cons c' t =>
      exact ih (.inr rfl) (fun x hx => ht x (List.mem_cons_of_mem c hx)) (List.cons_ne_nil c' t)

lemma lexes_number (n : ℤ) : Lexes (number n) := by
  have hdigits : ∀ c ∈ Nat.toDigits 10 n.natAbs, c.isDigit = true :=
    fun c hc => Nat.isDigit_of_mem_toDigits (by omega) (by omega) hc
  intro d
  right
  rw [number, bytes_append]
  split_ifs
  · rw [bytes_cons_of_ascii (by decide), bytes_nil, run_append]
    exact run_digits (.inr rfl) hdigits Nat.toDigits_ne_nil
  · exact run_digits (.inl rfl) hdigits Nat.toDigits_ne_nil

/-- A value is read to the separator after it. -/
lemma Lexes.run_separator {v : Text} (hv : Lexes v) (d : ℕ) {b : UInt8} (hb : b = 44 ∨ b = 125) :
    run (.inside d .value) (bytes v ++ [b]) = separator d b := by
  rw [run_append]
  rcases hv d with h | h <;> rw [h] <;> rcases hb with rfl | rfl <;> rfl

/-- A key and its value are read to the separator after them. -/
lemma run_member {m : String × Text} (hm : Lexes m.2) (d : ℕ) {b : UInt8}
    (hb : b = 44 ∨ b = 125) :
    run (.inside d .key) (bytes (member m) ++ [b]) = separator d b := by
  rw [member, bytes_append, bytes_cons_of_ascii (by decide), List.append_assoc, run_append,
    run_quoted (.inl rfl)]
  exact hm.run_separator d hb

/-- The keys and values of an object are read to the brace after them.

**Proof sketch.** Induction on the members after the first. -/
lemma run_members {ms : List (String × Text)} (d : ℕ) :
    ∀ {m : String × Text}, Lexes m.2 → (∀ m' ∈ ms, Lexes m'.2) →
      run (.inside d .key) (bytes (member m ++ ms.flatMap fun m => ',' :: member m) ++ [125]) =
        separator d 125 := by
  induction ms with
  | nil =>
    intro m hm _
    rw [List.flatMap_nil, List.append_nil]
    exact run_member hm d (.inr rfl)
  | cons m' ms ih =>
    intro m hm hms
    have hfirst : run (.inside d .key) (bytes (member m) ++ [44]) = .inside d .key :=
      run_member hm d (.inl rfl)
    have hrest := ih (hms m' List.mem_cons_self) fun x hx => hms x (List.mem_cons_of_mem m' hx)
    rw [List.flatMap_cons, bytes_append, List.cons_append, bytes_cons_of_ascii (by decide)]
    show run _ (bytes (member m) ++ 44 :: _ ++ [125]) = _
    rw [List.append_assoc, List.cons_append, ← List.singleton_append, ← List.append_assoc,
      run_append, hfirst]
    exact hrest

/-- The bytes of an object are its members, with commas between them, in braces. -/
lemma bytes_object (m : String × Text) (ms : List (String × Text)) :
    bytes (object m ms) =
      123 :: (bytes (member m ++ ms.flatMap fun m => ',' :: member m) ++ [125]) := by
  rw [object, bytes_cons_of_ascii (by decide), bytes_append, bytes_cons_of_ascii (by decide)]
  rfl

/-- The text of an object is that of a value, if the texts of its members are. -/
lemma lexes_object {m : String × Text} {ms : List (String × Text)} (hm : Lexes m.2)
    (hms : ∀ m' ∈ ms, Lexes m'.2) : Lexes (object m ms) := by
  intro d
  rw [bytes_object, run_cons]
  exact .inl (run_members (d + 1) hm hms)

/-- **An object is read to its end** and no sooner, if the texts of its members are those of values.
-/
theorem run_object {m : String × Text} {ms : List (String × Text)} (hm : Lexes m.2)
    (hms : ∀ m' ∈ ms, Lexes m'.2) : run .start (bytes (object m ms)) = .done := by
  rw [bytes_object, run_cons]
  exact run_members 0 hm hms

/-! ## Joined beginnings of objects -/

/-- The bytes are those of an object, whose first key begins with an ordinary character. -/
structure Whole (t : Bytes) : Prop where
  /-- The object ends with the bytes. -/
  done : run .start t = .done
  /-- The bytes begin with a brace, a quotation mark and a character that is no separator. -/
  begins : ∃ b rest, t = 123 :: 34 :: b :: rest ∧ b ≠ 58 ∧ b ≠ 44 ∧ b ≠ 125

/-- The machine has begun a text that is not an object yet, or will never be one. -/
def Unfinished : State → Prop
  | .inside _ _ => True
  | .bad => True
  | _ => False

/-- The states of a text read as a value inside `d + 1` objects. -/
def shift (d : ℕ) : State → State
  | .inside k m => .inside (k + d + 1) m
  | .done => .inside d .after
  | s => s

lemma separator_shift (d k : ℕ) (b : UInt8) :
    separator (k + d + 1) b = shift d (separator k b) := by
  unfold separator
  split_ifs
  · rfl
  · cases k with
    | zero => simp [shift]
    | succ k =>
      simp only [shift]
      congr 1
      omega
  · rfl

/-- The machine does not go back to the start. -/
lemma step_ne_start (s : State) (b : UInt8) : step s b ≠ .start := by
  have hsep : ∀ d, separator d b ≠ .start := by
    intro d
    unfold separator
    split_ifs
    · exact State.noConfusion
    · cases d <;> exact State.noConfusion
    · exact State.noConfusion
  cases s with
  | start =>
    rw [step]
    split_ifs <;> exact State.noConfusion
  | inside d m =>
    cases m <;> simp only [step] <;> (try split_ifs) <;>
      first | exact hsep d | exact State.noConfusion
  | done => exact State.noConfusion
  | bad => exact State.noConfusion

lemma run_ne_start {s : State} (hs : s ≠ .start) (bs : Bytes) : run s bs ≠ .start := by
  induction bs generalizing s with
  | nil => exact hs
  | cons b bs ih => exact ih (step_ne_start s b)

/-- Inside other objects a text is read as on its own. -/
lemma step_shift (d k : ℕ) (m : Mode) (b : UInt8) :
    step (shift d (.inside k m)) b = shift d (step (.inside k m) b) := by
  cases m with
  | key =>
    simp only [shift, step]
    split_ifs <;> rfl
  | str =>
    simp only [shift, step]
    split_ifs <;> rfl
  | esc => rfl
  | after =>
    simp only [shift, step]
    split_ifs
    · rfl
    · exact separator_shift d k b
  | value =>
    simp only [shift, step]
    split_ifs
    · rfl
    · show State.inside (k + d + 1 + 1) .key = .inside (k + 1 + d + 1) .key
      congr 1
      omega
    · rfl
    · rfl
  | num =>
    simp only [shift, step]
    split_ifs
    · rfl
    · exact separator_shift d k b

/-- A text that is not refused on its own is read to the same place inside other objects. -/
lemma run_shift (d : ℕ) {bs : Bytes} :
    ∀ {s : State}, s ≠ .start → run s bs ≠ .bad → run (shift d s) bs = shift d (run s bs) := by
  induction bs with
  | nil => exact fun _ _ => rfl
  | cons b bs ih =>
    intro s hs hrun
    rw [run_cons] at hrun ⊢
    cases s with
    | start => exact absurd rfl hs
    | inside k m =>
      rw [step_shift, run_cons]
      exact ih (step_ne_start _ b) hrun
    | done => exact absurd (run_bad bs) hrun
    | bad => exact absurd (run_bad bs) hrun

/-- A beginning of an object is not refused. -/
lemma Whole.run_ne_bad {t p : Bytes} (ht : Whole t) (hp : p <+: t) : run .start p ≠ .bad := by
  intro hbad
  obtain ⟨more, rfl⟩ := hp
  have hdone := ht.done
  rw [run_append, hbad, run_bad] at hdone
  cases hdone

/-- A beginning of an object that comes inside a string leaves a string, ends it, or is refused. -/
lemma unfinished_run_str {d : ℕ} {b : UInt8} {rest p : Bytes}
    (hb : b ≠ 58 ∧ b ≠ 44 ∧ b ≠ 125) (hp : p <+: 34 :: b :: rest) :
    Unfinished (run (.inside d .str) p) := by
  cases p with
  | nil => trivial
  | cons x p =>
    obtain ⟨rfl, hp'⟩ := List.cons_prefix_cons.mp hp
    cases p with
    | nil => trivial
    | cons y p =>
      obtain ⟨rfl, -⟩ := List.cons_prefix_cons.mp hp'
      have hrefused : step (.inside d .after) y = .bad := by
        simp [step, separator, hb]
      show Unfinished (run (step (.inside d .after) y) p)
      rw [hrefused, run_bad]
      trivial

/-- What is unfinished stays so, whatever beginning of an object comes next.

**Proof sketch.** Only a value, a string or an escape may go on with a brace. A text that comes as a
value ends, if at all, inside the object it is a value in; one that comes inside a string ends the
string with its first quotation mark, and what follows is refused. -/
theorem unfinished_run {s : State} (hs : Unfinished s) {t p : Bytes} (ht : Whole t) (hp : p <+: t)
    (hne : p ≠ []) : Unfinished (run s p) := by
  obtain ⟨b, rest, rfl, hb⟩ := ht.begins
  obtain ⟨x, p, rfl⟩ := List.exists_cons_of_ne_nil hne
  obtain ⟨rfl, hp'⟩ := List.cons_prefix_cons.mp hp
  have hbad : Unfinished (run .bad p) := by
    rw [run_bad]
    trivial
  cases s with
  | start => exact hs.elim
  | done => exact hs.elim
  | bad => exact hbad
  | inside d m =>
    cases m with
    | key => exact hbad
    | after => exact hbad
    | num => exact hbad
    | str =>
      show Unfinished (run (.inside d .str) p)
      exact unfinished_run_str hb hp'
    | esc =>
      show Unfinished (run (.inside d .str) p)
      exact unfinished_run_str hb hp'
    | value =>
      have hrun : run (.inside 0 .key) p ≠ .bad := ht.run_ne_bad hp
      have hstart : run (.inside 0 .key) p ≠ .start := run_ne_start State.noConfusion p
      have hshift : run (.inside (d + 1) .key) p = shift d (run (.inside 0 .key) p) := by
        rw [← run_shift d State.noConfusion hrun, shift, Nat.zero_add]
      show Unfinished (run (.inside (d + 1) .key) p)
      rw [hshift]
      cases h : run (.inside 0 .key) p with
      | start => exact absurd h hstart
      | bad => exact absurd h hrun
      | inside k m => trivial
      | done => trivial

/-- What is unfinished stays so, whatever beginnings of objects come next. -/
lemma unfinished_run_flatten {parts : List Bytes}
    (hparts : ∀ p ∈ parts, p ≠ [] ∧ ∃ t, Whole t ∧ p <+: t) :
    ∀ {s : State}, Unfinished s → Unfinished (run s parts.flatten) := by
  induction parts with
  | nil => exact id
  | cons p parts ih =>
    intro s hs
    obtain ⟨hne, t, ht, hp⟩ := hparts p List.mem_cons_self
    rw [List.flatten_cons, run_append]
    apply ih fun q hq => hparts q (List.mem_cons_of_mem p hq)
    exact unfinished_run hs ht hp hne

/-- An object that lacks something at its end is unfinished. -/
lemma Whole.unfinished {p more : Bytes} {b : UInt8} (ht : Whole (p ++ b :: more)) (hne : p ≠ []) :
    Unfinished (run .start p) := by
  have hdone := ht.done
  rw [run_append, run_cons] at hdone
  cases h : run .start p with
  | inside d m => trivial
  | bad => trivial
  | done =>
    rw [h] at hdone
    exact absurd ((run_bad more).symm.trans hdone) State.noConfusion
  | start =>
    obtain ⟨x, p, rfl⟩ := List.exists_cons_of_ne_nil hne
    exact absurd h (run_ne_start (step_ne_start _ x) p)

/-- **Joined beginnings of objects.** Bytes put together from beginnings of objects, none of them
empty, are read as an object only if they are one object, whole.

**Proof sketch.** If the first beginning is a whole object, anything after it is refused. If not,
the machine is inside an object, and `unfinished_run_flatten` carries this over what follows. -/
theorem eq_singleton_of_run_flatten {parts : List Bytes}
    (hparts : ∀ p ∈ parts, p ≠ [] ∧ ∃ t, Whole t ∧ p <+: t)
    (hrun : run .start parts.flatten = .done) : ∃ p, parts = [p] ∧ Whole p := by
  cases parts with
  | nil => cases hrun
  | cons p parts =>
    obtain ⟨hne, t, ht, more, rfl⟩ := hparts p List.mem_cons_self
    have hrest : ∀ q ∈ parts, q ≠ [] ∧ ∃ t, Whole t ∧ q <+: t :=
      fun q hq => hparts q (List.mem_cons_of_mem p hq)
    rw [List.flatten_cons, run_append] at hrun
    cases more with
    | nil =>
      rw [List.append_nil] at ht
      rw [ht.done] at hrun
      cases parts with
      | nil => exact ⟨p, rfl, ht⟩
      | cons q parts =>
        obtain ⟨x, q, rfl⟩ := List.exists_cons_of_ne_nil (hrest _ List.mem_cons_self).1
        rw [List.flatten_cons, List.cons_append, run_cons] at hrun
        exact absurd ((run_bad _).symm.trans hrun) State.noConfusion
    | cons x more =>
      have hstuck := unfinished_run_flatten hrest (ht.unfinished hne)
      rw [hrun] at hstuck
      exact hstuck.elim

end JsonText
