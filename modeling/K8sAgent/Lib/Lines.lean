import Mathlib.Data.List.Basic

set_option relaxedAutoImplicit false
set_option autoImplicit false

/-!
# Texts as lists of lines

A text is determined by its lines, and texts joined by line feeds have the lines of the parts in
a row. How a list of lines falls into parts is a question about arrangements of a list in nonempty
blocks: with as many lines as blocks there is one arrangement, with more there are others.

## Main definitions

* `Lines.lines`, `Lines.unlines` — the lines of a text, and the text with given lines.

## Main results

* `Lines.lines_intercalate` — the lines of texts joined by line feeds.
* `Lines.exists_cut_tail`, `Lines.exists_cut_dropLast` — a text is cut at one of its lines, and what
  is cut off goes to another text.
* `Lines.blocks_eq` — one arrangement in blocks if there are as many entries as blocks.
* `Lines.exists_regroup` — another arrangement in two or more blocks if there are more entries.
-/

namespace Lines

/-! ## Lines -/

/-- The lines of a text; the empty text is one empty line. -/
def lines (s : String) : List (List Char) := s.toList.splitOn '\n'

/-- The text with given lines. -/
def unlines (ls : List (List Char)) : String := String.ofList (['\n'].intercalate ls)

lemma lines_ne_nil (s : String) : lines s ≠ [] := List.splitOn_ne_nil _ _

@[simp] lemma unlines_lines (s : String) : unlines (lines s) = s := by
  rw [unlines, lines, List.intercalate_splitOn, String.ofList_toList]

/-- A text is determined by its lines. -/
lemma lines_injective : Function.Injective lines :=
  Function.LeftInverse.injective unlines_lines

/-- Text without line feed is one line. -/
lemma lines_of_not_mem {s : String} (h : '\n' ∉ s.toList) : lines s = [s.toList] :=
  List.splitOn_eq_singleton h

/-- A line has no line feed. -/
lemma not_mem_of_mem_lines {s : String} {l : List Char} (hl : l ∈ lines s) : '\n' ∉ l := by
  unfold lines at hl
  generalize s.toList = text at hl
  induction text generalizing l with
  | nil =>
    rw [List.splitOn_nil, List.mem_singleton] at hl
    simp [hl]
  | cons c cs ih =>
    rw [List.splitOn_cons_eq_if_modifyHead] at hl
    cases hsplit : cs.splitOn '\n' with
    | nil => exact absurd hsplit (List.splitOn_ne_nil _ _)
    | cons first rest =>
      rw [hsplit] at hl ih
      by_cases hc : c = '\n'
      · rw [if_pos (by simpa using hc), List.mem_cons] at hl
        rcases hl with rfl | hl
        · simp
        · exact ih hl
      · rw [if_neg (by simpa using hc), List.modifyHead_cons, List.mem_cons] at hl
        rcases hl with rfl | hl
        · have := ih List.mem_cons_self
          simp [this, Ne.symm hc]
        · exact ih (List.mem_cons_of_mem _ hl)

/-- The text with given lines has these lines. -/
lemma lines_unlines {ls : List (List Char)} (hne : ls ≠ []) (h : ∀ l ∈ ls, '\n' ∉ l) :
    lines (unlines ls) = ls := by
  rw [lines, unlines, String.toList_ofList, List.splitOn_intercalate '\n' h hne]

/-- The lines of texts joined by line feeds. -/
theorem lines_intercalate {fs : List String} (hne : fs ≠ []) :
    lines ("\n".intercalate fs) = (fs.map lines).flatten := by
  induction fs with
  | nil => exact absurd rfl hne
  | cons f fs ih =>
    cases fs with
    | nil => simp
    | cons g fs =>
      rw [String.intercalate_cons_cons, List.map_cons, List.flatten_cons, ← ih (by simp)]
      simp only [lines, String.toList_append, show "\n".toList = ['\n'] from rfl,
        List.append_assoc, List.singleton_append]
      exact List.splitOn_append_cons_self _ _

/-- Text with a line feed has several lines. -/
lemma one_lt_length_lines {s : String} (h : '\n' ∈ s.toList) : 1 < (lines s).length := by
  obtain ⟨a, b, hab⟩ := List.append_of_mem h
  have ha := List.length_pos_iff.mpr (List.splitOn_ne_nil '\n' a)
  have hb := List.length_pos_iff.mpr (List.splitOn_ne_nil '\n' b)
  rw [lines, hab, List.splitOn_append_cons_self, List.length_append]
  omega

/-- **Moving a mark forward.** A line of a text other than the first leaves a text before it, and
what follows it can be put before another text, with a line `m` between. -/
theorem exists_cut_tail {s : String} {l m : List Char} (hl : l ∈ (lines s).tail) (hm : '\n' ∉ m)
    (t : String) : ∃ before after rest, lines s = lines before ++ l :: rest ∧
      lines after = rest ++ m :: lines t := by
  obtain ⟨first, tail, hs⟩ := List.exists_cons_of_ne_nil (lines_ne_nil s)
  rw [hs, List.tail_cons] at hl
  obtain ⟨pre, rest, rfl⟩ := List.append_of_mem hl
  have hfeed : ∀ k ∈ first :: (pre ++ l :: rest), '\n' ∉ k := fun k hk =>
    not_mem_of_mem_lines (hs ▸ hk)
  refine ⟨unlines (first :: pre), unlines (rest ++ m :: lines t), rest, ?_, ?_⟩
  · rw [lines_unlines (by simp) fun k hk => hfeed k ?_, hs, List.cons_append]
    rcases List.mem_cons.mp hk with rfl | hk
    · exact List.mem_cons_self
    · exact List.mem_cons_of_mem _ (List.mem_append_left _ hk)
  · refine lines_unlines (by simp) fun k hk => ?_
    rcases List.mem_append.mp hk with hk | hk
    · exact hfeed k (by simp [hk])
    rcases List.mem_cons.mp hk with rfl | hk
    · exact hm
    · exact not_mem_of_mem_lines hk

/-- **Moving a mark backward.** A line of a text other than the last leaves a text after it, and
what precedes it can be put after another text, with a line `m` between. -/
theorem exists_cut_dropLast {s : String} {l m : List Char} (hl : l ∈ (lines s).dropLast)
    (hm : '\n' ∉ m) (t : String) : ∃ before after rest, lines s = rest ++ l :: lines after ∧
      lines before = lines t ++ m :: rest := by
  obtain ⟨rest, post, hcut⟩ := List.append_of_mem hl
  have hs := List.dropLast_append_getLast (lines_ne_nil s)
  rw [hcut] at hs
  generalize (lines s).getLast (lines_ne_nil s) = last at hs
  have hfeed : ∀ k ∈ rest ++ l :: post ++ [last], '\n' ∉ k := fun k hk =>
    not_mem_of_mem_lines (hs ▸ hk)
  refine ⟨unlines (lines t ++ m :: rest), unlines (post ++ [last]), rest, ?_, ?_⟩
  · rw [lines_unlines (by simp) fun k hk => hfeed k ?_, ← hs, List.append_assoc, List.cons_append]
    rw [List.append_assoc, List.cons_append]
    exact List.mem_append_right _ (List.mem_cons_of_mem _ hk)
  · refine lines_unlines (by simp) fun k hk => ?_
    rcases List.mem_append.mp hk with hk | hk
    · exact not_mem_of_mem_lines hk
    rcases List.mem_cons.mp hk with rfl | hk
    · exact hm
    · exact hfeed k (by simp [hk])
/-! ## Arrangements in blocks -/

section Blocks

variable {α : Type*} {bs cs : List (List α)}

/-- Nonempty blocks have at least as many entries as there are blocks. -/
lemma length_le_length_flatten (hb : ∀ b ∈ bs, b ≠ []) : bs.length ≤ bs.flatten.length := by
  induction bs with
  | nil => simp
  | cons b bs ih =>
    have hpos := List.length_pos_iff.mpr (hb b List.mem_cons_self)
    have := ih fun c hc => hb c (List.mem_cons_of_mem _ hc)
    rw [List.flatten_cons, List.length_append, List.length_cons]
    omega

/-- Nonempty blocks, one of them with two entries, have more entries than there are blocks. -/
lemma length_lt_length_flatten (hb : ∀ b ∈ bs, b ≠ []) {b : List α} (hmem : b ∈ bs)
    (hlong : 1 < b.length) : bs.length < bs.flatten.length := by
  obtain ⟨pre, post, rfl⟩ := List.append_of_mem hmem
  have hpre := length_le_length_flatten fun c hc => hb c (List.mem_append_left _ hc)
  have hpost := length_le_length_flatten fun c hc =>
    hb c (List.mem_append_right _ (List.mem_cons_of_mem _ hc))
  simp only [List.flatten_append, List.flatten_cons, List.length_append, List.length_cons]
  omega

/-- Nonempty blocks with no more entries than blocks are determined by their entries. -/
theorem blocks_eq (hb : ∀ b ∈ bs, b ≠ []) (hc : ∀ c ∈ cs, c ≠ []) (hlen : bs.length = cs.length)
    (hflat : bs.flatten = cs.flatten) (hsize : bs.flatten.length ≤ bs.length) : bs = cs := by
  induction bs generalizing cs with
  | nil => exact (List.length_eq_zero_iff.mp hlen.symm).symm
  | cons b bs ih =>
    cases cs with
    | nil => simp at hlen
    | cons c cs =>
      have hb' := fun x hx => hb x (List.mem_cons_of_mem _ hx)
      have hc' := fun x hx => hc x (List.mem_cons_of_mem _ hx)
      have hbpos := List.length_pos_iff.mpr (hb b List.mem_cons_self)
      have hcpos := List.length_pos_iff.mpr (hc c List.mem_cons_self)
      have hbs := length_le_length_flatten hb'
      have hcs := length_le_length_flatten hc'
      have hlen' := congrArg List.length hflat
      simp only [List.flatten_cons, List.length_append, List.length_cons] at hlen hsize hlen'
      -- the first blocks are single entries
      obtain ⟨rfl, hrest⟩ := List.append_inj hflat (by omega)
      rw [ih hb' hc' (by omega) hrest (by omega)]

/-- Two or more nonempty blocks with more entries than blocks have another arrangement.

**Proof sketch.** If the first block has two entries, its last ones can go to the second; if the
second has two, its first one can go to the first. If both have one entry, the blocks after the
first have another arrangement. -/
theorem exists_regroup (hb : ∀ b ∈ bs, b ≠ []) (hlen : 2 ≤ bs.length)
    (hlong : bs.length < bs.flatten.length) :
    ∃ cs, (∀ c ∈ cs, c ≠ []) ∧ cs.length = bs.length ∧ cs.flatten = bs.flatten ∧ cs ≠ bs := by
  induction bs with
  | nil => simp at hlen
  | cons b bs ih =>
    have hb' := fun x hx => hb x (List.mem_cons_of_mem _ hx)
    obtain ⟨x, b', rfl⟩ := List.exists_cons_of_ne_nil (hb b List.mem_cons_self)
    cases bs with
    | nil => simp at hlen
    | cons c bs =>
      obtain ⟨y, c', rfl⟩ := List.exists_cons_of_ne_nil (hb' c List.mem_cons_self)
      have hbs := fun z hz => hb' z (List.mem_cons_of_mem _ hz)
      cases b' with
      | cons x' b' =>
        refine ⟨[x] :: (x' :: b' ++ y :: c') :: bs, ?_, by simp, by simp, by simp⟩
        intro z hz
        rcases List.mem_cons.mp hz with rfl | hz
        · simp
        · rcases List.mem_cons.mp hz with rfl | hz
          · simp
          · exact hbs z hz
      | nil =>
        cases c' with
        | cons y' c' =>
          refine ⟨[x, y] :: (y' :: c') :: bs, ?_, by simp, by simp, by simp⟩
          intro z hz
          rcases List.mem_cons.mp hz with rfl | hz
          · simp
          · rcases List.mem_cons.mp hz with rfl | hz
            · simp
            · exact hbs z hz
        | nil =>
          have hlong' : ([y] :: bs).length < ([y] :: bs).flatten.length := by
            simpa using hlong
          have hlen' : 2 ≤ ([y] :: bs).length := by
            cases bs with
            | nil => simp at hlong'
            | cons d bs => simp
          obtain ⟨cs, hcs, hcslen, hflat, hne⟩ := ih hb' hlen' hlong'
          refine ⟨[x] :: cs, ?_, by simp [hcslen], by simp [hflat], by simpa using hne⟩
          intro z hz
          rcases List.mem_cons.mp hz with rfl | hz
          · simp
          · exact hcs z hz

end Blocks

/-- Two or more texts of which one has a line feed share their lines with other texts, as many. -/
lemma exists_other_texts {fs : List String} (hlen : 2 ≤ fs.length) {f : String} (hf : f ∈ fs)
    (hfeed : '\n' ∈ f.toList) :
    ∃ gs : List String, gs.length = fs.length ∧
      (gs.map lines).flatten = (fs.map lines).flatten ∧ gs ≠ fs := by
  have hblocks : ∀ b ∈ fs.map lines, b ≠ [] := by
    intro b hb
    obtain ⟨g, -, rfl⟩ := List.mem_map.mp hb
    exact lines_ne_nil g
  obtain ⟨cs, hcs, hcslen, hflat, hne⟩ := exists_regroup hblocks (by simpa using hlen)
    (length_lt_length_flatten hblocks (List.mem_map_of_mem hf) (one_lt_length_lines hfeed))
  -- the blocks of the other arrangement are the lines of texts
  have htexts : (cs.map unlines).map lines = cs := by
    rw [List.map_map]
    refine (List.map_congr_left fun c hc => ?_).trans (List.map_id cs)
    refine lines_unlines (hcs c hc) fun l hl => ?_
    have hmem : l ∈ (fs.map lines).flatten := hflat ▸ List.mem_flatten.mpr ⟨c, hc, hl⟩
    obtain ⟨b, hb, hlb⟩ := List.mem_flatten.mp hmem
    obtain ⟨g, -, rfl⟩ := List.mem_map.mp hb
    exact not_mem_of_mem_lines hlb
  refine ⟨cs.map unlines, by simpa using hcslen, by rw [htexts, hflat], fun heq => hne ?_⟩
  rw [← htexts, heq]

end Lines
