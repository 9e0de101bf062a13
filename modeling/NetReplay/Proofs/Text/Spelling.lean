import Mathlib.Data.List.Forall2
import NetReplay.Text.Blank

/-!
# Spellings of a word

Texts are spellings of the same word when they are alike but for the blanks around them
and the case of ASCII letters (`Respelled`). Folding brings a text to one of its spellings:
two texts have the same fold if and only if each is a respelling of the other
(`fold_eq_fold_iff`). So a text that is compared with words only once it is folded may be
spelled in any way (`spells_iff`).

Both parts of a folding leave the other alone, because the case of a letter has no part in
whether it is blank (`blank_lowerChar`).
-/

namespace NetReplay

namespace Text

/-! ## Case -/

/-- The first character is an ASCII capital, and the second one is its small letter. -/
def Lowers (c d : Char) : Prop := ('A' ≤ c ∧ c ≤ 'Z') ∧ d.toNat = c.toNat + 32

/-- The characters are the same, or they differ in the case of an ASCII letter. -/
def SameLetter (c d : Char) : Prop := c = d ∨ Lowers c d ∨ Lowers d c

theorem capital_iff (c : Char) : ('A' ≤ c ∧ c ≤ 'Z') ↔ 65 ≤ c.toNat ∧ c.toNat ≤ 90 := Iff.rfl

theorem toNat_lowerChar (c : Char) :
    (lowerChar c).toNat = if 65 ≤ c.toNat ∧ c.toNat ≤ 90 then c.toNat + 32 else c.toNat := by
  rw [lowerChar]
  simp only [capital_iff]
  split
  · have hvalid : (c.toNat + 32).isValidChar := Or.inl (by omega)
    rw [Char.ofNat, dif_pos hvalid]
    rfl
  · rfl

theorem lowerChar_eq_iff (c d : Char) : lowerChar c = lowerChar d ↔ SameLetter c d := by
  rw [SameLetter, Lowers, Lowers, capital_iff, capital_iff, ← Char.toNat_inj, ← Char.toNat_inj,
    toNat_lowerChar, toNat_lowerChar]
  split
  · split
    · omega
    · omega
  · split
    · omega
    · omega

/-- Letters are not blank, whatever their case. -/
theorem blank_lowerChar (c : Char) : blank (lowerChar c) = blank c := by
  simp only [blank, toNat_lowerChar]
  split
  · rw [Bool.eq_iff_iff]
    simp only [Bool.or_eq_true, Bool.and_eq_true, decide_eq_true_eq, beq_iff_eq]
    omega
  · rfl

theorem map_lowerChar_eq_iff (cs ds : List Char) :
    cs.map lowerChar = ds.map lowerChar ↔ List.Forall₂ SameLetter cs ds := by
  rw [← List.forall₂_eq_eq_eq, List.forall₂_map_left_iff, List.forall₂_map_right_iff]
  simp only [lowerChar_eq_iff]

/-! ## Blanks at the ends -/

/-- There are only blanks. -/
def Blanks (cs : List Char) : Prop := ∀ c ∈ cs, blank c = true

/-- The text is these characters with blanks around them. -/
def Pads (core : List Char) (text : String) : Prop :=
  ∃ front back, Blanks front ∧ Blanks back ∧ text.toList = front ++ core ++ back

theorem blanks_takeWhile (cs : List Char) : Blanks (cs.takeWhile blank) :=
  List.all_eq_true.mp List.all_takeWhile

theorem Blanks.reverse {cs : List Char} (h : Blanks cs) : Blanks cs.reverse :=
  fun c hc => h c (List.mem_reverse.mp hc)

theorem pads_trimChars (text : String) : Pads (trimChars text.toList) text := by
  generalize hd : text.toList.dropWhile blank = d
  refine ⟨text.toList.takeWhile blank, (d.reverse.takeWhile blank).reverse, blanks_takeWhile _,
    (blanks_takeWhile _).reverse, ?_⟩
  have hback : d = (d.reverse.dropWhile blank).reverse ++ (d.reverse.takeWhile blank).reverse := by
    rw [← List.reverse_append, List.takeWhile_append_dropWhile, List.reverse_reverse]
  rw [trimChars, hd, List.append_assoc, ← hback, ← hd, List.takeWhile_append_dropWhile]

/-- Blanks around a text do not show once it is trimmed. -/
theorem trimChars_append {front back : List Char} (hfront : Blanks front) (hback : Blanks back)
    (core : List Char) : trimChars (front ++ core ++ back) = trimChars core := by
  by_cases hcore : Blanks core
  · have hall : Blanks (front ++ core ++ back) :=
      List.forall_mem_append.mpr ⟨List.forall_mem_append.mpr ⟨hfront, hcore⟩, hback⟩
    rw [(trimChars_eq_nil_iff _).mpr hall, (trimChars_eq_nil_iff _).mpr hcore]
  · have hne : ¬ (core.dropWhile blank).isEmpty = true := by
      rw [List.isEmpty_iff]
      intro hnil
      refine hcore ((trimChars_eq_nil_iff core).mp ?_)
      rw [trimChars, hnil]
      rfl
    rw [trimChars, trimChars, List.append_assoc, List.dropWhile_append_of_pos hfront,
      List.dropWhile_append, if_neg hne, List.reverse_append,
      List.dropWhile_append_of_pos hback.reverse]

theorem trimChars_of_pads {core : List Char} {text : String} (h : Pads core text) :
    trimChars text.toList = trimChars core := by
  obtain ⟨front, back, hfront, hback, htext⟩ := h
  rw [htext, trimChars_append hfront hback]

/-- It does not matter whether a text is trimmed first or brought to lower case first. -/
theorem map_lowerChar_trimChars (cs : List Char) :
    (trimChars cs).map lowerChar = trimChars (cs.map lowerChar) := by
  have hblank : blank ∘ lowerChar = blank := funext blank_lowerChar
  rw [trimChars, trimChars, List.dropWhile_map, hblank, ← List.map_reverse, List.dropWhile_map,
    hblank, List.map_reverse]

/-! ## Spellings -/

/-- The texts are alike but for the blanks around them and the case of ASCII letters. -/
def Respelled (v w : String) : Prop :=
  ∃ cs ds, Pads cs v ∧ Pads ds w ∧ List.Forall₂ SameLetter cs ds

/-- Two texts have the same fold exactly when they are spellings of the same word. -/
theorem fold_eq_fold_iff (v w : String) : fold v = fold w ↔ Respelled v w := by
  rw [fold, fold, String.ofList_inj]
  constructor
  · intro h
    exact ⟨_, _, pads_trimChars v, pads_trimChars w, (map_lowerChar_eq_iff _ _).mp h⟩
  · rintro ⟨cs, ds, hv, hw, hletters⟩
    rw [trimChars_of_pads hv, trimChars_of_pads hw, map_lowerChar_trimChars,
      map_lowerChar_trimChars, (map_lowerChar_eq_iff _ _).mpr hletters]

-- A zero-width space is no blank, and letters beyond ASCII have no other case.
example : fold " Mtl\u3000" = "mtl" ∧ fold "\u200Bmtl" ≠ "mtl" ∧ fold "Ä" ≠ fold "ä" := by decide

theorem respelled_of_pads {v w : String} (h : Pads v.toList w) : Respelled v w := by
  rw [← fold_eq_fold_iff, fold, fold, trimChars_of_pads h]

theorem respelled_of_letters {v w : String} (h : List.Forall₂ SameLetter v.toList w.toList) :
    Respelled v w := by
  have hnone : ∀ text : String, Pads text.toList text := fun text =>
    ⟨[], [], nofun, nofun, (List.append_nil _).symm⟩
  exact ⟨_, _, hnone v, hnone w, h⟩

/-- A text has nothing but blanks when nothing is left of it. -/
theorem blanks_iff_fold (text : String) : Blanks text.toList ↔ fold text = "" := by
  rw [Blanks, ← trimChars_eq_nil_iff, fold, ← String.ofList_nil, String.ofList_inj,
    List.map_eq_nil_iff]

theorem Respelled.blanks_iff {v w : String} (h : Respelled v w) :
    Blanks v.toList ↔ Blanks w.toList := by
  rw [blanks_iff_fold, blanks_iff_fold, (fold_eq_fold_iff v w).mpr h]

/-- The text is a spelling of one of the words. -/
def Spells (words : List String) (text : String) : Prop := ∃ w ∈ words, Respelled text w

theorem spells_iff {words : List String} (hwords : ∀ w ∈ words, fold w = w) (text : String) :
    Spells words text ↔ fold text ∈ words := by
  constructor
  · rintro ⟨w, hw, hspelled⟩
    rw [(fold_eq_fold_iff text w).mpr hspelled, hwords w hw]
    exact hw
  · intro hmem
    exact ⟨_, hmem, (fold_eq_fold_iff text _).mp (hwords _ hmem).symm⟩

theorem Respelled.spells_iff {v w : String} (h : Respelled v w) (words : List String) :
    Spells words v ↔ Spells words w := by
  simp only [Spells, ← fold_eq_fold_iff, (fold_eq_fold_iff v w).mpr h]

end Text

end NetReplay
