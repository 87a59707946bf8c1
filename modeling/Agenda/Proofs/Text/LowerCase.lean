/-
Agenda/Proofs/Text/LowerCase.lean

Texts that are their own lower case.  No character of such a text has another
lower case (`toLower_of_lower_eq`), so where the case of ASCII letters is
ignored the text only agrees with what it is equal to
(`eq_of_sameIgnoringAsciiCase`).

The other way round, texts that agree where the case of ASCII letters is
ignored have the same lower case (`lower_eq_of_same`).  A final sigma looks at
its neighbours, but only at whether they have a case, and the two cases of a
letter do not differ in that.

Lower case keeps a text without blanks free of them (`not_isBlank_lower`), and
what is not empty stays so (`lower_ne_empty`).
-/
import Agenda.Text.LowerCase
import Agenda.Proofs.Text.Blank

namespace Agenda.Text

/-! ### Single characters -/

/-- Beyond ASCII there is no case to ignore. -/
theorem toLower_of_le {c : Char} (h : 128 ≤ c.toNat) : c.toLower = c := by
  rw [Char.ext_iff, ← UInt32.toNat_inj]
  show c.toLower.toNat = c.toNat
  rw [toNat_toLower, if_neg (by omega)]

/-- The lower case of a character starts with the character itself only if it is nothing else. -/
theorem exists_lowerChar_eq (c : Char) :
    ∃ d ds, lowerChar c = d :: ds ∧ (d = c → ds = [] ∧ c.toLower = c) := by
  unfold lowerChar
  split
  · exact ⟨_, [], rfl, fun h => ⟨rfl, h⟩⟩
  · next hascii =>
    have hc : c.toLower = c := toLower_of_le (by omega)
    split
    · next hdot =>
      refine ⟨_, _, rfl, fun h => ?_⟩
      rw [hdot] at h
      exact absurd h (by decide)
    · split <;> exact ⟨_, [], rfl, fun _ => ⟨rfl, hc⟩⟩

/-! ### Whole texts -/

theorem toLower_of_lowerAfter_eq {before cs : List Char} (h : lowerAfter before cs = cs) :
    ∀ c ∈ cs, c.toLower = c := by
  induction cs generalizing before with
  | nil => nofun
  | cons c cs ih =>
    rw [lowerAfter] at h
    split at h
    · -- a sigma is never its own lower case
      next hsigma =>
      rw [hsigma] at h
      have hhead := (List.cons.inj h).1
      split at hhead <;> exact absurd hhead (by decide)
    · obtain ⟨d, ds, hlower, hself⟩ := exists_lowerChar_eq c
      rw [hlower, List.cons_append] at h
      obtain ⟨hd, hrest⟩ := List.cons.inj h
      obtain ⟨rfl, hc⟩ := hself hd
      rintro e (_ | ⟨_, he⟩)
      · exact hc
      · exact ih hrest e he

/-- No character of a text in lower case has another lower case. -/
theorem toLower_of_lower_eq {text : String} (h : lower text = text) :
    ∀ c ∈ text.toList, c.toLower = c := by
  have hlist : lowerAfter [] text.toList = text.toList := by
    rw [← lowerList, ← toList_lower, h]
  exact toLower_of_lowerAfter_eq hlist

/-- The characters of a known word are checked one by one. -/
theorem forall_toLower_eq {word : List Char} (h : word.all (fun c => c.toLower == c) = true) :
    ∀ c ∈ word, c.toLower = c := by
  simpa using h

/-- Of texts that are in lower case, only equal ones agree when the case is ignored. -/
theorem eq_of_sameIgnoringAsciiCase {text word : List Char} (htext : ∀ c ∈ text, c.toLower = c)
    (hword : ∀ c ∈ word, c.toLower = c) (h : sameIgnoringAsciiCase text word = true) :
    text = word := by
  have hmap := beq_iff_eq.mp h
  rwa [List.map_congr_left htext, List.map_id', List.map_congr_left hword, List.map_id'] at hmap

/-! ### ASCII case -/

theorem toLower_toLower (c : Char) : c.toLower.toLower = c.toLower := by
  rw [Char.ext_iff, ← UInt32.toNat_inj]
  show c.toLower.toLower.toNat = c.toLower.toNat
  rw [toNat_toLower c.toLower, if_neg]
  rw [toNat_toLower]
  split <;> omega

/-- The set has all of these characters or none of them, range by range. -/
def CharacterRanges.Whole (ranges : CharacterRanges) (first last : Nat) : Prop :=
  ∀ range ∈ ranges, range.1 ≤ first ∧ last ≤ range.2 ∨ range.2 < first ∨ last < range.1

instance (ranges : CharacterRanges) (first last : Nat) : Decidable (ranges.Whole first last) :=
  inferInstanceAs (Decidable (∀ _ ∈ ranges, _))

theorem CharacterRanges.Whole.includes_eq {ranges : CharacterRanges} {first last : Nat}
    (h : ranges.Whole first last) {c d : Char} (hc : first ≤ c.toNat ∧ c.toNat ≤ last)
    (hd : first ≤ d.toNat ∧ d.toNat ≤ last) : ranges.includes c = ranges.includes d := by
  rw [Bool.eq_iff_iff, CharacterRanges.includes, CharacterRanges.includes, List.any_eq_true,
    List.any_eq_true]
  refine exists_congr fun range => and_congr_right fun hrange => ?_
  have hwhole := h range hrange
  simp only [Bool.and_eq_true, decide_eq_true_iff]
  omega

/-- A set that has both cases of all ASCII letters, or neither, does not tell them apart. -/
theorem includes_toLower {ranges : CharacterRanges} (hupper : ranges.Whole 65 90)
    (hlower : ranges.Whole 97 122) (hsame : ranges.includes 'A' = ranges.includes 'a') (c : Char) :
    ranges.includes c.toLower = ranges.includes c := by
  have hnat := toNat_toLower c
  split at hnat
  · next hc =>
    rw [hupper.includes_eq hc (d := 'A') (by decide), hsame]
    exact hlower.includes_eq (by omega) (by decide)
  · next hc =>
    rw [CharacterRanges.includes, hnat]
    rfl

theorem caseIgnorable_toLower (c : Char) :
    caseIgnorable.includes c.toLower = caseIgnorable.includes c :=
  includes_toLower (by decide +kernel) (by decide +kernel) (by decide +kernel) c

theorem casedRanges_toLower (c : Char) :
    casedRanges.includes c.toLower = casedRanges.includes c :=
  includes_toLower (by decide +kernel) (by decide +kernel) (by decide +kernel) c

theorem casedAhead_map_toLower (cs : List Char) :
    casedAhead (cs.map Char.toLower) = casedAhead cs := by
  have hdrop : (cs.map Char.toLower).dropWhile caseIgnorable.includes =
      (cs.dropWhile caseIgnorable.includes).map Char.toLower := by
    rw [List.dropWhile_map]
    congr 2
    exact funext caseIgnorable_toLower
  rw [casedAhead, casedAhead, hdrop]
  cases cs.dropWhile caseIgnorable.includes with
  | nil => rfl
  | cons c cs => exact casedRanges_toLower c

theorem lowerChar_toLower (c : Char) : lowerChar c.toLower = lowerChar c := by
  by_cases hascii : c.toNat < 128
  · have hlower : c.toLower.toNat < 128 := by
      rw [toNat_toLower]
      split <;> omega
    rw [lowerChar, lowerChar, if_pos hascii, if_pos hlower, toLower_toLower]
  · rw [toLower_of_le (by omega)]

theorem toLower_eq_sigma_iff (c : Char) : c.toLower = 'Σ' ↔ c = 'Σ' := by
  constructor
  · intro h
    have hnat := congrArg Char.toNat h
    rw [toNat_toLower] at hnat
    have hsigma : 'Σ'.toNat = 931 := rfl
    rw [← h, toLower_of_le]
    split at hnat <;> omega
  · rintro rfl
    exact toLower_of_le (by decide)

/-- Neither a character nor its neighbours show the case of an ASCII letter in lower case. -/
theorem lowerAfter_map_toLower (before cs : List Char) :
    lowerAfter (before.map Char.toLower) (cs.map Char.toLower) = lowerAfter before cs := by
  induction cs generalizing before with
  | nil => rfl
  | cons c cs ih =>
    rw [List.map_cons, lowerAfter, lowerAfter, casedAhead_map_toLower, casedAhead_map_toLower,
      lowerChar_toLower, ← List.map_cons, ih]
    simp only [toLower_eq_sigma_iff]

/-- **Lower case is blind to the case of ASCII letters.** -/
theorem lower_eq_of_same {s t : String} (h : sameIgnoringAsciiCase s.toList t.toList = true) :
    lower s = lower t := by
  have hmap := beq_iff_eq.mp h
  rw [lower, lower, lowerList, lowerList, ← lowerAfter_map_toLower [] s.toList,
    ← lowerAfter_map_toLower [] t.toList, hmap]

/-! ### Blanks

Lower case turns no character into a blank, and none into nothing. -/

/-- The images of the run are apart from all blanks. -/
def CaseRun.AvoidsBlanks (run : CaseRun) : Prop :=
  ∀ range ∈ blankRanges,
    (run.last : Int) + run.offset < range.1 ∨ (range.2 : Int) < run.first + run.offset

instance (run : CaseRun) : Decidable run.AvoidsBlanks :=
  inferInstanceAs (Decidable (∀ _ ∈ blankRanges, _))

theorem avoidsBlanks_lowerCaseRuns : ∀ run ∈ lowerCaseRuns, run.AvoidsBlanks := by
  decide +kernel

theorem CaseRun.AvoidsBlanks.not_isBlank_image {run : CaseRun} (h : run.AvoidsBlanks) {c : Char}
    (hc : run.covers c = true) : isBlank (run.image c) = false := by
  obtain ⟨⟨hfirst, hlast⟩, -⟩ : (run.first ≤ c.toNat ∧ c.toNat ≤ run.last) ∧ _ := by
    simpa [CaseRun.covers] using hc
  -- a code point that is no character is read as NUL, which is not blank either
  have himage : (run.image c).toNat = (c.toNat + run.offset).toNat ∨ (run.image c).toNat = 0 := by
    rw [CaseRun.image, Char.ofNat]
    by_cases hvalid : (c.toNat + run.offset).toNat.isValidChar
    · rw [dif_pos hvalid]
      exact .inl rfl
    · rw [dif_neg hvalid]
      exact .inr rfl
  rw [isBlank, CharacterRanges.includes, List.any_eq_false]
  intro range hrange
  have hapart := h range hrange
  have hpositive : 0 < range.1 := (by decide : ∀ range ∈ blankRanges, 0 < range.1) range hrange
  simp only [Bool.and_eq_true, decide_eq_true_eq]
  omega

theorem not_isBlank_of_mem_lowerChar {c d : Char} (hc : isBlank c = false)
    (hd : d ∈ lowerChar c) : isBlank d = false := by
  unfold lowerChar at hd
  split at hd
  · rw [List.mem_singleton.mp hd, isBlank_toLower, hc]
  · split at hd
    · rcases List.mem_cons.mp hd with rfl | hd
      · decide
      · rw [List.mem_singleton.mp hd]
        decide
    · split at hd
      · next run hrun =>
        have hcovers : run.covers c = true := by simpa using List.find?_some hrun
        rw [List.mem_singleton.mp hd]
        exact (avoidsBlanks_lowerCaseRuns run (List.mem_of_find?_eq_some hrun)).not_isBlank_image
          hcovers
      · rwa [List.mem_singleton.mp hd]

theorem not_isBlank_of_mem_lowerAfter {before cs : List Char}
    (h : ∀ c ∈ cs, isBlank c = false) : ∀ d ∈ lowerAfter before cs, isBlank d = false := by
  induction cs generalizing before with
  | nil => nofun
  | cons c cs ih =>
    intro d hd
    rw [lowerAfter, List.mem_append] at hd
    rcases hd with hd | hd
    · split at hd
      · rw [List.mem_singleton.mp hd]
        split <;> decide
      · exact not_isBlank_of_mem_lowerChar (h c List.mem_cons_self) hd
    · exact ih (fun e he => h e (List.mem_cons_of_mem c he)) d hd

/-- **Lower case puts no blanks into a text.** -/
theorem not_isBlank_lower {text : String} (h : ∀ c ∈ text.toList, isBlank c = false) :
    ∀ c ∈ (lower text).toList, isBlank c = false := by
  rw [toList_lower, lowerList]
  exact not_isBlank_of_mem_lowerAfter h

/-- **Lower case leaves something of every text but the empty one.** -/
theorem lower_ne_empty {text : String} (h : text ≠ "") : lower text ≠ "" := by
  obtain ⟨c, cs, htext⟩ := List.exists_cons_of_ne_nil (mt String.toList_eq_nil_iff.mp h)
  rw [ne_eq, ← String.toList_eq_nil_iff, toList_lower, lowerList, htext, lowerAfter]
  split
  · exact List.cons_ne_nil _ _
  · obtain ⟨d, ds, hlower, -⟩ := exists_lowerChar_eq c
    rw [hlower]
    exact List.cons_ne_nil _ _

end Agenda.Text
