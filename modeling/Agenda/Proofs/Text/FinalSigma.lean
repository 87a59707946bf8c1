/-
Agenda/Proofs/Text/FinalSigma.lean

Lower case of a part of a text.  A text is put into lower case character by
character, so the lower case of a part stands in that of the whole, but for
the sigmas: whether one ends a word depends on what it sees on either side
(`sight`), and that may lie outside of the part.

    sight before \ sight after    cased     no case    nothing
    cased                         σ  fixed  ς  fixed   ς
    no case                       σ  fixed  σ  fixed   σ  fixed
    nothing                       σ  fixed  σ          σ

A sigma is `Anchored` where nothing further away can change its form.  In the
other cases a letter put before or after the part does: `ΑΣ` becomes `ας`, and
`ΑΣΑ` becomes `ασα`.  So a part has its lower case in the lower case of every
text around it if and only if all of its sigmas are anchored
(`settled_iff_forall_isInfix`).
-/
import Agenda.Proofs.Text.LowerCase

namespace Agenda.Text

variable {before after cs text : List Char}

/-! ### What a sigma sees -/

/-- The first character that is not looked through: whether it has a case, if there is one. -/
def sight (cs : List Char) : Option Bool :=
  (cs.find? fun c => !caseIgnorable.includes c).map casedRanges.includes

theorem sight_append (cs ds : List Char) : sight (cs ++ ds) = (sight cs).or (sight ds) := by
  rw [sight, List.find?_append, Option.map_or]
  rfl

theorem sight_cons (c : Char) (cs : List Char) : sight (c :: cs) = (sight [c]).or (sight cs) :=
  sight_append [c] cs

theorem sight_sigma_cons (cs : List Char) : sight ('Σ' :: cs) = some true := by
  have hsigma : sight ['Σ'] = some true := by decide +kernel
  rw [sight_cons, hsigma]
  rfl

theorem sight_A : sight ['A'] = some true := by
  decide +kernel

/-- Where all characters are looked through, there is no sigma. -/
theorem sigma_notMem_of_sight_eq_none (h : sight cs = none) : 'Σ' ∉ cs := by
  intro hmem
  obtain ⟨xs, ys, rfl⟩ := List.append_of_mem hmem
  rw [sight_append, sight_sigma_cons, Option.or_eq_none_iff] at h
  cases h.2

theorem casedAhead_iff : casedAhead cs = true ↔ sight cs = some true := by
  rw [casedAhead, sight]
  induction cs with
  | nil => decide
  | cons c cs ih =>
    cases hc : caseIgnorable.includes c with
    | true => rwa [List.dropWhile_cons_of_pos hc, List.find?_cons_of_neg (by simp [hc])]
    | false =>
      rw [List.dropWhile_cons_of_neg (by simp [hc]), List.find?_cons_of_pos (by simp [hc]),
        Option.map_some, Option.some.injEq]

/-! ### The form of a sigma -/

/-- The lower case of a sigma between these characters, the nearest ones first. -/
def sigmaForm (before after : List Char) : Char :=
  if casedAhead before && !casedAhead after then 'ς' else 'σ'

theorem sigmaForm_eq (before after : List Char) :
    sigmaForm before after =
      if sight before = some true ∧ sight after ≠ some true then 'ς' else 'σ' := by
  rw [sigmaForm]
  simp only [Bool.and_eq_true, Bool.not_eq_true', ← Bool.not_eq_true, casedAhead_iff, ne_eq]

/-- What a sigma sees between these characters fixes its form, whatever stands beyond them. -/
def Anchored (before after : List Char) : Prop :=
  sight after = some true ∨ sight before = some false ∨ sight before ≠ none ∧ sight after ≠ none

instance (before after : List Char) : Decidable (Anchored before after) :=
  inferInstanceAs (Decidable (_ ∨ _ ∨ _))

theorem Anchored.sigmaForm_append (h : Anchored before after) (left right : List Char) :
    sigmaForm (before ++ left) (after ++ right) = sigmaForm before after := by
  rw [sigmaForm_eq, sigmaForm_eq, sight_append, sight_append]
  rw [Anchored] at h
  rcases hb : sight before with _ | _ | _ <;> rcases ha : sight after with _ | _ | _ <;> simp_all

/-- A sigma that is not anchored either sees nothing before it and no case after it, or a case
before it and nothing after it. -/
theorem not_anchored_iff : ¬ Anchored before after ↔
    sight before = none ∧ sight after ≠ some true ∨
      sight before = some true ∧ sight after = none := by
  rw [Anchored]
  rcases sight before with _ | _ | _ <;> rcases sight after with _ | _ | _ <;> decide

/-! ### Lower case between other characters -/

/-- The lower case of `cs`, where `after` follows it and `before` holds the characters that precede
it, the nearest one first. -/
def lowerBetween (after : List Char) (before : List Char) : List Char → List Char
  | [] => []
  | c :: cs =>
    (if c = 'Σ' then [sigmaForm before (cs ++ after)] else lowerChar c) ++
      lowerBetween after (c :: before) cs

/-- The lower case of a text is that of its parts, each one between the others. -/
theorem lowerAfter_append (before cs after : List Char) :
    lowerAfter before (cs ++ after) =
      lowerBetween after before cs ++ lowerAfter (cs.reverse ++ before) after := by
  induction cs generalizing before with
  | nil => rfl
  | cons c cs ih =>
    rw [List.cons_append, lowerAfter, lowerBetween, ih, List.append_assoc, List.reverse_cons,
      List.append_assoc, List.singleton_append]
    rfl

theorem lowerBetween_nil (before cs : List Char) :
    lowerBetween [] before cs = lowerAfter before cs := by
  have happend := lowerAfter_append before cs []
  rwa [List.append_nil, lowerAfter, List.append_nil, eq_comm] at happend

/-- **Lower case only depends on the form of the sigmas.** -/
theorem lowerBetween_congr {before' after' : List Char}
    (h : ∀ xs ys, cs = xs ++ 'Σ' :: ys →
      sigmaForm (xs.reverse ++ before) (ys ++ after) =
        sigmaForm (xs.reverse ++ before') (ys ++ after')) :
    lowerBetween after before cs = lowerBetween after' before' cs := by
  induction cs generalizing before before' with
  | nil => rfl
  | cons c cs ih =>
    -- the sigmas further on have `c` before them
    have hrest : lowerBetween after (c :: before) cs = lowerBetween after' (c :: before') cs := by
      refine ih fun xs ys heq => ?_
      have hform := h (c :: xs) ys (by rw [heq, List.cons_append])
      simpa using hform
    rw [lowerBetween, lowerBetween, hrest]
    split
    · next hsigma =>
      have hform := h [] cs (by rw [hsigma, List.nil_append])
      rw [List.reverse_nil, List.nil_append, List.nil_append] at hform
      rw [hform]
    · rfl

/-- What stands around a text without sigmas does not matter. -/
theorem lowerBetween_of_notMem (h : 'Σ' ∉ cs) (before after before' after' : List Char) :
    lowerBetween after before cs = lowerBetween after' before' cs :=
  lowerBetween_congr fun xs ys heq => absurd (heq ▸ by simp) h

/-- What stands around a text only matters by what is seen of it. -/
theorem lowerBetween_of_sight_eq {before' after' : List Char}
    (hbefore : sight before = sight before') (hafter : sight after = sight after')
    (cs : List Char) :
    lowerBetween after before cs = lowerBetween after' before' cs := by
  refine lowerBetween_congr fun xs ys _ => ?_
  simp only [sigmaForm_eq, sight_append, hbefore, hafter]

/-- Behind a sigma it does not matter what stands before it. -/
theorem lowerAfter_sigma_cons (before before' cs : List Char) :
    lowerAfter ('Σ' :: before) cs = lowerAfter ('Σ' :: before') cs := by
  have hsight : sight ('Σ' :: before) = sight ('Σ' :: before') := by
    rw [sight_sigma_cons, sight_sigma_cons]
  rw [← lowerBetween_nil, ← lowerBetween_nil, lowerBetween_of_sight_eq hsight rfl]

/-- Before a sigma it does not matter what stands behind it. -/
theorem lowerBetween_sigma_cons (before after after' cs : List Char) :
    lowerBetween ('Σ' :: after) before cs = lowerBetween ('Σ' :: after') before cs := by
  have hsight : sight ('Σ' :: after) = sight ('Σ' :: after') := by
    rw [sight_sigma_cons, sight_sigma_cons]
  exact lowerBetween_of_sight_eq rfl hsight cs

/-! ### Settled words -/

/-- Nothing that stands around the word changes the form of its sigmas. -/
def Settled (word : List Char) : Prop :=
  ∀ xs ys, word = xs ++ 'Σ' :: ys → Anchored xs.reverse ys

theorem settled_iff_forall_lt {word : List Char} :
    Settled word ↔ ∀ i < word.length, word[i]? = some 'Σ' →
      Anchored (word.take i).reverse (word.drop (i + 1)) := by
  constructor
  · intro h i hi hsigma
    refine h _ _ ?_
    rw [List.getElem?_eq_getElem hi, Option.some.injEq] at hsigma
    rw [← hsigma, List.getElem_cons_drop, List.take_append_drop]
  · rintro h xs ys rfl
    have hanchored := h xs.length (by simp) (by simp)
    rwa [List.take_left, List.drop_length_add_append] at hanchored

instance (word : List Char) : Decidable (Settled word) :=
  decidable_of_iff _ settled_iff_forall_lt.symm

theorem Settled.lowerBetween_eq {word : List Char} (h : Settled word) (before after : List Char) :
    lowerBetween after before word = lowerList word := by
  rw [lowerList, ← lowerBetween_nil]
  refine lowerBetween_congr fun xs ys heq => ?_
  rw [(h xs ys heq).sigmaForm_append, List.append_nil, List.append_nil]

/-- **The lower case of a settled word stands wherever the word does.** -/
theorem Settled.lowerList_isInfix {word : List Char} (h : Settled word) (hstands : word <:+: text) :
    lowerList word <:+: lowerList text := by
  obtain ⟨before, after, rfl⟩ := hstands
  refine ⟨lowerBetween (word ++ after) [] before,
    lowerAfter (word.reverse ++ (before.reverse ++ [])) after, ?_⟩
  rw [← h.lowerBetween_eq (before.reverse ++ []) after, lowerList, List.append_assoc,
    List.append_assoc, lowerAfter_append, lowerAfter_append]

/-! ### Words that are not settled

One letter next to the word turns one sigma into the other one, and leaves the
rest of the word as it is. -/

/-- A part that has more of some character does not stand in the whole. -/
theorem not_infix_of_count_lt {part whole : List Char} {c : Char}
    (h : whole.count c < part.count c) : ¬ part <:+: whole :=
  fun hstands => absurd (hstands.sublist.count_le c) (Nat.not_le.mpr h)

theorem lowerList_sigma (xs ys : List Char) :
    lowerList (xs ++ 'Σ' :: ys) = lowerBetween ('Σ' :: ys) [] xs ++
      sigmaForm xs.reverse ys :: lowerAfter ('Σ' :: xs.reverse) ys := by
  rw [lowerList, lowerAfter_append, List.append_nil, lowerAfter, if_pos rfl]
  rfl

/-- A letter before a word makes a sigma that saw nothing there end a word. -/
theorem not_infix_letter_before {xs ys : List Char} (hbefore : sight xs.reverse = none)
    (hafter : sight ys ≠ some true) :
    ¬ lowerList (xs ++ 'Σ' :: ys) <:+: lowerList ('A' :: xs ++ 'Σ' :: ys) := by
  -- the sigma is the first one, and those behind it do not see past it
  have hxs : 'Σ' ∉ xs := fun hmem =>
    sigma_notMem_of_sight_eq_none hbefore (List.mem_reverse.mpr hmem)
  have hseen : sight (xs.reverse ++ ['A']) = some true := by
    rw [sight_append, hbefore, sight_A]
    rfl
  have hword : lowerList (xs ++ 'Σ' :: ys) = lowerBetween ('Σ' :: ys) [] xs ++
      'σ' :: lowerAfter ('Σ' :: xs.reverse) ys := by
    rw [lowerList_sigma, sigmaForm_eq, if_neg (by simp [hbefore])]
  have htext : lowerList ('A' :: xs ++ 'Σ' :: ys) = 'a' :: lowerBetween ('Σ' :: ys) [] xs ++
      'ς' :: lowerAfter ('Σ' :: xs.reverse) ys := by
    rw [lowerList_sigma, List.reverse_cons, sigmaForm_eq, if_pos ⟨hseen, hafter⟩,
      lowerAfter_sigma_cons _ xs.reverse, lowerBetween,
      lowerBetween_of_notMem hxs ['A'] ('Σ' :: ys) [] ('Σ' :: ys)]
    rfl
  refine not_infix_of_count_lt (c := 'σ') ?_
  rw [hword, htext]
  simp

/-- A letter behind a word keeps a sigma that saw nothing there from ending a word. -/
theorem not_infix_letter_behind {xs ys : List Char} (hbefore : sight xs.reverse = some true)
    (hafter : sight ys = none) :
    ¬ lowerList (xs ++ 'Σ' :: ys) <:+: lowerList (xs ++ 'Σ' :: (ys ++ ['A'])) := by
  -- the sigma is the last one, and those before it do not see past it
  have hys : 'Σ' ∉ ys := sigma_notMem_of_sight_eq_none hafter
  have hseen : sight (ys ++ ['A']) = some true := by
    rw [sight_append, hafter, sight_A]
    rfl
  have hword : lowerList (xs ++ 'Σ' :: ys) = lowerBetween ('Σ' :: ys) [] xs ++
      'ς' :: lowerAfter ('Σ' :: xs.reverse) ys := by
    rw [lowerList_sigma, sigmaForm_eq, if_pos ⟨hbefore, by simp [hafter]⟩]
  have htext : lowerList (xs ++ 'Σ' :: (ys ++ ['A'])) = lowerBetween ('Σ' :: ys) [] xs ++
      'σ' :: (lowerAfter ('Σ' :: xs.reverse) ys ++ ['a']) := by
    rw [lowerList_sigma, sigmaForm_eq, if_neg (by simp [hseen]), lowerBetween_sigma_cons _ _ ys,
      lowerAfter_append, ← lowerBetween_nil _ ys,
      lowerBetween_of_notMem hys _ ['A'] ('Σ' :: xs.reverse) []]
    rfl
  refine not_infix_of_count_lt (c := 'ς') ?_
  rw [hword, htext]
  simp

/-- **The settled words are those whose lower case stands wherever the word does.** -/
theorem settled_iff_forall_isInfix {word : List Char} :
    Settled word ↔ ∀ text, word <:+: text → lowerList word <:+: lowerList text := by
  refine ⟨fun h text hstands => h.lowerList_isInfix hstands, fun h xs ys heq => ?_⟩
  by_contra hloose
  subst heq
  rcases not_anchored_iff.mp hloose with ⟨hbefore, hafter⟩ | ⟨hbefore, hafter⟩
  · exact not_infix_letter_before hbefore hafter (h _ (List.suffix_cons _ _).isInfix)
  · refine not_infix_letter_behind hbefore hafter (h _ ?_)
    exact ⟨[], ['A'], by simp⟩

end Agenda.Text
