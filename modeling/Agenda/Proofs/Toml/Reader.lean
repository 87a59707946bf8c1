/-
Agenda/Proofs/Toml/Reader.lean

Documents that are written line by line are read again.  There are two kinds of
lines:

    key = value        an entry, in one of the forms of `Written`
    [key]              the header of a section, after an empty line

and each of them is read as one statement (`statements?_entryLine`,
`statements?_headerLine`).  Where keys are distinct, the statements add up to
what they say: the entries at the top, then each section with its entries
(`entriesOf_sections`).
-/
import Agenda.Toml.Reader
import Agenda.Proofs.Json.Scanner
import Agenda.Proofs.Toml.Number
import Agenda.Proofs.Toml.Text

namespace Agenda.Toml

open Text

variable {α : Type} {c : Char} {key : String} {v : Value} {input w rest : List Char}

/-! ### Values -/

/-- The forms in which values are written. -/
inductive Written : Value → List Char → Prop
  | text (s : String) : Written (.text s) (writeText s)
  | truth (b : Bool) : Written (.truth b) (Json.boolean b)
  | integer (n : Int64) : Written (.integer n) (Json.integer n.toInt)

/-- A text starts with a quote. -/
theorem exists_writeText_eq_cons (s : String) :
    ∃ c cs, writeText s = c :: cs ∧ (c = '"' ∨ c = '\'') := by
  simp only [writeText]
  split_ifs
  all_goals exact ⟨_, _, rfl, by simp⟩

/-- A value that is written starts neither with a blank nor with a bracket or brace. -/
theorem Written.exists_eq_cons (h : Written v w) :
    ∃ c cs, w = c :: cs ∧ isSpace c = false ∧ c ≠ '[' ∧ c ≠ openBrace := by
  cases h with
  | text s =>
    obtain ⟨c, cs, hcons, rfl | rfl⟩ := exists_writeText_eq_cons s
    · exact ⟨_, cs, hcons, by decide⟩
    · exact ⟨_, cs, hcons, by decide⟩
  | truth b => cases b <;> exact ⟨_, _, rfl, by decide⟩
  | integer n =>
    obtain ⟨c, cs, hcons, rfl | hdigit⟩ := Json.exists_integer_eq_cons n.toInt
    · exact ⟨_, cs, hcons, by decide⟩
    · refine ⟨c, cs, hcons, ?_, ?_, ?_⟩
      · rw [isSpace, Bool.or_eq_false_iff]
        constructor <;> exact decide_eq_false (by rintro rfl; cases hdigit)
      · rintro rfl
        cases hdigit
      · rintro rfl
        cases hdigit

theorem text?_eq_none {cs : List Char} (h : c ≠ '"') (h' : c ≠ '\'') : text? (c :: cs) = none := by
  unfold text?
  split
  · next heq => exact absurd (List.cons.inj heq).1 h
  · next heq => exact absurd (List.cons.inj heq).1 h'
  · unfold line?
    split
    · next heq => exact absurd (List.cons.inj heq).1 h
    · next heq => exact absurd (List.cons.inj heq).1 h'
    · rfl

theorem word?_eq_none {cs : List Char} (h : c ≠ 't') (h' : c ≠ 'f') : word? (c :: cs) = none := by
  unfold word?
  split
  · next heq => exact absurd (List.cons.inj heq).1 h
  · next heq => exact absurd (List.cons.inj heq).1 h'
  · rfl

/-- **What is written for a value is read as this value.** -/
theorem Written.scalar? (h : Written v w) (rest : List Char) :
    scalar? (w ++ '\n' :: rest) = some (v, '\n' :: rest) := by
  cases h with
  | text s =>
    rw [Toml.scalar?, text?_writeText]
    show some (Value.text (String.ofList s.toList), _) = _
    rw [String.ofList_toList]
  | truth b => cases b <;> rfl
  | integer n =>
    have hnumber := number?_integer n rest
    obtain ⟨c, cs, hcons, hc⟩ := Json.exists_integer_eq_cons n.toInt
    rw [hcons] at hnumber ⊢
    -- it starts with a digit or a minus, and so with no quote and no letter
    have hne : ∀ d : Char, d.isDigit = false → d ≠ '-' → c ≠ d := by
      rintro d hd hminus rfl
      rcases hc with rfl | hdigit
      · exact hminus rfl
      · rw [hd] at hdigit
        cases hdigit
    rw [List.cons_append] at hnumber ⊢
    rw [Toml.scalar?, text?_eq_none (hne _ (by decide) (by decide)) (hne _ (by decide) (by decide)),
      word?_eq_none (hne _ (by decide) (by decide)) (hne _ (by decide) (by decide)), hnumber]
    rfl

/-- A value that is written is read at any depth. -/
theorem Written.finds_value? (h : Written v w) (depth : Nat) (rest : List Char) :
    Finds (value? (depth + 1) (w ++ '\n' :: rest)) v ('\n' :: rest) := by
  have hscalar := h.scalar? rest
  obtain ⟨c, cs, rfl, -, hbracket, hbrace⟩ := h.exists_eq_cons
  rw [List.cons_append] at hscalar ⊢
  rw [value?, anyValue?, if_neg hbracket, if_neg hbrace, hscalar]
  refine finds_of? v ?_
  simp only [List.length_cons, List.length_append]
  omega

/-! ### Keys -/

/-- A key without quotes. -/
def Bare (key : String) : Prop :=
  key ≠ "" ∧ ∀ c ∈ key.toList, isBare c = true

theorem isSpace_of_isBare (h : isBare c = true) : isSpace c = false := by
  rw [Bool.eq_false_iff]
  intro hspace
  simp only [isSpace, Bool.or_eq_true, decide_eq_true_eq] at hspace
  rcases hspace with rfl | rfl <;> cases h

theorem Bare.exists_eq_cons (h : Bare key) :
    ∃ c cs, key.toList = c :: cs ∧ isBare c = true := by
  obtain ⟨c, cs, hcons⟩ := List.exists_cons_of_ne_nil (l := key.toList) (by simpa using h.1)
  exact ⟨c, cs, hcons, h.2 c (hcons ▸ List.mem_cons_self)⟩

theorem skipSpaces_cons (h : isSpace c = false) (cs : List Char) : skipSpaces (c :: cs) = c :: cs :=
  List.dropWhile_cons_of_neg (by simp [h])

/-- A key ends where no further character of a key follows. -/
theorem Bare.finds_key? (h : Bare key) (hc : isBare c = false) (rest : List Char) :
    Finds (key? (key.toList ++ c :: rest)) key (skipSpaces (c :: rest)) := by
  obtain ⟨d, ds, hcons, hd⟩ := h.exists_eq_cons
  have htake : (key.toList ++ c :: rest).takeWhile isBare = key.toList := by
    rw [List.takeWhile_append_of_pos h.2, List.takeWhile_cons_of_neg (by simp [hc]),
      List.append_nil]
  have hstart : skipSpaces (key.toList ++ c :: rest) = key.toList ++ c :: rest := by
    rw [hcons]
    exact skipSpaces_cons (isSpace_of_isBare hd) _
  have hnonempty : ¬ key.toList.isEmpty = true := by
    rw [hcons]
    exact Bool.false_ne_true
  have hquote : d ≠ '"' ∧ d ≠ '\'' := by
    constructor <;> (rintro rfl; cases hd)
  have hlength : (skipSpaces (c :: rest)).length < (key.toList ++ c :: rest).length := by
    have hle := (List.dropWhile_suffix (l := c :: rest) isSpace).length_le
    rw [hcons, List.length_append, List.length_cons (a := d)]
    unfold skipSpaces
    omega
  unfold key?
  dsimp only
  rw [hstart]
  split
  · next heq =>
    rw [hcons] at heq
    exact absurd (Option.some.inj heq) hquote.1
  · next heq =>
    rw [hcons] at heq
    exact absurd (Option.some.inj heq) hquote.2
  · rw [htake, if_neg hnonempty, Option.bind_some, List.drop_left, String.ofList_toList]
    exact finds_of? key hlength

/-- A key without dots is a path of its own. -/
theorem Bare.finds_path? (h : Bare key) (hc : isBare c = false)
    (hdot : (skipSpaces (c :: rest)).head? ≠ some '.') :
    Finds (path? (key.toList ++ c :: rest)) ([], key) (skipSpaces (c :: rest)) := by
  obtain ⟨first, hfirst, hvalue, hrest⟩ := h.finds_key? hc rest
  have hkeys : Finds (keys? (key.toList ++ c :: rest)) ([], key) (skipSpaces (c :: rest)) := by
    rw [keys?, hfirst, Option.bind_eq_bind, Option.bind_some]
    split
    · next heq =>
      rw [hrest] at heq
      rw [heq] at hdot
      exact absurd rfl hdot
    · rw [hvalue, ← hrest]
      exact finds_of? _ first.rest_lt
  obtain ⟨r, hr, hvalue, hrest⟩ := hkeys
  refine ⟨r, ?_, hvalue, hrest⟩
  rw [path?, hr, Option.filter_some_pos]
  rw [hvalue]
  rfl

/-! ### Lines -/

theorem Written.skipSpaces (h : Written v w) (rest : List Char) :
    skipSpaces (' ' :: (w ++ rest)) = w ++ rest := by
  obtain ⟨c, cs, rfl, hspace, -⟩ := h.exists_eq_cons
  show Toml.skipSpaces (c :: (cs ++ rest)) = _
  exact skipSpaces_cons hspace _

/-- An entry is a key and its value. -/
theorem pair_entry (hkey : Bare key) (h : Written v w) (depth : Nat) (rest : List Char) :
    pair (value? (depth + 1)) (key.toList ++ ' ' :: '=' :: ' ' :: (w ++ '\n' :: rest)) =
      some (([], key, v), '\n' :: rest) := by
  have hequals : skipSpaces (' ' :: '=' :: ' ' :: (w ++ '\n' :: rest)) =
      '=' :: ' ' :: (w ++ '\n' :: rest) := rfl
  obtain ⟨keys, hkeys, hvalue, hrest⟩ := hkey.finds_path? (c := ' ') (by decide) (by
    rw [hequals]
    simp)
  rw [hequals] at hrest
  obtain ⟨found, hfound, hv, hmore⟩ := h.finds_value? depth rest
  rw [pair, hkeys]
  show (after? '=' keys.rest >>= fun rest => value? (depth + 1) (skipSpaces rest) >>= _) = _
  rw [hrest]
  show (value? (depth + 1) (skipSpaces (' ' :: (w ++ '\n' :: rest))) >>= _) = _
  rw [h.skipSpaces, hfound]
  show some ((keys.value.1, keys.value.2, found.value), found.rest) = _
  rw [hvalue, hv, hmore]

theorem endOfLine?_newLine (rest : List Char) : endOfLine? ('\n' :: rest) = some rest := rfl

/-- The line of an entry. -/
theorem statement?_entryLine (hkey : Bare key) (h : Written v w) (rest : List Char) :
    statement? (entryLine key (some w) ++ rest) = some (.assign [] key v, rest) := by
  have hpair : pair (value? (maxDepth - 1)) (entryLine key (some w) ++ rest) =
      some (([], key, v), '\n' :: rest) := by
    simpa [entryLine, maxDepth] using pair_entry hkey h 78 rest
  obtain ⟨c, cs, hcons, hc⟩ := hkey.exists_eq_cons
  have hline : entryLine key (some w) ++ rest =
      c :: (cs ++ [' ', '=', ' '] ++ w ++ ['\n'] ++ rest) := by
    rw [entryLine, hcons]
    rfl
  rw [hline] at hpair ⊢
  unfold statement?
  split
  · next heq =>
    obtain ⟨rfl, -⟩ := List.cons.inj heq
    cases hc
  · next heq =>
    obtain ⟨rfl, -⟩ := List.cons.inj heq
    cases hc
  · rw [hpair]
    rfl

/-- The line of a header, after the empty line. -/
theorem statement?_header (hkey : Bare key) (rest : List Char) :
    statement? ('[' :: (key.toList ++ ']' :: '\n' :: rest)) = some (.header [] key, rest) := by
  obtain ⟨c, cs, hcons, hc⟩ := hkey.exists_eq_cons
  have hbracket : skipSpaces (']' :: '\n' :: rest) = ']' :: '\n' :: rest := rfl
  obtain ⟨keys, hkeys, hvalue, hrest⟩ := hkey.finds_path? (c := ']') (by decide) (by
    rw [hbracket]
    simp)
  rw [hbracket] at hrest
  unfold statement?
  split
  · next heq =>
    -- a key does not start with a bracket
    rw [hcons] at heq
    obtain ⟨rfl, -⟩ := List.cons.inj (List.cons.inj heq).2
    cases hc
  · next heq =>
    obtain rfl := (List.cons.inj heq).2
    rw [hkeys]
    show (after? ']' keys.rest >>= fun rest => _) = _
    rw [hrest, hvalue]
    rfl
  · next hnone heq => exact absurd rfl (heq _)

/-! ### Documents -/

theorem statements?_nil : statements? [] = some [] := by
  rw [statements?]
  rfl

/-- One statement is read, and those after it. -/
theorem statements?_cons {statement : Statement} (hc : isBare c = true ∨ c = '[')
    (h : statement? (c :: input) = some (statement, rest))
    (hlength : rest.length < (c :: input).length) :
    statements? (c :: input) = (statements? rest).map (statement :: ·) := by
  have hspace : isSpace c = false := by
    rcases hc with hbare | rfl
    · exact isSpace_of_isBare hbare
    · rfl
  -- what starts so is neither an empty line nor a comment
  have hgap : ¬ (c = '#' ∨ c = '\n' ∨ c = '\r') := by
    rintro (rfl | rfl | rfl) <;> simp [isBare] at hc
  rw [statements?, skipSpaces_cons hspace]
  dsimp only
  rw [if_neg hgap, h]
  show (if rest.length < (c :: input).length then _ else _) = _
  rw [if_pos hlength]
  cases statements? rest <;> rfl

/-- **The line of an entry is read as a statement.** -/
theorem statements?_entryLine (hkey : Bare key) (h : Written v w) (rest : List Char) :
    statements? (entryLine key (some w) ++ rest) =
      (statements? rest).map (.assign [] key v :: ·) := by
  have hline := statement?_entryLine hkey h rest
  obtain ⟨c, cs, hcons, hc⟩ := hkey.exists_eq_cons
  rw [entryLine, hcons] at hline ⊢
  have hlength : rest.length < (c :: cs ++ [' ', '=', ' '] ++ w ++ ['\n'] ++ rest).length := by
    simp only [List.length_cons, List.length_append]
    omega
  exact statements?_cons (.inl hc) hline hlength

/-- The line of an entry that may be missing. -/
theorem statements?_entryLine_map (hkey : Bare key) {write : α → List Char} {valueOf : α → Value}
    (hwrite : ∀ a, Written (valueOf a) (write a)) (entry : Option α) (rest : List Char) :
    statements? (entryLine key (entry.map write) ++ rest) =
      (statements? rest).map
        ((entry.map fun a => Statement.assign [] key (valueOf a)).toList ++ ·) := by
  cases entry with
  | none => simp [entryLine]
  | some a => exact statements?_entryLine hkey (hwrite a) rest

/-- **The header of a section is read as a statement.** -/
theorem statements?_headerLine (hkey : Bare key) (rest : List Char) :
    statements? (headerLine key ++ rest) = (statements? rest).map (.header [] key :: ·) := by
  have hline : headerLine key ++ rest = '\n' :: '[' :: (key.toList ++ ']' :: '\n' :: rest) := by
    simp [headerLine]
  rw [hline, statements?]
  show (if '\n' = '#' ∨ '\n' = '\n' ∨ '\n' = '\r' then _ else _) = _
  rw [if_pos (by decide), endOfLine?_newLine, Option.bind_some, if_pos (by simp)]
  refine statements?_cons (.inr rfl) (statement?_header hkey rest) ?_
  simp only [List.length_cons, List.length_append]
  omega

end Agenda.Toml
