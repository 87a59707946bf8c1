/-
Agenda/Proofs/Search/Conditions.lean

From chunks to conditions.  Every chunk of a text has a condition, and a query
keeps those that count: `chunkConditions` are all of them, `asking` leaves out
those that ask for nothing, and `significant` also leaves out the status
predicates that stand alone but for the first.

`significant` is a homomorphism up to what it has seen (`significant_append`).
-/
import Agenda.Proofs.Search.Stability

namespace Agenda.Search

open Text

variable {input rest : List Char} {tokens : List Token}

/-! ### The conditions of all chunks -/

theorem normalize_append (ts us : List Token) :
    normalize (ts ++ us) = normalize ts ++ normalize us := by
  simp only [normalize, List.filter_append, List.map_append]

/-- The conditions of all chunks of a text, also of those that ask for nothing. -/
def chunkConditions (input : List Char) : List Condition :=
  (parseAll input).map fun chunk => Condition.ofTokens chunk.normalized

theorem conditions_parse (text : String) :
    (Query.parse text).conditions = significant false (chunkConditions text.toList) := rfl

@[simp] theorem chunkConditions_nil : chunkConditions [] = [] := by
  rw [chunkConditions, parseAll_nil, List.map_nil]

theorem chunkConditions_of_ne_nil (hne : input ≠ []) :
    chunkConditions input = Condition.ofTokens (parseNext input).normalized ::
      chunkConditions (parseNext input).rest := by
  rw [chunkConditions, parseAll_eq_cons hne]
  rfl

theorem chunkConditions_of_blanksAt (h : BlanksAt input tokens rest) :
    chunkConditions input = .unconstrained :: chunkConditions rest := by
  rw [chunkConditions_of_ne_nil h.ne_nil, parseNext_of_blanksAt h]
  obtain ⟨text, -, -, -, -, rfl⟩ := h
  rfl

theorem chunkConditions_of_parseNext (hne : input ≠ []) (h : parseNext input = { tokens, rest }) :
    chunkConditions input = Condition.ofTokens (normalize tokens) :: chunkConditions rest := by
  rw [chunkConditions_of_ne_nil hne, h]
  rfl

/-! ### Conditions that ask for something -/

/-- The conditions that ask for something. -/
def asking (conditions : List Condition) : List Condition :=
  conditions.filter fun condition => !decide (condition = .unconstrained)

theorem asking_append (conditions others : List Condition) :
    asking (conditions ++ others) = asking conditions ++ asking others :=
  List.filter_append _ _

theorem BlanksAt.dropBlanks_eq (h : BlanksAt input tokens rest) : dropBlanks input = rest := by
  obtain ⟨gap, -, hgap, hstop, rfl, -⟩ := h
  rw [dropBlanks, List.dropWhile_append_of_pos hgap]
  exact dropBlanks_eq_self hstop

/-- Blanks at the start of a text ask for nothing. -/
theorem asking_dropBlanks (input : List Char) :
    asking (chunkConditions (dropBlanks input)) = asking (chunkConditions input) := by
  cases hread : blanks input with
  | some m =>
    have hb : BlanksAt input m.tokens m.rest := blanksAt_iff.mpr ⟨m, hread, rfl, rfl⟩
    rw [hb.dropBlanks_eq, chunkConditions_of_blanksAt hb]
    rfl
  | none =>
    rw [dropBlanks_eq_self]
    intro c hc
    obtain ⟨cs, rfl⟩ := List.head?_eq_some_iff.mp hc
    by_contra hblank
    rw [blanks, run, dif_pos (by simp [hblank])] at hread
    cases hread

/-! ### Conditions that count -/

/-- The condition is a status predicate that stands alone. -/
def Condition.isStatus : Condition → Bool
  | .status _ => true
  | .anyOf _ | .allTerms _ | .unconstrained => false

@[simp] theorem isStatus_status (state : DoneState) :
    (Condition.status state).isStatus = true := rfl

@[simp] theorem isStatus_anyOf (operands : List Operand) :
    (Condition.anyOf operands).isStatus = false := rfl

@[simp] theorem isStatus_allTerms (terms : List String) :
    (Condition.allTerms terms).isStatus = false := rfl

@[simp] theorem isStatus_unconstrained : Condition.unconstrained.isStatus = false := rfl

theorem significant_asking (seen : Bool) (conditions : List Condition) :
    significant seen (asking conditions) = significant seen conditions := by
  induction conditions generalizing seen with
  | nil => rfl
  | cons condition conditions ih =>
    rw [asking] at ih ⊢
    cases condition <;> simp [significant, ih]

theorem significant_append (seen : Bool) (conditions others : List Condition) :
    significant seen (conditions ++ others) = significant seen conditions ++
      significant (seen || conditions.any Condition.isStatus) others := by
  induction conditions generalizing seen with
  | nil => simp [significant]
  | cons condition conditions ih => cases condition <;> cases seen <;> simp [significant, ih]

/-- After a status predicate all others that stand alone are dropped. -/
theorem significant_eq_filter (seen : Bool) (conditions : List Condition) :
    significant true conditions =
      (significant seen conditions).filter fun condition => !condition.isStatus := by
  induction conditions generalizing seen with
  | nil => rfl
  | cons condition conditions ih =>
    cases condition <;> cases seen <;> simp [significant, ← ih]

theorem any_isStatus_significant (conditions : List Condition) :
    (significant false conditions).any Condition.isStatus =
      conditions.any Condition.isStatus := by
  induction conditions with
  | nil => rfl
  | cons condition conditions ih =>
    cases condition <;> simp [significant, ih]

end Agenda.Search
