/-
Agenda/Proofs/Search/Query.lean

All chunks of a text, and the query that asks for nothing.  A text of nothing
but blanks has at most one chunk, and that chunk means nothing, so the query
of such a text admits every item of the list.
-/
import Agenda.Proofs.Search.Alternatives
import Agenda.Search.Query

namespace Agenda.Search

open Text

/-! ### Chunks -/

theorem firstMatch_nil : firstMatch [] = none := by
  cases h : firstMatch [] with
  | none => rfl
  | some m => exact absurd m.rest_lt (Nat.not_lt_zero _)

@[simp] theorem parseNext_nil : parseNext [] = { tokens := [], rest := [] } := by
  rw [parseNext, firstMatch_nil]

@[simp] theorem parseAll_nil : parseAll [] = [] := by
  rw [parseAll, firstMatch_nil]

theorem parseAll_eq_cons {input : List Char} (hne : input ≠ []) :
    parseAll input = parseNext input :: parseAll (parseNext input).rest := by
  have hsome : ∃ m, firstMatch input = some m := by
    obtain ⟨n, hn⟩ := Option.ne_none_iff_exists'.mp
      (mt (operand_eq_none_iff .andTerm).mp hne)
    rw [firstMatch, hn]
    cases alternatives input with
    | none => exact ⟨n, rfl⟩
    | some m =>
      rw [longest]
      split
      · exact ⟨n, rfl⟩
      · exact ⟨m, rfl⟩
  obtain ⟨m, hm⟩ := hsome
  rw [parseAll, parseNext, hm]

/-! ### Blank texts -/

/-- The text consists of blanks, or is empty. -/
def Blank (text : String) : Prop :=
  ∀ c ∈ text.toList, isBlank c = true

instance (text : String) : Decidable (Blank text) :=
  List.decidableBAll (fun c => isBlank c = true) text.toList

theorem parseNext_of_blank {input : List Char} (hne : input ≠ [])
    (hblank : ∀ c ∈ input, isBlank c = true) :
    parseNext input = { tokens := [Token.ofList .whitespace input], rest := [] } := by
  have hgap : BlanksAt input [Token.ofList .whitespace input] [] :=
    ⟨input, hne, hblank, by simp, (List.append_nil input).symm, rfl⟩
  have hnone : alternatives input = none :=
    alternatives_eq_none_iff.mpr (.inl fun ts r h => h.not_blanksAt _ _ hgap)
  have hchunk := (parseNext_of_none hnone hne).resolve_left fun h => h.not_blanksAt _ _ hgap
  obtain ⟨htokens, hrest⟩ := (blanksAt_iff.mp hchunk).unique (blanksAt_iff.mp hgap)
  rw [← htokens, ← hrest]

theorem conditions_of_blank {search : String} (h : Blank search) :
    (Query.parse search).conditions = [] := by
  rw [Query.parse]
  by_cases hne : search.toList = []
  · rw [hne, parseAll_nil]
    rfl
  · rw [parseAll_eq_cons hne, parseNext_of_blank hne h, parseAll_nil]
    rfl

/-- A blank search admits the whole list. -/
theorem admits_of_blank {search : String} (h : Blank search) (listId : String) (item : Item) :
    (Query.parse search).admits listId item = decide (item.listId = listId) := by
  rw [Query.admits, conditions_of_blank h, List.all_nil, Bool.and_true]

/-- Every search stays inside of its list. -/
theorem listId_of_admits {query : Query} {listId : String} {item : Item}
    (h : query.admits listId item = true) : item.listId = listId := by
  rw [Query.admits, Bool.and_eq_true] at h
  exact of_decide_eq_true h.1

end Agenda.Search
