/-
Agenda/Proofs/Search/Alternatives.lean

The loop over alternatives, and with it the first chunk of a text.

The loop reads links as long as there are any and then wants one more operand;
a link that was read is never given back.  Where that succeeds it finds the
longest OR sequence (`longest_of_alternatives`).  Where the links go on to the
end of the text nothing is left for the last operand, and the loop gives up
(`alternatives_eq_none_iff`), although all but the last link, with the operand
of that one, are an OR sequence if there are at least two:

    a or b or␣        links to the end, `a or b` stands at the start

`Dangling` names these texts.  They are the only ones where the first chunk
differs from the grammar (`conforms_parseNext_iff`).
-/
import Agenda.Proofs.Search.Matching

namespace Agenda.Search

variable {input : List Char} {tokens link : List Token} {rest r : List Char}

/-! ### What follows a link

At most one link stands at the start of a text, so whatever starts with a link
is known from what follows it. -/

theorem linksToEnd_iff_of_linkAt (h : LinkAt input link r) :
    LinksToEnd input ↔ r = [] ∨ LinksToEnd r := by
  constructor
  · intro hend
    cases hend with
    | last h' => exact .inl (h.unique h').2
    | more h' hr =>
      obtain ⟨-, rfl⟩ := h.unique h'
      exact .inr hr
  · rintro (rfl | hr)
    · exact .last h
    · exact .more h hr

theorem orSequenceAt_iff_of_linkAt (h : LinkAt input link r) :
    OrSequenceAt input tokens rest ↔
      ∃ us, (OperandAt .orTerm r us rest ∨ OrSequenceAt r us rest) ∧ tokens = link ++ us := by
  constructor
  · intro hseq
    cases hseq with
    | last h' hop =>
      obtain ⟨rfl, rfl⟩ := h.unique h'
      exact ⟨_, .inl hop, rfl⟩
    | more h' hseq =>
      obtain ⟨rfl, rfl⟩ := h.unique h'
      exact ⟨_, .inr hseq, rfl⟩
  · rintro ⟨us, hop | hseq, rfl⟩
    · exact .last h hop
    · exact .more h hseq

theorem OrSequenceAt.exists_linkAt (h : OrSequenceAt input tokens rest) :
    ∃ link r, LinkAt input link r := by
  cases h with
  | last h _ => exact ⟨_, _, h⟩
  | more h _ => exact ⟨_, _, h⟩

theorem LinksToEnd.exists_linkAt (h : LinksToEnd input) : ∃ link r, LinkAt input link r := by
  cases h with
  | last h => exact ⟨_, _, h⟩
  | more h _ => exact ⟨_, _, h⟩

theorem OrSequenceAt.length_lt (h : OrSequenceAt input tokens rest) :
    rest.length < input.length := by
  induction h with
  | last h hop => exact hop.length_lt.trans h.length_lt
  | more h _ ih => exact ih.trans h.length_lt

/-- Operands of either kind end at the same place. -/
theorem OperandAt.rest_eq {kind kind' : TokenKind} {ts us : List Token}
    (h : OperandAt kind input ts rest) (h' : OperandAt kind' input us r) : rest = r := by
  have hkind : ∃ vs, OperandAt kind input vs r := by
    cases h' with
    | status hs => exact ⟨_, .status hs⟩
    | term hn hw =>
      obtain ⟨text, hne, hall, hstop, hinput, -⟩ := hw
      exact ⟨_, .term hn ⟨text, hne, hall, hstop, hinput, rfl⟩⟩
  obtain ⟨vs, hv⟩ := hkind
  exact (h.unique hv).2

/-- An operand is the start of the link that stands in the same place. -/
theorem LinkAt.length_lt_operandAt {kind : TokenKind} (h : LinkAt input link r)
    (hop : OperandAt kind input tokens rest) : r.length < rest.length := by
  obtain ⟨hleft, hbefore, hword, hafter⟩ := h
  obtain rfl := hop.rest_eq hleft
  have h₁ := (blanksAt_iff.mp hbefore).length_lt
  have h₂ := ((keywordAt_iff (List.cons_ne_nil _ _)).mp hword).length_lt
  have h₃ := (blanksAt_iff.mp hafter).length_lt
  omega

/-- Whatever starts with a link goes further than its first operand. -/
theorem OrSequenceAt.length_lt_operandAt {kind : TokenKind} {ts : List Token}
    (h : OrSequenceAt input ts r) (hop : OperandAt kind input tokens rest) :
    r.length < rest.length := by
  cases h with
  | last h hlast => exact hlast.length_lt.trans (h.length_lt_operandAt hop)
  | more h hmore => exact hmore.length_lt.trans (h.length_lt_operandAt hop)

/-! ### The loop -/

theorem linkAt_of_orLink {m : Match input} (h : orLink input = some m) :
    LinkAt input m.tokens m.rest :=
  linkAt_iff.mpr ⟨m, h, rfl, rfl⟩

/-- The loop fails where there is no link, and where the links go on to the end. -/
theorem alternatives_eq_none_iff :
    alternatives input = none ↔ (∀ ts r, ¬ LinkAt input ts r) ∨ LinksToEnd input := by
  -- where a link was read, only what follows it counts
  have hread : ∀ {i : List Char} {m : Match i}, orLink i = some m →
      (((∀ ts r, ¬ LinkAt i ts r) ∨ LinksToEnd i) ↔ m.rest = [] ∨ LinksToEnd m.rest) := by
    intro i m h
    have hlink := linkAt_of_orLink h
    rw [or_iff_right fun hn => hn _ _ hlink, linksToEnd_iff_of_linkAt hlink]
  fun_induction alternatives input with
  | case1 input h => simp [orLink_eq_none_iff.mp h]
  | case2 input m h more hmore ih =>
    rw [hread h]
    simp only [reduceCtorEq, false_iff, not_or]
    rw [hmore, iff_false_left (Option.some_ne_none _), not_or] at ih
    refine ⟨fun hend => ih.1 fun ts r hlink => ?_, ih.2⟩
    rw [hend] at hlink
    exact Nat.not_lt_zero _ hlink.length_lt
  | case3 input m h hmore next hnext ih =>
    rw [hread h]
    have hlink := linkAt_of_orLink hnext
    exact iff_of_true rfl (.inr ((ih.mp hmore).resolve_left fun hn => hn _ _ hlink))
  | case4 input m h hmore hnext ih =>
    -- an operand is missing only at the end of the text
    rw [hread h, Option.map_eq_none_iff, operand_eq_none_iff, or_iff_left]
    intro hend
    obtain ⟨ts, r, hlink⟩ := hend.exists_linkAt
    exact orLink_eq_none_iff.mp hnext _ _ hlink

/-- Where the loop succeeds, it has read the longest OR sequence. -/
theorem longest_of_alternatives (h : Yields (alternatives input) tokens rest) :
    Longest OrSequenceAt input tokens rest := by
  obtain ⟨m, hm, rfl, rfl⟩ := h
  fun_induction alternatives input with
  | case1 input _ => cases hm
  | case2 input link hlink more hmore ih =>
    -- what follows the link is the longest, so the whole is
    obtain rfl := Option.some.inj hm
    obtain ⟨hseq, hmax⟩ := ih more hmore
    have hlink := linkAt_of_orLink hlink
    refine ⟨.more hlink hseq, fun ts r hother => ?_⟩
    obtain ⟨us, hop | hother, -⟩ := (orSequenceAt_iff_of_linkAt hlink).mp hother
    · exact (hseq.length_lt_operandAt hop).le
    · exact hmax us r hother
  | case3 input _ _ _ _ _ _ => cases hm
  | case4 input link hlink hmore hnext ih =>
    -- the last operand cannot be blanks: the link took them all
    obtain ⟨last, hlast, rfl⟩ := Option.map_eq_some_iff.mp hm
    have hlink := linkAt_of_orLink hlink
    have hop : OperandAt .orTerm link.rest last.tokens last.rest := by
      refine (yields_operand_iff.mp ⟨last, hlast, rfl, rfl⟩).resolve_right fun hblanks => ?_
      exact hlink.rest_not_blanksAt _ _ hblanks
    refine ⟨.last hlink hop, fun ts r hother => ?_⟩
    obtain ⟨us, hop' | hother, -⟩ := (orSequenceAt_iff_of_linkAt hlink).mp hother
    · exact (congrArg List.length (hop.unique hop').2).le
    -- no link follows the one that was read last
    · obtain ⟨ts, r, hl⟩ := hother.exists_linkAt
      exact absurd hl (orLink_eq_none_iff.mp hnext ts r)

/-! ### The first chunk -/

/-- Two links or more, up to the end of the text. -/
def Dangling (input : List Char) : Prop :=
  ∃ link r, LinkAt input link r ∧ LinksToEnd r

/-- The chunk is the one the grammar asks for: the longest OR sequence if there is one, else the
operand or the blanks at the start. -/
def Conforms (input : List Char) (chunk : Chunk) : Prop :=
  ((∃ ts r, OrSequenceAt input ts r) → Longest OrSequenceAt input chunk.tokens chunk.rest) ∧
    ((¬ ∃ ts r, OrSequenceAt input ts r) → input ≠ [] →
      OperandAt .andTerm input chunk.tokens chunk.rest ∨
        BlanksAt input chunk.tokens chunk.rest)

theorem parseNext_of_some {m : Match input} (h : alternatives input = some m) :
    parseNext input = { tokens := m.tokens, rest := m.rest } := by
  obtain ⟨hseq, -⟩ := longest_of_alternatives ⟨m, h, rfl, rfl⟩
  rw [parseNext, firstMatch, h]
  cases hop : operand .andTerm input with
  | none => rfl
  | some n =>
    obtain ⟨link, r, hlink⟩ := hseq.exists_linkAt
    have hn := (yields_operand_iff.mp ⟨n, hop, rfl, rfl⟩).resolve_right (hlink.not_blanksAt _ _)
    simp only [longest, if_neg (hseq.length_lt_operandAt hn).not_gt]

theorem parseNext_of_none (h : alternatives input = none) (hne : input ≠ []) :
    OperandAt .andTerm input (parseNext input).tokens (parseNext input).rest ∨
      BlanksAt input (parseNext input).tokens (parseNext input).rest := by
  rw [← yields_operand_iff]
  obtain ⟨m, hm⟩ := Option.ne_none_iff_exists'.mp
    (mt (operand_eq_none_iff .andTerm).mp hne)
  refine ⟨m, hm, ?_⟩
  simp only [parseNext, firstMatch, h, hm, longest, and_self]

/-- All links but the last, and the operand of that one. -/
theorem Dangling.exists_orSequenceAt (h : Dangling input) : ∃ ts r, OrSequenceAt input ts r := by
  obtain ⟨link, r, hlink, hend⟩ := h
  obtain ⟨_, _, ⟨hleft, -, -, -⟩⟩ := hend.exists_linkAt
  exact ⟨_, _, .last hlink hleft⟩

/-- One link up to the end of the text is no OR sequence, nor the start of one. -/
theorem not_orSequenceAt_of_linkAt_nil (h : LinkAt input link []) (ts : List Token)
    (r : List Char) : ¬ OrSequenceAt input ts r := by
  intro hseq
  obtain ⟨us, hop | hseq, -⟩ := (orSequenceAt_iff_of_linkAt h).mp hseq
  · exact Nat.not_lt_zero _ hop.length_lt
  · exact Nat.not_lt_zero _ hseq.length_lt

/-- Of a text with dangling links only the first operand is read. -/
theorem Dangling.operandAt_parseNext (h : Dangling input) :
    OperandAt .andTerm input (parseNext input).tokens (parseNext input).rest := by
  obtain ⟨link, r, hlink, hend⟩ := h
  have hnone := alternatives_eq_none_iff.mpr (.inr (.more hlink hend))
  have hne : input ≠ [] := by
    rintro rfl
    exact Nat.not_lt_zero _ hlink.length_lt
  exact (parseNext_of_none hnone hne).resolve_right (hlink.not_blanksAt _ _)

theorem Dangling.not_conforms (h : Dangling input) : ¬ Conforms input (parseNext input) := by
  intro hconf
  obtain ⟨hseq, -⟩ := hconf.1 h.exists_orSequenceAt
  exact absurd (hseq.length_lt_operandAt h.operandAt_parseNext) (Nat.lt_irrefl _)

/-- **The first chunk is the longest match of the grammar, but for dangling links.**  Where two
links or more run to the end of the text, an OR sequence stands at its start and only the first
operand is read. -/
theorem conforms_parseNext_iff (input : List Char) :
    (Conforms input (parseNext input) ↔ ¬ Dangling input) ∧
      (Dangling input →
        OperandAt .andTerm input (parseNext input).tokens (parseNext input).rest) := by
  refine ⟨⟨fun hconf h => h.not_conforms hconf, fun hnot => ?_⟩, Dangling.operandAt_parseNext⟩
  cases halt : alternatives input with
  | some m =>
    have hlongest := longest_of_alternatives ⟨m, halt, rfl, rfl⟩
    rw [parseNext_of_some halt]
    exact ⟨fun _ => hlongest, fun h => absurd ⟨_, _, hlongest.1⟩ h⟩
  | none =>
    -- without a link, or with a single one that ends the text, there is no OR sequence
    have hseq : ¬ ∃ ts r, OrSequenceAt input ts r := by
      rintro ⟨ts, r, hseq⟩
      obtain ⟨link, r', hlink⟩ := hseq.exists_linkAt
      rcases alternatives_eq_none_iff.mp halt with hno | hend
      · exact hno _ _ hlink
      · rcases (linksToEnd_iff_of_linkAt hlink).mp hend with rfl | hend
        · exact not_orSequenceAt_of_linkAt_nil hlink ts r hseq
        · exact hnot ⟨_, _, hlink, hend⟩
    exact ⟨fun h => absurd h hseq, fun _ => parseNext_of_none halt⟩

/-- Of `a or b or␣` only the `a` is read, although `a or b` stands at the start. -/
theorem not_conforms_dangling_text :
    ¬ Conforms "a or b or ".toList (parseNext "a or b or ".toList) := by
  have hfirst : LinkAt "a or b or ".toList
      [⟨.orTerm, "a"⟩, ⟨.whitespace, " "⟩, ⟨.or, "or"⟩, ⟨.whitespace, " "⟩] "b or ".toList := by
    decide +kernel
  have hlast : LinkAt "b or ".toList
      [⟨.orTerm, "b"⟩, ⟨.whitespace, " "⟩, ⟨.or, "or"⟩, ⟨.whitespace, " "⟩] [] := by
    decide +kernel
  exact Dangling.not_conforms ⟨_, _, hfirst, .last hlast⟩

end Agenda.Search
