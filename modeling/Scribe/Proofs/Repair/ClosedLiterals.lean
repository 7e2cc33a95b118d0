import Scribe.Proofs.Repair.Stages

set_option autoImplicit false

/-! # Literals end with their line

However broken the quotes of a script are, a line of the normalized script that holds a call leaves
no literal open. Closing the quotes establishes this while the script is still one text. Rewriting
a literal, cutting the text into lines and cutting lines at separators keep it, and the lines that
later repairs add have nothing open. -/

namespace Scribe.Repair

open Balance (IsPlain)
open Text (isWhite)

/-- A line that leaves no literal open if it holds a call. -/
def ClosesLiterals (line : Text) : Prop :=
  mentionsCall line = true → (Balance.scan line).inQuote = false

theorem closesLiterals_of_quote_eq {line : Text} (h : (Balance.scan line).quote = none) :
    ClosesLiterals line := fun _ => by rw [Balance.inQuote, h, Option.isSome_none]

theorem IsWritten.closesLiterals {line : Text} (h : IsWritten line) : ClosesLiterals line :=
  closesLiterals_of_quote_eq (by rw [Balance.scan, h.isClosed.feedAll_eq {} rfl rfl])

/-! ## Closing quotes -/

theorem closesLiterals_closeQuotes (line : Text) : ClosesLiterals (closeQuotes line) := by
  unfold closeQuotes
  simp only
  split
  · exact closesLiterals_of_quote_eq (by rw [Balance.scan_closeOpen])
  · next h =>
    intro hcall
    simpa [hcall] using h

theorem newline_not_mem_closeQuotes {line : Text} (h : '\n' ∉ line) : '\n' ∉ closeQuotes line := by
  have hlit : ∀ q, (Balance.scan line).quote = some q → '\n' ≠ q := by
    intro q hq
    rcases (Balance.valid_scan line).quote_eq q hq with rfl | rfl <;> decide
  unfold closeQuotes
  simp only
  split
  · unfold Balance.closeOpen
    simp only [List.mem_append, List.mem_replicate, not_or, not_and]
    refine ⟨⟨?_, fun _ => by decide⟩, fun _ => by decide⟩
    split
    · next q hq =>
      rw [List.mem_append, List.mem_singleton, not_or]
      refine ⟨fun hn => ?_, hlit q hq⟩
      split at hn
      · exact h ((List.dropLast_sublist line).mem hn)
      · exact h hn
    · exact h
  · exact h

/-! ## White space around a line -/

/-- White space outside of literals changes nothing; inside of one it does not end it. -/
theorem ClosesLiterals.of_append {a line b : Text} (h : ClosesLiterals (a ++ line ++ b))
    (ha : ∀ c ∈ a, isWhite c = true) (hb : ∀ c ∈ b, isWhite c = true) :
    ClosesLiterals line := by
  intro hcall
  have hfree : ∀ c, a.getLast? = some c → Text.isIdentChar c = false := fun c hc =>
    isIdentChar_of_isWhite (ha c (List.mem_of_getLast? hc))
  have hclosed := h (mentionsCall_append (mentionsCall_append_left hfree hcall) b)
  have hstart : Balance.scan (a ++ line) = Balance.scan line := by
    rw [Balance.scan_append, Balance.scan,
      Balance.feedAll_of_isPlain rfl fun c hc => Balance.isPlain_of_isWhite (ha c hc)]
    rfl
  have hquote := (Balance.valid_scan line).quote_feedAll fun c hc =>
    Balance.isPlain_of_isWhite (hb c hc)
  rw [Balance.scan_append, hstart, Balance.inQuote, hquote] at hclosed
  exact hclosed

theorem ClosesLiterals.trim {line : Text} (h : ClosesLiterals line) :
    ClosesLiterals (Text.trim line) := by
  obtain ⟨a, b, ha, hb, hline⟩ := Text.exists_eq_append_trim line
  rw [hline] at h
  exact h.of_append ha hb

/-- Cutting joined lines again takes at most carriage returns off them. -/
theorem closesLiterals_of_mem_lines_unlines {lines : List Text} (hnl : ∀ l ∈ lines, '\n' ∉ l)
    (hlines : ∀ l ∈ lines, ClosesLiterals l) {line : Text}
    (h : line ∈ Text.lines (Text.unlines lines)) : ClosesLiterals line := by
  rcases Text.mem_of_mem_lines_unlines hnl h with h | h
  · exact hlines line h
  · have hr := hlines _ h
    rw [← List.nil_append line] at hr
    exact hr.of_append (by simp) (List.all_eq_true.1 (by decide))

/-! ## Literals written anew -/

theorem ClosesLiterals.updateLiteral {line : Text} (h : ClosesLiterals line) (verbs : List Verb)
    (f : Text → Text) : ClosesLiterals (updateLiteral verbs f line) := by
  rcases updateLiteral_cases verbs f line with heq | ⟨verb, value, rest, heq, hrest, _⟩
  · rwa [heq]
  · refine closesLiterals_of_quote_eq ?_
    have hopen : Balance.feed {} '(' = { parens := 1 } := rfl
    rw [heq, Balance.scan, Balance.feedAll_append, (isClosed_name verb).feedAll_eq {} rfl rfl,
      Balance.feedAll_cons, hopen, Balance.feedAll_append,
      (Literal.isClosed_quote value).feedAll_eq _ rfl rfl]
    exact hrest

theorem newline_not_mem_updateLiteral {line : Text} (h : '\n' ∉ line) (verbs : List Verb)
    (f : Text → Text) : '\n' ∉ updateLiteral verbs f line := by
  rcases updateLiteral_cases verbs f line with heq | ⟨verb, value, rest, heq, _, hrest⟩
  · rwa [heq]
  · have hname : '\n' ∉ verb.name := fun hn =>
      absurd ((isName_name verb).isIdentChar_of_mem hn) (by decide)
    have hquote := Literal.newline_not_mem_quote value
    have hrest : '\n' ∉ rest := fun hn => h (hrest.mem hn)
    simp [heq, hname, hquote, hrest]

/-- A mended script has closed literals on every line with a call. -/
theorem closesLiterals_of_mem_cut_mend {s line : Text} (h : line ∈ Draft.cut (mend s)) :
    ClosesLiterals line := by
  obtain ⟨l, hl, rfl⟩ := List.mem_map.1 (List.mem_filter.1 h).1
  -- Backward through the passes: the literals are re-rendered last, and closed before that.
  refine ClosesLiterals.trim (closesLiterals_of_mem_lines_unlines ?_ ?_ hl)
  · intro l hl
    obtain ⟨l₁, hl₁, rfl⟩ := List.mem_map.1 hl
    exact newline_not_mem_updateLiteral (Text.newline_not_mem_of_mem_lines hl₁) _ _
  · intro l hl
    obtain ⟨l₁, hl₁, rfl⟩ := List.mem_map.1 hl
    refine ClosesLiterals.updateLiteral (closesLiterals_of_mem_lines_unlines ?_ ?_ hl₁) _ _
    · intro l hl
      obtain ⟨l₂, hl₂, rfl⟩ := List.mem_map.1 hl
      exact newline_not_mem_closeQuotes (Text.newline_not_mem_of_mem_lines hl₂)
    · intro l hl
      obtain ⟨l₂, _, rfl⟩ := List.mem_map.1 hl
      exact closesLiterals_closeQuotes l₂

/-! ## Statements -/

/-- A piece between separators leaves nothing open, or it leaves open what its line does. -/
theorem ClosesLiterals.of_mem_splitTopLevel {sep : Char → Bool}
    (hsep : ∀ c, sep c = true → IsPlain c ∧ Text.isIdentChar c = false) {line piece : Text}
    (h : ClosesLiterals line) (hpiece : piece ∈ splitTopLevel sep line) :
    ClosesLiterals piece := by
  obtain ⟨a, z, hline, ha, hlast, hz⟩ :=
    Balance.exists_of_mem_splitFrom (fun c hc => (hsep c hc).1) hpiece
  rcases hz with rfl | hz
  · intro hcall
    rw [List.append_nil] at hline
    have hclosed := h (by
      rw [hline]
      exact mentionsCall_append_left (fun c hc => (hsep c (hlast c hc)).2) hcall)
    rw [hline, Balance.scan_append, ha] at hclosed
    exact hclosed
  · exact closesLiterals_of_quote_eq (by rw [hz])

theorem ClosesLiterals.of_mem_splitJoinedCalls {line part : Text} (h : ClosesLiterals line)
    (hpart : part ∈ splitJoinedCalls line) : ClosesLiterals part := by
  unfold splitJoinedCalls at hpart
  simp only at hpart
  split at hpart
  · rwa [List.mem_singleton.1 hpart]
  · obtain ⟨p, hp, rfl⟩ := List.mem_map.1 (List.mem_filter.1 hpart).1
    exact (h.of_mem_splitTopLevel (fun _ => isPlain_of_isSeparator) hp).trim

/-! ## The whole round -/

theorem closesLiterals_of_mem_roundLines {s line : Text} (h : line ∈ roundLines s) :
    ClosesLiterals line := by
  rcases conserves_arrange.comp conserves_promoteMathText _ line h with h | h
  · obtain ⟨l, hl, hline⟩ := List.mem_flatMap.1 h
    exact (closesLiterals_of_mem_cut_mend hl).of_mem_splitJoinedCalls hline
  · exact h.closesLiterals

/-- No literal is open at the end of a line of a normalized script that holds a call. -/
theorem inQuote_scan_of_mem_lines_normalize (s line : Text)
    (hline : line ∈ Text.lines (normalize s)) (hcall : mentionsCall line = true) :
    (Balance.scan line).inQuote = false := by
  obtain ⟨t, ht⟩ := exists_lines_normalize s
  rw [ht] at hline
  exact closesLiterals_of_mem_roundLines hline hcall

/-- A literal that is broken across lines and never closed. -/
theorem inQuote_scan_of_broken_literal :
    "insert_text('a b')".toList ∈ Text.lines (normalize "insert_text('a\n  b".toList) ∧
      mentionsCall "insert_text('a b')".toList = true ∧
      (Balance.scan "insert_text('a b')".toList).inQuote = false := by
  have hline : "insert_text('a b')".toList
      ∈ Text.lines (normalize "insert_text('a\n  b".toList) := by decide +kernel
  have hcall : mentionsCall "insert_text('a b')".toList = true := by decide +kernel
  exact ⟨hline, hcall, inQuote_scan_of_mem_lines_normalize _ _ hline hcall⟩

end Scribe.Repair
