import Scribe.Proofs.Repair.Stages

set_option autoImplicit false

/-! # Calls joined on one line

Inside a call no separator stands at top level: from its parenthesis on, one is open up to the last
character. So a line of joined calls is cut exactly where they were joined, whatever separators
their literals and brackets hold. A part that has been cut out is in one piece, so cutting it again
changes nothing. -/

namespace Scribe.Repair

open Text (isWhite isIdentChar)

/-! ## Lines in one piece -/

/-- A line in one piece is one statement. -/
theorem splitJoinedCalls_eq {line : Text}
    (hpieces : splitTopLevel (fun c => c == '+' || c == ';') line = [line]) :
    splitJoinedCalls line = [line] := by
  have hparts : (statementParts line).length ≤ 1 := by
    rw [statementParts, hpieces]
    exact List.length_filter_le _ _
  have hcalls : ((statementParts line).filter fun p => (CallLine.ofLine? p).isSome).length < 2 :=
    Nat.lt_succ_of_le (Nat.le_trans (List.length_filter_le _ _) hparts)
  simp only [splitJoinedCalls, if_pos hcalls]

theorem isSeparator_of_isIdentChar {c : Char} (h : isIdentChar c = true ∨ isWhite c = true) :
    (c == '+' || c == ';') = false := by
  by_cases hsep : (c == '+' || c == ';') = true
  · rw [Bool.or_eq_true, beq_iff_eq, beq_iff_eq] at hsep
    rcases hsep with rfl | rfl <;> exact absurd h (by decide)
  · simpa using hsep

/-- The separators of a call stand inside its parentheses. -/
theorem splitTopLevel_of_ofLine? {line : Text} {call : CallLine}
    (hcall : CallLine.ofLine? line = some call) (htrim : Text.trim line = line) :
    splitTopLevel (fun c => c == '+' || c == ';') line = [line] := by
  obtain ⟨hname, hargs, _⟩ := CallLine.ofLine?_eq_some_iff.1 hcall
  obtain ⟨gap, hgap, hline⟩ := CallLine.exists_eq_of_ofLine? hcall htrim
  have hsep : ∀ c ∈ call.name ++ gap, (c == '+' || c == ';') = false := by
    intro c hc
    rcases List.mem_append.1 hc with hc | hc
    · exact isSeparator_of_isIdentChar (Or.inl (hname.isIdentChar_of_mem hc))
    · exact isSeparator_of_isIdentChar (Or.inr (hgap c hc))
  have hopen : Balance.feed {} '(' = { parens := 1 } := rfl
  rw [splitTopLevel, hline, Balance.splitFrom_append_eq_iff, feedAll_name_gap hname hgap,
    Balance.splitFrom_cons_eq_iff, hopen]
  exact ⟨Balance.splitFrom_eq {} hsep, rfl, Balance.splitFrom_of_untilClosed? Nat.one_pos hargs⟩

/-! ## Joining -/

/-- A trimmed text that is one call, at the end of which nothing is open. -/
structure IsCompleteCall (call : Text) : Prop where
  trim_eq : Text.trim call = call
  isSome_ofLine? : (CallLine.ofLine? call).isSome = true
  atTopLevel : (Balance.scan call).atTopLevel = true

instance (call : Text) : Decidable (IsCompleteCall call) :=
  decidable_of_iff
    (Text.trim call = call ∧ (CallLine.ofLine? call).isSome = true ∧
      (Balance.scan call).atTopLevel = true)
    ⟨fun h => ⟨h.1, h.2.1, h.2.2⟩, fun h => ⟨h.trim_eq, h.isSome_ofLine?, h.atTopLevel⟩⟩

/-- A line joins calls if it consists of them in their order, with one `+` or `;` between two of
    them and white space around it. -/
inductive Joins : List Text → Text → Prop where
  | one (call : Text) : Joins [call] call
  | cons (call : Text) {before after : Text} {separator : Char} {calls : List Text} {line : Text}
      (hbefore : ∀ c ∈ before, isWhite c = true) (hafter : ∀ c ∈ after, isWhite c = true)
      (hseparator : separator = '+' ∨ separator = ';') (hline : Joins calls line) :
      Joins (call :: calls) (call ++ before ++ separator :: (after ++ line))

namespace IsCompleteCall

variable {call : Text}

theorem ne_nil (h : IsCompleteCall call) : call ≠ [] := by
  rintro rfl
  exact absurd h.isSome_ofLine? (by decide)

theorem scan_eq (h : IsCompleteCall call) : Balance.scan call = {} :=
  (Balance.valid_scan call).eq_empty h.atTopLevel

theorem splitTopLevel_eq (h : IsCompleteCall call) :
    splitTopLevel (fun c => c == '+' || c == ';') call = [call] := by
  obtain ⟨found, hfound⟩ := Option.isSome_iff_exists.1 h.isSome_ofLine?
  exact splitTopLevel_of_ofLine? hfound h.trim_eq

/-- White space around a call belongs to its piece of the line and is trimmed off there. -/
theorem piece (h : IsCompleteCall call) {before after : Text}
    (hbefore : ∀ c ∈ before, isWhite c = true) (hafter : ∀ c ∈ after, isWhite c = true) :
    splitTopLevel (fun c => c == '+' || c == ';') (before ++ call ++ after)
        = [before ++ call ++ after] ∧
      Balance.scan (before ++ call ++ after) = {} ∧
      Text.trim (before ++ call ++ after) = call := by
  have hopen (s : Text) (hs : ∀ c ∈ s, isWhite c = true) : Balance.feedAll {} s = {} :=
    Balance.feedAll_of_isPlain rfl fun c hc => Balance.isPlain_of_isWhite (hs c hc)
  have hsep (s : Text) (hs : ∀ c ∈ s, isWhite c = true) :
      ∀ c ∈ s, (c == '+' || c == ';') = false := fun c hc =>
    isSeparator_of_isIdentChar (Or.inr (hs c hc))
  have hscan : Balance.feedAll {} call = {} := h.scan_eq
  refine ⟨?_, ?_, ?_⟩
  · rw [splitTopLevel, Balance.splitFrom_append_eq_iff, Balance.splitFrom_append_eq_iff,
      hopen before hbefore]
    exact ⟨⟨Balance.splitFrom_eq _ (hsep before hbefore), h.splitTopLevel_eq⟩,
      Balance.splitFrom_eq _ (hsep after hafter)⟩
  · rw [Balance.scan, Balance.feedAll_append, Balance.feedAll_append, hopen before hbefore, hscan,
      hopen after hafter]
  · rw [Text.trim_padded hbefore hafter, h.trim_eq]

end IsCompleteCall

/-- The line that joins calls is cut into these calls. -/
theorem map_trim_splitTopLevel_of_joins {calls : List Text} {line : Text}
    (hjoins : Joins calls line) (hcalls : ∀ call ∈ calls, IsCompleteCall call) :
    (splitTopLevel (fun c => c == '+' || c == ';') line).map Text.trim = calls := by
  -- White space in front, as it stands behind a separator, makes no difference.
  suffices hpadded : ∀ space : Text, (∀ c ∈ space, isWhite c = true) →
      (splitTopLevel (fun c => c == '+' || c == ';') (space ++ line)).map Text.trim = calls from
    hpadded [] (by simp)
  induction hjoins with
  | one call =>
    intro space hspace
    have hnone : ∀ c ∈ ([] : Text), isWhite c = true := fun _ hc => absurd hc List.not_mem_nil
    obtain ⟨hpiece, _, htrim⟩ := (hcalls call List.mem_cons_self).piece hspace hnone
    rw [List.append_nil] at hpiece htrim
    rw [hpiece, List.map_singleton, htrim]
  | @cons call before after separator calls line hbefore hafter hseparator _ ih =>
    intro space hspace
    obtain ⟨hpiece, hscan, htrim⟩ := (hcalls call List.mem_cons_self).piece hspace hbefore
    have hsep : (separator == '+' || separator == ';') = true := by
      rcases hseparator with rfl | rfl <;> rfl
    have hline : space ++ (call ++ before ++ separator :: (after ++ line))
        = space ++ call ++ before ++ separator :: (after ++ line) := by simp
    rw [hline, splitTopLevel, Balance.splitFrom_append_cons hpiece hscan hsep, List.map_cons, htrim,
      ← splitTopLevel, ih (fun c hc => hcalls c (List.mem_cons_of_mem _ hc)) after hafter]

theorem splitJoinedCalls_of_joins {calls : List Text} {line : Text} (hmany : 2 ≤ calls.length)
    (hcalls : ∀ call ∈ calls, IsCompleteCall call) (hjoins : Joins calls line) :
    splitJoinedCalls line = calls := by
  have hparts : statementParts line = calls := by
    rw [statementParts, map_trim_splitTopLevel_of_joins hjoins hcalls, List.filter_eq_self]
    exact fun call hcall => by simpa using (hcalls call hcall).ne_nil
  have hall : (calls.filter fun p => (CallLine.ofLine? p).isSome) = calls :=
    List.filter_eq_self.2 fun call hcall => (hcalls call hcall).isSome_ofLine?
  simp only [splitJoinedCalls, hparts, hall, if_neg (Nat.not_lt.2 hmany)]

/-! ## Counting calls -/

theorem ofLine?_trim (line : Text) : CallLine.ofLine? line.trim = CallLine.ofLine? line := by
  simp only [CallLine.ofLine?, Text.trim_trim]

/-- The parts that are calls are the pieces that are. -/
theorem length_filter_statementParts (line : Text) :
    ((statementParts line).filter fun p => (CallLine.ofLine? p).isSome).length
      = (splitTopLevel (fun c => c == '+' || c == ';') line).countP
          fun p => (CallLine.ofLine? p).isSome := by
  have hpiece (p : Text) :
      ((CallLine.ofLine? p.trim).isSome && !p.trim.isEmpty) = (CallLine.ofLine? p).isSome := by
    rw [ofLine?_trim]
    cases hempty : p.trim.isEmpty with
    | false => simp
    | true =>
      have hnone : CallLine.ofLine? p = none := by
        rw [← ofLine?_trim, List.isEmpty_iff.1 hempty]
        rfl
      simp [hnone]
  rw [statementParts, List.filter_filter, ← List.countP_eq_length_filter, List.countP_map]
  exact List.countP_congr fun p _ => by simp only [Function.comp_apply, hpiece]

/-! ## Splitting twice -/

/-- A part of a line is one statement. -/
theorem splitJoinedCalls_of_mem_statementParts {line part : Text}
    (h : part ∈ statementParts line) : splitJoinedCalls part = [part] := by
  obtain ⟨hpart, _⟩ := List.mem_filter.1 h
  obtain ⟨piece, hmem, rfl⟩ := List.mem_map.1 hpart
  refine splitJoinedCalls_eq ?_
  have hpiece : Balance.splitFrom (fun c => c == '+' || c == ';') {} piece = [piece] := by
    rw [splitTopLevel] at hmem
    cases hsplit : Balance.splitFrom (fun c => c == '+' || c == ';') {} line with
    | nil => exact absurd hsplit (Balance.splitFrom_ne_nil _ _ _)
    | cons p ps =>
      obtain ⟨hp, hps⟩ := Balance.splitFrom_of_splitFrom Balance.valid_empty hsplit
      rw [hsplit] at hmem
      rcases List.mem_cons.1 hmem with rfl | hmem
      · exact hp
      · exact hps piece hmem
  -- What is trimmed off opens nothing, so the rest of the piece is read as before.
  obtain ⟨a, b, ha, _, htrim⟩ := Text.exists_eq_append_trim piece
  rw [htrim, Balance.splitFrom_append_eq_iff, Balance.splitFrom_append_eq_iff,
    Balance.feedAll_of_isPlain rfl fun c hc => Balance.isPlain_of_isWhite (ha c hc)] at hpiece
  exact hpiece.1.2

theorem flatMap_splitJoinedCalls (line : Text) :
    (splitJoinedCalls line).flatMap splitJoinedCalls = splitJoinedCalls line := by
  have hparts : (statementParts line).flatMap splitJoinedCalls = statementParts line := by
    rw [List.flatMap_def,
      List.map_congr_left fun part hpart => splitJoinedCalls_of_mem_statementParts hpart,
      ← List.flatMap_def, List.flatMap_singleton']
  by_cases hcalls : ((statementParts line).filter fun p => (CallLine.ofLine? p).isSome).length < 2
  · have hline : splitJoinedCalls line = [line] := by simp only [splitJoinedCalls, if_pos hcalls]
    rw [hline, List.flatMap_singleton, hline]
  · have hline : splitJoinedCalls line = statementParts line := by
      simp only [splitJoinedCalls, if_neg hcalls]
    rw [hline, hparts]

/-! ## Splitting undoes joining -/

/-- A line of two or more complete calls, joined by `+` or `;` in any way, is split into exactly
    these calls. A line with fewer than two calls among its pieces at top level stays as it is, and
    splitting lines that have been split changes nothing. -/
theorem splitConcatenatedCalls_joins :
    (∀ calls line, 2 ≤ calls.length → (∀ call ∈ calls, IsCompleteCall call) → Joins calls line →
      splitConcatenatedCalls [line] = calls) ∧
    (∀ line, (splitTopLevel (fun c => c == '+' || c == ';') line).countP
        (fun p => (CallLine.ofLine? p).isSome) < 2 → splitConcatenatedCalls [line] = [line]) ∧
    ∀ lines, splitConcatenatedCalls (splitConcatenatedCalls lines)
      = splitConcatenatedCalls lines := by
  refine ⟨fun calls line hmany hcalls hjoins => ?_, fun line hfew => ?_, fun lines => ?_⟩
  · rw [splitConcatenatedCalls, List.flatMap_singleton,
      splitJoinedCalls_of_joins hmany hcalls hjoins]
  · rw [← length_filter_statementParts] at hfew
    rw [splitConcatenatedCalls, List.flatMap_singleton]
    simp only [splitJoinedCalls, if_pos hfew]
  · simp only [splitConcatenatedCalls, List.flatMap_assoc, flatMap_splitJoinedCalls]

/-- Calls whose literals, lists and inner calls hold separators and closing brackets. -/
def separatorCalls : List Text :=
  [ "insert_text('a + b; c)')".toList, "insert_table (1, 2, [['x)', \"+\"], (';',)])".toList,
    "print(len('\\' + ') + abs(-1))".toList ]

/-- The calls of `separatorCalls` on one line. -/
def separatorLine : Text :=
  "insert_text('a + b; c)') + insert_table (1, 2, [['x)', \"+\"], (';',)]);  ".toList
    ++ "print(len('\\' + ') + abs(-1))".toList

theorem joins_separatorLine : Joins separatorCalls separatorLine := by
  have hspace : ∀ c ∈ [' '], isWhite c = true := List.all_eq_true.1 (by decide)
  have hspaces : ∀ c ∈ [' ', ' '], isWhite c = true := List.all_eq_true.1 (by decide)
  have hlast := Joins.one "print(len('\\' + ') + abs(-1))".toList
  have htable := Joins.cons "insert_table (1, 2, [['x)', \"+\"], (';',)])".toList
    (List.forall_mem_nil _) hspaces (Or.inr rfl) hlast
  have hline : separatorLine = "insert_text('a + b; c)')".toList ++ [' '] ++ '+' :: ([' '] ++
      ("insert_table (1, 2, [['x)', \"+\"], (';',)])".toList ++ [] ++ ';' :: ([' ', ' '] ++
        "print(len('\\' + ') + abs(-1))".toList))) := by decide +kernel
  rw [hline]
  exact Joins.cons _ hspace hspace (Or.inl rfl) htable

theorem splitConcatenatedCalls_separatorLine :
    2 ≤ separatorCalls.length ∧ (∀ call ∈ separatorCalls, IsCompleteCall call) ∧
      Joins separatorCalls separatorLine ∧
      splitConcatenatedCalls [separatorLine] = separatorCalls := by
  have hcalls : ∀ call ∈ separatorCalls, IsCompleteCall call := by decide +kernel
  exact ⟨by decide, hcalls, joins_separatorLine,
    splitConcatenatedCalls_joins.1 _ _ (by decide) hcalls joins_separatorLine⟩

end Scribe.Repair
