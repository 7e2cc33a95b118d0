import Scribe.Text.Basic

set_option autoImplicit false

/-! # Lines and trimming

A text is cut into lines and put together again. Joining lines and cutting the result gives the
same lines back, up to a carriage return at the end of a line. Trimming cuts white space off both
ends and nothing else. -/

namespace Scribe.Text

/-- A character with a property is none of those that lack it. -/
theorem not_mem_of_all {p : Char → Prop} [DecidablePred p] {c : Char} (hc : p c) {l : Text}
    (hl : l.all (fun d => !decide (p d)) = true) : c ∉ l := fun hmem => by
  have hnot := List.all_eq_true.1 hl c hmem
  simp [hc] at hnot

/-! ## Cutting into lines -/

/-- A line as it is read back when another one follows: without a carriage return at its end. -/
def dropReturn (l : Text) : Text := if l.getLast? = some '\r' then l.dropLast else l

theorem newline_not_mem_of_mem_lines {s l : Text} (h : l ∈ lines s) : '\n' ∉ l := by
  fun_induction lines s generalizing l with
  | case1 => simp at h
  | case2 s ih =>
    rcases List.mem_cons.1 h with rfl | h
    · simp
    · exact ih h
  | case3 s ih =>
    rcases List.mem_cons.1 h with rfl | h
    · simp
    · exact ih h
  | case4 c s hc _ _ ih =>
    rw [List.mem_singleton.1 h, List.mem_singleton]
    exact fun hn => hc hn.symm
  | case5 c s hc _ l' ls heq ih =>
    rcases List.mem_cons.1 h with rfl | h
    · have hl := ih (heq ▸ List.mem_cons_self)
      simp only [List.mem_cons, not_or]
      exact ⟨fun hn => hc hn.symm, hl⟩
    · exact ih (heq ▸ List.mem_cons_of_mem _ h)

/-- The first line of a text that goes on behind it. -/
theorem lines_append_newline {l : Text} (h : '\n' ∉ l) (s : Text) :
    lines (l ++ '\n' :: s) = dropReturn l :: lines s := by
  induction l with
  | nil => simp [lines, dropReturn]
  | cons c l ih =>
    simp only [List.mem_cons, not_or] at h
    obtain ⟨hc, hl⟩ := h
    cases l with
    | nil =>
      by_cases hr : c = '\r'
      · subst hr
        simp [lines, dropReturn]
      · have hih := ih hl
        simp only [List.nil_append] at hih
        rw [List.singleton_append, lines]
        · simp [hih, dropReturn, hr]
        · exact fun he => hc he.symm
        · exact fun _ he => absurd he hr
    | cons d l =>
      have hd : d ≠ '\n' := fun he => hl (by simp [he])
      rw [List.cons_append, lines]
      · rw [ih hl]
        simp only [dropReturn, List.getLast?_cons_cons]
        split <;> simp
      · exact fun he => hc he.symm
      · intro _ _ he
        simp only [List.cons_append, List.cons.injEq] at he
        exact hd he.1

theorem lines_of_newline_not_mem {l : Text} (h : '\n' ∉ l) (hne : l ≠ []) : lines l = [l] := by
  induction l with
  | nil => exact absurd rfl hne
  | cons c l ih =>
    simp only [List.mem_cons, not_or] at h
    have hc : ¬c = '\n' := fun he => h.1 he.symm
    have hl : ∀ s, c = '\r' → l = '\n' :: s → False := fun s _ he => h.2 (he ▸ List.mem_cons_self)
    rw [lines]
    · cases l with
      | nil => simp [lines]
      | cons d l => simp [ih h.2 (by simp)]
    · exact hc
    · exact fun s he => hl s he

@[simp] theorem unlines_nil : unlines [] = [] := rfl

@[simp] theorem unlines_singleton (l : Text) : unlines [l] = l := by
  simp [unlines, List.intercalate]

theorem unlines_cons_cons (l₁ l₂ : Text) (ls : List Text) :
    unlines (l₁ :: l₂ :: ls) = l₁ ++ '\n' :: unlines (l₂ :: ls) := by
  simp [unlines, List.intercalate]

theorem unlines_append (a b : Text) (ls : List Text) :
    unlines ((a ++ b) :: ls) = a ++ unlines (b :: ls) := by
  cases ls with
  | nil => rw [unlines_singleton, unlines_singleton]
  | cons l ls => rw [unlines_cons_cons, unlines_cons_cons, List.append_assoc]

theorem mem_unlines {ls : List Text} {c : Char} (h : c ∈ unlines ls) :
    c = '\n' ∨ ∃ l ∈ ls, c ∈ l := by
  induction ls with
  | nil => simp [unlines, List.intercalate] at h
  | cons l₁ ls ih =>
    cases ls with
    | nil => exact Or.inr ⟨l₁, List.mem_cons_self, by simpa [unlines, List.intercalate] using h⟩
    | cons l₂ ls =>
      rw [unlines_cons_cons, List.mem_append, List.mem_cons] at h
      rcases h with h | rfl | h
      · exact Or.inr ⟨l₁, List.mem_cons_self, h⟩
      · exact Or.inl rfl
      · rcases ih h with rfl | ⟨l, hl, hc⟩
        · exact Or.inl rfl
        · exact Or.inr ⟨l, List.mem_cons_of_mem _ hl, hc⟩

/-- Lines that are joined and cut again, up to carriage returns. -/
theorem mem_of_mem_lines_unlines {ls : List Text} {l : Text} (hls : ∀ l ∈ ls, '\n' ∉ l)
    (h : l ∈ lines (unlines ls)) : l ∈ ls ∨ l ++ ['\r'] ∈ ls := by
  induction ls with
  | nil => simp [unlines, List.intercalate, lines] at h
  | cons l₁ ls ih =>
    have hl₁ := hls l₁ List.mem_cons_self
    cases ls with
    | nil =>
      simp only [unlines, List.intercalate, List.intersperse, List.flatten_cons, List.flatten_nil,
        List.append_nil] at h
      by_cases hne : l₁ = []
      · simp [hne, lines] at h
      · rw [lines_of_newline_not_mem hl₁ hne] at h
        exact Or.inl h
    | cons l₂ ls =>
      rw [unlines_cons_cons, lines_append_newline hl₁] at h
      rcases List.mem_cons.1 h with rfl | h
      -- The line is read without the carriage return that it ends in, if there is one.
      · unfold dropReturn
        split
        · next hr =>
          have hne : l₁ ≠ [] := fun he => by simp [he] at hr
          have hlast : l₁.getLast hne = '\r' := by
            rw [List.getLast?_eq_some_getLast hne] at hr
            exact Option.some.inj hr
          rw [← hlast, List.dropLast_concat_getLast]
          exact Or.inr List.mem_cons_self
        · exact Or.inl List.mem_cons_self
      · rcases ih (fun l hl => hls l (List.mem_cons_of_mem _ hl)) h with h | h
        · exact Or.inl (List.mem_cons_of_mem _ h)
        · exact Or.inr (List.mem_cons_of_mem _ h)

/-! ## Trimming -/

theorem exists_eq_append_trimEnd (s : Text) :
    ∃ b, (∀ c ∈ b, isWhite c = true) ∧ s = trimEnd s ++ b := by
  refine ⟨(s.reverse.takeWhile isWhite).reverse, ?_, ?_⟩
  · intro c hc
    exact List.all_eq_true.1 List.all_takeWhile c (List.mem_reverse.1 hc)
  · rw [trimEnd, ← List.reverse_append, List.takeWhile_append_dropWhile, List.reverse_reverse]

theorem exists_eq_append_trimStart (s : Text) :
    ∃ a, (∀ c ∈ a, isWhite c = true) ∧ s = a ++ trimStart s :=
  ⟨s.takeWhile isWhite, fun c hc => List.all_eq_true.1 List.all_takeWhile c hc,
    List.takeWhile_append_dropWhile.symm⟩

/-- Trimming cuts white space off both ends. -/
theorem exists_eq_append_trim (s : Text) :
    ∃ a b, (∀ c ∈ a, isWhite c = true) ∧ (∀ c ∈ b, isWhite c = true) ∧ s = a ++ trim s ++ b := by
  obtain ⟨a, ha, hs⟩ := exists_eq_append_trimStart s
  obtain ⟨b, hb, ht⟩ := exists_eq_append_trimEnd (trimStart s)
  refine ⟨a, b, ha, hb, ?_⟩
  rw [trim, List.append_assoc, ← ht, ← hs]

theorem trim_sublist (s : Text) : (trim s).Sublist s := by
  obtain ⟨a, b, _, _, hs⟩ := exists_eq_append_trim s
  conv => rhs; rw [hs]
  rw [List.append_assoc]
  exact (List.sublist_append_left _ b).trans (List.sublist_append_right a _)

theorem isWhite_getLast?_trimEnd {s : Text} {c : Char} (h : (trimEnd s).getLast? = some c) :
    isWhite c = false := by
  rw [trimEnd, List.getLast?_reverse] at h
  cases hd : s.reverse.dropWhile isWhite with
  | nil => simp [hd] at h
  | cons d r =>
    rw [hd, List.head?_cons, Option.some.injEq] at h
    have := List.head?_dropWhile_not isWhite s.reverse
    rw [hd] at this
    simpa [← h] using this

theorem isWhite_head?_trimStart {s : Text} {c : Char} (h : (trimStart s).head? = some c) :
    isWhite c = false := by
  have := List.head?_dropWhile_not isWhite s
  rw [trimStart] at h
  rw [h] at this
  simpa using this

theorem isWhite_head?_trim {s : Text} {c : Char} (h : (trim s).head? = some c) :
    isWhite c = false := by
  obtain ⟨b, hb, ht⟩ := exists_eq_append_trimEnd (trimStart s)
  have hc : (trimEnd (trimStart s)).head? = some c := h
  refine isWhite_head?_trimStart (s := s) ?_
  rw [ht, List.head?_append, hc, Option.some_or]

theorem trimEnd_eq_self {s : Text} (hlast : ∀ c, s.getLast? = some c → isWhite c = false) :
    trimEnd s = s := by
  rw [trimEnd]
  cases hr : s.reverse with
  | nil => simp [List.reverse_eq_nil_iff.1 hr]
  | cons c r =>
    have hc : isWhite c = false := hlast c (by rw [← List.head?_reverse, hr, List.head?_cons])
    rw [List.dropWhile_cons_of_neg (by simp [hc]), ← hr, List.reverse_reverse]

/-- A text that starts and ends with no white space is trimmed. -/
theorem trim_eq_self {s : Text} (hhead : ∀ c, s.head? = some c → isWhite c = false)
    (hlast : ∀ c, s.getLast? = some c → isWhite c = false) : trim s = s := by
  have hstart : trimStart s = s := by
    cases s with
    | nil => rfl
    | cons c s => simp [trimStart, hhead c rfl]
  rw [trim, hstart, trimEnd_eq_self hlast]

theorem trim_trim (s : Text) : trim (trim s) = trim s :=
  trim_eq_self (fun _ hc => isWhite_head?_trim hc) fun _ hc => isWhite_getLast?_trimEnd hc

/-- White space around a text does not matter to what trimming leaves of it. -/
theorem trim_padded {a b : Text} (ha : ∀ c ∈ a, isWhite c = true) (hb : ∀ c ∈ b, isWhite c = true)
    (s : Text) : trim (a ++ s ++ b) = trim s := by
  have hend (t : Text) : trimEnd (t ++ b) = trimEnd t := by
    have hb' : ∀ c ∈ b.reverse, isWhite c = true := fun c hc => hb c (List.mem_reverse.1 hc)
    rw [trimEnd, trimEnd, List.reverse_append, List.dropWhile_append_of_pos hb']
  rw [trim, trim, trimStart, List.append_assoc, List.dropWhile_append_of_pos ha,
    List.dropWhile_append]
  split
  · next h =>
    have hs : s.dropWhile isWhite = [] := by simpa using h
    have hb₀ : b.dropWhile isWhite = [] := by
      have happ := @List.dropWhile_append_of_pos _ isWhite b [] hb
      rwa [List.append_nil] at happ
    rw [hb₀, trimStart, hs]
  · exact hend _

theorem head?_trim {c : Char} (hc : isWhite c = false) (s : Text) :
    (trim (c :: s)).head? = some c := by
  obtain ⟨b, hb, hs⟩ := exists_eq_append_trimEnd (c :: s)
  have hstart : trimStart (c :: s) = c :: s := by simp [trimStart, hc]
  rw [trim, hstart]
  cases htrim : trimEnd (c :: s) with
  | nil =>
    rw [htrim, List.nil_append] at hs
    have hwhite := hb c (by rw [← hs]; exact List.mem_cons_self)
    rw [hc] at hwhite
    exact absurd hwhite (by decide)
  | cons d r =>
    rw [htrim] at hs
    rw [(List.cons.inj hs).1, List.head?_cons]

/-! ## Logical lines -/

/-- A line as the later repairs see it: trimmed, not empty, and on one line. -/
structure IsLogicalLine (l : Text) : Prop where
  ne_nil : l ≠ []
  trim_eq : trim l = l
  newline_not_mem : '\n' ∉ l

/-- Trimming makes a logical line of every line that is not blank. -/
theorem isLogicalLine_trim {s : Text} (hnl : '\n' ∉ s) (hne : (!(trim s).isEmpty) = true) :
    IsLogicalLine (trim s) :=
  ⟨by simpa using hne, trim_trim s, fun h => hnl ((trim_sublist s).mem h)⟩

theorem IsLogicalLine.isWhite_head? {l : Text} (h : IsLogicalLine l) {c : Char}
    (hc : l.head? = some c) : isWhite c = false := isWhite_head?_trim (by rwa [h.trim_eq])

theorem IsLogicalLine.isWhite_getLast? {l : Text} (h : IsLogicalLine l) {c : Char}
    (hc : l.getLast? = some c) : isWhite c = false := by
  rw [← h.trim_eq] at hc
  exact isWhite_getLast?_trimEnd hc

theorem IsLogicalLine.dropReturn_eq {l : Text} (h : IsLogicalLine l) : dropReturn l = l := by
  unfold dropReturn
  split
  · next hr => exact absurd (h.isWhite_getLast? hr) (by decide)
  · rfl

/-- Logical lines are read back as they were joined. -/
theorem lines_unlines {ls : List Text} (h : ∀ l ∈ ls, IsLogicalLine l) :
    lines (unlines ls) = ls := by
  induction ls with
  | nil => simp [unlines, List.intercalate, lines]
  | cons l₁ ls ih =>
    have hl₁ := h l₁ List.mem_cons_self
    cases ls with
    | nil => simpa [unlines, List.intercalate] using
        lines_of_newline_not_mem hl₁.newline_not_mem hl₁.ne_nil
    | cons l₂ ls =>
      rw [unlines_cons_cons, lines_append_newline hl₁.newline_not_mem, hl₁.dropReturn_eq,
        ih fun l hl => h l (List.mem_cons_of_mem _ hl)]

end Scribe.Text
