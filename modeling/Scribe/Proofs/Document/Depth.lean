import Scribe.Document.Buffer

set_option autoImplicit false

/-! # How deep in tables a run of elements is

The searches for the delimiters of a table count how deep they are. What they find is stated here by
the run in front of it: it closes the tables that it opens. A run leads out of so many tables when
it closes them and then ends the line that the last of them stands on; leaving the tables one by one
stays within it. -/

namespace Scribe.Element

variable {a b es rest : List Element} {k d n i place : Nat}

/-! ## Depth -/

/-- The depth behind a run that begins at some depth; none when it closes more tables than that. -/
def depthAfter? : Nat → List Element → Option Nat
  | depth, [] => some depth
  | depth, .tableOpen _ :: es => depthAfter? (depth + 1) es
  | 0, .tableClose :: _ => none
  | depth + 1, .tableClose :: es => depthAfter? depth es
  | depth, _ :: es => depthAfter? depth es

/-- The run closes the tables that it opens, and no others. -/
def IsLevel (es : List Element) : Prop := depthAfter? 0 es = some 0

theorem depthAfter?_append (h : depthAfter? k a = some d) :
    depthAfter? k (a ++ b) = depthAfter? d b := by
  induction a generalizing k with
  | nil =>
    obtain rfl := Option.some.inj h
    rfl
  | cons e a ih =>
    cases e with
    | tableClose =>
      cases k with
      | zero => cases h
      | succ k => exact ih h
    | _ => exact ih h

/-- A run that begins deeper ends deeper. -/
theorem depthAfter?_add (h : depthAfter? k a = some d) (n : Nat) :
    depthAfter? (k + n) a = some (d + n) := by
  induction a generalizing k with
  | nil =>
    obtain rfl := Option.some.inj h
    rfl
  | cons e a ih =>
    cases e with
    | tableOpen cols =>
      have hbehind := ih (k := k + 1) h
      rwa [Nat.add_right_comm] at hbehind
    | tableClose =>
      cases k with
      | zero => cases h
      | succ k =>
        rw [Nat.add_right_comm]
        exact ih (k := k) h
    | _ => exact ih (k := k) h

theorem IsLevel.depthAfter? (h : IsLevel es) (k : Nat) : depthAfter? k es = some k := by
  simpa using depthAfter?_add h k

theorem IsLevel.append (ha : IsLevel a) (hb : IsLevel b) : IsLevel (a ++ b) :=
  (depthAfter?_append ha).trans hb

theorem isLevel_chars (text : Text) : IsLevel (text.map .char) := by
  induction text with
  | nil => rfl
  | cons c text ih => exact ih

theorem isLevel_table (cols : Nat) (h : IsLevel es) :
    IsLevel (.tableOpen cols :: es ++ [.tableClose]) := by
  have hinner : Element.depthAfter? 1 es = some 1 := h.depthAfter? 1
  exact depthAfter?_append hinner

theorem isLevel_replicate_cellBreak (n : Nat) : IsLevel (List.replicate n .cellBreak) := by
  induction n with
  | zero => rfl
  | succ n ih => exact ih

/-! ## Content -/

/-- Does an element delimit a table or a cell? -/
def isDelimiter : Element → Bool
  | .tableOpen _ | .cellBreak | .tableClose => true
  | _ => false

/-- No element of a run delimits anything. -/
def AreContent (es : List Element) : Prop := ∀ e ∈ es, e.isDelimiter = false

theorem areContent_chars (text : Text) : AreContent (text.map .char) := by
  intro e he
  obtain ⟨c, -, rfl⟩ := List.mem_map.1 he
  rfl

theorem areContent_equation (text : Text) : AreContent [.equation text] := by
  intro e he
  rw [List.mem_singleton.1 he]
  rfl

/-! ## What the searches find -/

/-- A search for the end of a table passes over a run by its depth. -/
theorem closeOffset?_append (h : depthAfter? k a = some d) :
    closeOffset? k (a ++ b) = (closeOffset? d b).map (a.length + ·) := by
  induction a generalizing k with
  | nil =>
    obtain rfl := Option.some.inj h
    simp
  | cons e a ih =>
    have hstep {j : Nat} (hj : depthAfter? j a = some d)
        (heq : closeOffset? k (e :: (a ++ b)) = (closeOffset? j (a ++ b)).map (· + 1)) :
        closeOffset? k (e :: a ++ b) = (closeOffset? d b).map ((e :: a).length + ·) := by
      rw [List.cons_append, heq, ih hj, Option.map_map]
      congr 1
      funext i
      simp only [Function.comp, List.length_cons]
      omega
    cases e with
    | tableOpen cols => exact hstep h rfl
    | tableClose =>
      cases k with
      | zero => cases h
      | succ k => exact hstep h rfl
    | _ => exact hstep h rfl

/-- The delimiter that is found to close a table stands at the place. -/
theorem exists_of_closeOffset? (h : closeOffset? k es = some i) :
    ∃ a b, es = a ++ .tableClose :: b ∧ i = a.length := by
  induction es generalizing k i with
  | nil => cases h
  | cons e es ih =>
    have hstep {j : Nat} (hj : (closeOffset? j es).map (· + 1) = some i) :
        ∃ a b, e :: es = a ++ .tableClose :: b ∧ i = a.length := by
      obtain ⟨m, hm, rfl⟩ := Option.map_eq_some_iff.1 hj
      obtain ⟨a, b, rfl, rfl⟩ := ih hm
      exact ⟨e :: a, b, rfl, rfl⟩
    cases e with
    | tableClose =>
      cases k with
      | zero => exact ⟨[], es, rfl, (Option.some.inj h).symm⟩
      | succ k => exact hstep h
    | tableOpen cols => exact hstep h
    | _ => exact hstep h

/-- The table that is found to open in front, `k` tables further out, is followed by a run that
    opens `k` tables and leaves them open. -/
theorem exists_of_openOffset? (h : openOffset? k es = some i) :
    ∃ a b cols, es = a ++ .tableOpen cols :: b ∧ i = a.length ∧
      depthAfter? 0 a.reverse = some k := by
  induction es generalizing k i with
  | nil => cases h
  | cons e es ih =>
    have hstep {j : Nat} (hj : (openOffset? j es).map (· + 1) = some i)
        (hlast : depthAfter? j [e] = some k) :
        ∃ a b cols, e :: es = a ++ .tableOpen cols :: b ∧ i = a.length ∧
          depthAfter? 0 a.reverse = some k := by
      obtain ⟨m, hm, rfl⟩ := Option.map_eq_some_iff.1 hj
      obtain ⟨a, b, cols, rfl, rfl, hdepth⟩ := ih hm
      refine ⟨e :: a, b, cols, rfl, rfl, ?_⟩
      rw [List.reverse_cons, depthAfter?_append hdepth, hlast]
    cases e with
    | tableOpen cols =>
      cases k with
      | zero => exact ⟨[], es, cols, rfl, (Option.some.inj h).symm, rfl⟩
      | succ k => exact hstep h rfl
    | tableClose => exact hstep (j := k + 1) h rfl
    | _ => exact hstep h rfl

/-- In front of the place of a cell, but for the first, stands a break between cells. -/
theorem exists_of_mem_breakPlaces (h : i ∈ breakPlaces place k es) :
    ∃ a b, es = a ++ .cellBreak :: b ∧ i = place + a.length + 1 := by
  induction es generalizing place k with
  | nil => cases h
  | cons e es ih =>
    have hstep {j : Nat} (hj : i ∈ breakPlaces (place + 1) j es) :
        ∃ a b, e :: es = a ++ .cellBreak :: b ∧ i = place + a.length + 1 := by
      obtain ⟨a, b, rfl, rfl⟩ := ih hj
      refine ⟨e :: a, b, rfl, ?_⟩
      rw [List.length_cons]
      omega
    cases e with
    | tableOpen cols => exact hstep h
    | tableClose =>
      cases k with
      | zero => cases h
      | succ k => exact hstep h
    | cellBreak =>
      cases k with
      | zero =>
        rcases List.mem_cons.1 h with rfl | h
        · exact ⟨[], es, rfl, rfl⟩
        · exact hstep h
      | succ k => exact hstep h
    | _ => exact hstep h

theorem breakPlaces_chars (content : Text) :
    breakPlaces place k (content.map .char ++ es) =
      breakPlaces (place + content.length) k es := by
  induction content generalizing place with
  | nil => rfl
  | cons c content ih =>
    have hstep : breakPlaces place k ((c :: content).map .char ++ es) =
        breakPlaces (place + 1) k (content.map .char ++ es) := by simp [breakPlaces]
    rw [hstep, ih, List.length_cons]
    congr 1
    omega

/-! ## Leading out -/

/-- Does a run leave all tables that it begins in, and end the line that the last of them is on? -/
def leadsOut : Nat → List Element → Bool
  | _, [] => false
  | depth, .tableOpen _ :: es => leadsOut (depth + 1) es
  | 0, .tableClose :: _ => false
  | depth + 1, .tableClose :: es => leadsOut depth es
  | 0, .char '\n' :: _ => true
  | depth, _ :: es => leadsOut depth es

@[simp] theorem leadsOut_tableOpen (k cols : Nat) (es : List Element) :
    leadsOut k (.tableOpen cols :: es) = leadsOut (k + 1) es := rfl

@[simp] theorem leadsOut_tableClose_succ (k : Nat) (es : List Element) :
    leadsOut (k + 1) (.tableClose :: es) = leadsOut k es := rfl

@[simp] theorem leadsOut_cellBreak (k : Nat) (es : List Element) :
    leadsOut k (.cellBreak :: es) = leadsOut k es := by simp [leadsOut]

@[simp] theorem leadsOut_equation (k : Nat) (text : Text) (es : List Element) :
    leadsOut k (.equation text :: es) = leadsOut k es := by simp [leadsOut]

@[simp] theorem leadsOut_char (k : Nat) (c : Char) (es : List Element) :
    leadsOut k (.char c :: es) = (k == 0 && c == '\n' || leadsOut k es) := by
  cases k with
  | zero =>
    by_cases hc : c = '\n'
    · subst hc
      rfl
    · simp [leadsOut, hc]
  | succ k => simp [leadsOut]

/-- A run leads out when the run behind a part of it does. -/
theorem leadsOut_append (h : depthAfter? k a = some d) (hb : leadsOut d b) :
    leadsOut k (a ++ b) := by
  induction a generalizing k with
  | nil =>
    obtain rfl := Option.some.inj h
    exact hb
  | cons e a ih =>
    cases e with
    | tableOpen cols => exact ih (k := k + 1) h
    | tableClose =>
      cases k with
      | zero => cases h
      | succ k => exact ih (k := k) h
    | _ => simp [ih (k := k) h]

/-- Putting in a level run does not change where a run leads. -/
theorem leadsOut_insert (h : leadsOut k (a ++ b)) (hes : IsLevel es) :
    leadsOut k (a ++ (es ++ b)) := by
  induction a generalizing k with
  | nil =>
    rw [List.nil_append] at h ⊢
    exact leadsOut_append (hes.depthAfter? k) h
  | cons e a ih =>
    cases e with
    | tableOpen cols => exact ih (k := k + 1) h
    | tableClose =>
      cases k with
      | zero => cases h
      | succ k => exact ih (k := k) h
    | char c =>
      rw [List.cons_append, leadsOut_char, Bool.or_eq_true] at h ⊢
      exact h.imp_right ih
    | _ =>
      simp only [List.cons_append, leadsOut_cellBreak, leadsOut_equation] at h ⊢
      exact ih h

/-- Taking out a text without line breaks does not change where a run leads. -/
theorem leadsOut_remove {text : Text} (h : leadsOut k (a ++ (text.map .char ++ b)))
    (htext : '\n' ∉ text) : leadsOut k (a ++ b) := by
  induction a generalizing k with
  | nil =>
    rw [List.nil_append] at h ⊢
    -- Where the text stands: a character leads out only as a line break, and it holds none.
    induction text with
    | nil => exact h
    | cons c text ih =>
      rw [List.mem_cons, not_or] at htext
      rw [List.map_cons, List.cons_append, leadsOut_char, Bool.or_eq_true] at h
      refine ih htext.2 (h.resolve_left fun hbreak => htext.1 ?_)
      simp only [Bool.and_eq_true, beq_iff_eq] at hbreak
      exact hbreak.2.symm
  | cons e a ih =>
    cases e with
    | tableOpen cols => exact ih (k := k + 1) h
    | tableClose =>
      cases k with
      | zero => cases h
      | succ k => exact ih (k := k) h
    | char c =>
      rw [List.cons_append, leadsOut_char, Bool.or_eq_true] at h ⊢
      exact h.imp_right ih
    | _ =>
      simp only [List.cons_append, leadsOut_cellBreak, leadsOut_equation] at h ⊢
      exact ih h

/-- Where a run leads out, the search for the end of the innermost table stays within it. -/
theorem closeOffset?_of_leadsOut (rest : List Element) (h : leadsOut (k + d + 1) a) :
    ∃ u v, a = u ++ .tableClose :: v ∧ closeOffset? k (a ++ rest) = some u.length ∧
      leadsOut d v := by
  induction a generalizing k with
  | nil => cases h
  | cons e a ih =>
    have hstep {j : Nat} (hj : leadsOut (j + d + 1) a)
        (heq : closeOffset? k (e :: (a ++ rest)) = (closeOffset? j (a ++ rest)).map (· + 1)) :
        ∃ u v, e :: a = u ++ .tableClose :: v ∧ closeOffset? k (e :: a ++ rest) = some u.length ∧
          leadsOut d v := by
      obtain ⟨u, v, rfl, hu, hv⟩ := ih hj
      exact ⟨e :: u, v, rfl, by rw [List.cons_append, heq, hu]; rfl, hv⟩
    cases e with
    | tableOpen cols =>
      refine hstep (j := k + 1) ?_ rfl
      rwa [Nat.add_right_comm k]
    | tableClose =>
      cases k with
      | zero =>
        rw [Nat.zero_add] at h
        exact ⟨[], a, rfl, rfl, h⟩
      | succ k =>
        rw [Nat.add_right_comm k] at h
        exact hstep (j := k) h rfl
    | _ => exact hstep (by simpa using h) rfl

theorem lineOffset_char (k : Nat) (c : Char) (es : List Element) :
    lineOffset k (.char c :: es) = if k = 0 ∧ c = '\n' then 1 else lineOffset k es + 1 := by
  cases k with
  | zero =>
    by_cases hc : c = '\n'
    · subst hc
      rfl
    · simp [lineOffset, hc]
  | succ k => simp [lineOffset]

/-- Where a run leads out, the end of the line or of the cell is found within it. -/
theorem lineOffset_of_leadsOut (rest : List Element) (h : leadsOut (k + d) a) :
    ∃ u v, a = u ++ v ∧ lineOffset k (a ++ rest) = u.length ∧ (0 < d → leadsOut d v) := by
  induction a generalizing k with
  | nil => cases h
  | cons e a ih =>
    -- The element is passed, at the depth `j` behind it, or the end is found in front of it.
    have hstep {j : Nat} (hj : leadsOut (j + d) a)
        (heq : lineOffset k (e :: (a ++ rest)) = lineOffset j (a ++ rest) + 1) :
        ∃ u v, e :: a = u ++ v ∧ lineOffset k (e :: a ++ rest) = u.length ∧
          (0 < d → leadsOut d v) := by
      obtain ⟨u, v, rfl, hu, hv⟩ := ih hj
      exact ⟨e :: u, v, rfl, by rw [List.cons_append, heq, hu]; rfl, hv⟩
    have hstay (hk : k = 0) (heq : lineOffset k (e :: a ++ rest) = 0) :
        ∃ u v, e :: a = u ++ v ∧ lineOffset k (e :: a ++ rest) = u.length ∧
          (0 < d → leadsOut d v) := by
      subst hk
      rw [Nat.zero_add] at h
      exact ⟨[], e :: a, rfl, heq, fun _ => h⟩
    cases e with
    | tableOpen cols =>
      refine hstep (j := k + 1) ?_ rfl
      rwa [Nat.add_right_comm k]
    | tableClose =>
      cases k with
      | zero => exact hstay rfl rfl
      | succ k =>
        rw [Nat.add_right_comm k] at h
        exact hstep (j := k) h rfl
    | cellBreak =>
      cases k with
      | zero => exact hstay rfl rfl
      | succ k => exact hstep (by simpa using h) rfl
    | char c =>
      by_cases hend : k = 0 ∧ c = '\n'
      · obtain ⟨rfl, rfl⟩ := hend
        refine ⟨[.char '\n'], a, rfl, rfl, fun hd => ?_⟩
        simpa [Nat.ne_of_gt hd] using h
      · rw [leadsOut_char, Bool.or_eq_true] at h
        refine hstep (h.resolve_left fun hnow => hend ?_) ((lineOffset_char ..).trans (if_neg hend))
        simp only [Bool.and_eq_true, beq_iff_eq] at hnow
        exact ⟨Nat.eq_zero_of_add_eq_zero_right hnow.1, hnow.2⟩
    | equation text => exact hstep (by simpa using h) (by simp [lineOffset])

/-- Where a run leads out, so does what is behind the place of any cell of the innermost table. -/
theorem leadsOut_of_mem_breakPlaces (h : leadsOut (k + d + 1) a)
    (hi : i ∈ breakPlaces place k (a ++ rest)) :
    ∃ u v, a = u ++ v ∧ i = place + u.length ∧ leadsOut (d + 1) v := by
  induction a generalizing place k with
  | nil => cases h
  | cons e a ih =>
    -- The place is not that of this element, but of one behind it, at the depth `j`.
    have hstep {j : Nat} (hj : leadsOut (j + d + 1) a)
        (hmem : i ∈ breakPlaces (place + 1) j (a ++ rest)) :
        ∃ u v, e :: a = u ++ v ∧ i = place + u.length ∧ leadsOut (d + 1) v := by
      obtain ⟨u, v, rfl, rfl, hv⟩ := ih hj hmem
      exact ⟨e :: u, v, rfl, by rw [List.length_cons]; omega, hv⟩
    cases e with
    | tableOpen cols =>
      refine hstep (j := k + 1) ?_ hi
      rwa [Nat.add_right_comm k]
    | tableClose =>
      cases k with
      | zero => cases hi
      | succ k =>
        rw [Nat.add_right_comm k] at h
        exact hstep (j := k) h hi
    | cellBreak =>
      rw [leadsOut_cellBreak] at h
      cases k with
      | zero =>
        rcases List.mem_cons.1 hi with rfl | hi
        · rw [Nat.zero_add] at h
          exact ⟨[.cellBreak], a, rfl, rfl, h⟩
        · exact hstep (j := 0) h hi
      | succ k => exact hstep h hi
    | _ => exact hstep (by simpa using h) hi

/-- The next line begins behind the end of this one, or at no character. -/
theorem exists_of_lineOffset (k : Nat) (es : List Element) :
    ∃ a b, es = a ++ b ∧ lineOffset k es = a.length ∧
      (a.getLast? = some (.char '\n') ∨ ∀ c, b.head? ≠ some (.char c)) := by
  induction es generalizing k with
  | nil => exact ⟨[], [], rfl, rfl, .inr nofun⟩
  | cons e es ih =>
    -- The element is passed, at the depth `j` behind it.
    have hstep {j : Nat} (heq : lineOffset k (e :: es) = lineOffset j es + 1) :
        ∃ a b, e :: es = a ++ b ∧ lineOffset k (e :: es) = a.length ∧
          (a.getLast? = some (.char '\n') ∨ ∀ c, b.head? ≠ some (.char c)) := by
      obtain ⟨a, b, rfl, ha, hlands⟩ := ih j
      refine ⟨e :: a, b, rfl, by rw [heq, ha]; rfl, hlands.imp_left fun hlast => ?_⟩
      rw [List.getLast?_cons, hlast]
      rfl
    cases e with
    | tableOpen cols => exact hstep rfl
    | tableClose =>
      cases k with
      | zero => exact ⟨[], _, rfl, rfl, .inr nofun⟩
      | succ k => exact hstep rfl
    | cellBreak =>
      cases k with
      | zero => exact ⟨[], _, rfl, rfl, .inr nofun⟩
      | succ k => exact hstep rfl
    | char c =>
      by_cases hend : k = 0 ∧ c = '\n'
      · obtain ⟨rfl, rfl⟩ := hend
        exact ⟨[.char '\n'], es, rfl, rfl, .inl rfl⟩
      · exact hstep ((lineOffset_char ..).trans (if_neg hend))
    | equation text => exact hstep (j := k) (by simp [lineOffset])

end Scribe.Element
