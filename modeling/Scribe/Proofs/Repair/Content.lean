import Scribe.Proofs.Repair.AfterZone

set_option autoImplicit false

/-! # Layout repairs keep what is typed

The layout repairs from the ordering of zones to the settling of the after zones cut, move and add
lines, but all of it is an edit of a simple kind: a line that the layout can do without may be
dropped, and a line that only arranges others may be added. No line that types something is ever
dropped, added, doubled or moved past another one. -/

namespace Scribe.Repair

/-! ## Kinds of lines -/

/-- Does a line of this kind stand in the document as it is written, whatever the layout is? Lines
    that type something, lines that the repairs do not understand, and requests for a marker of the
    script's own. -/
def Line.isTyped : Line → Bool
  | .text _ | .equation _ | .space | .alignRight | .other | .focus (.custom _) => true
  | _ => false

/-- Does a line of this kind open a box or close a container? -/
def Line.isBox : Line → Bool
  | .opening _ | .exit => true
  | _ => false

/-- May the repairs leave out a line of this kind? Plain templates only beside a header. -/
def Line.mayBeDropped (dual : Bool) : Line → Bool
  | .lineBreak | .alignJustify | .focus (.zone _) => true
  | .template t => ZoneWalk.isDropped dual t
  | _ => false

/-- May the repairs write a line of this kind? -/
def Line.mayBeAdded : Line → Bool
  | .lineBreak | .alignJustify | .focus (.zone _) | .opening _ | .exit => true
  | _ => false

theorem Line.isTyped_of_mayBeAdded {kind : Line} (h : kind.mayBeAdded = true) :
    kind.isTyped = false := by
  cases kind with
  | focus p => cases p <;> simp_all [mayBeAdded, isTyped]
  | _ => simp_all [mayBeAdded, isTyped]

theorem Line.isTyped_of_mayBeDropped {dual : Bool} {kind : Line}
    (h : kind.mayBeDropped dual = true) : kind.isTyped = false := by
  cases kind with
  | focus p => cases p <;> simp_all [mayBeDropped, isTyped]
  | _ => simp_all [mayBeDropped, isTyped]

theorem Line.mayBeDropped_of_isBox {dual : Bool} {kind : Line} (h : kind.isBox = true) :
    kind.mayBeDropped dual = false := by
  cases kind <;> simp_all [isBox, mayBeDropped]

theorem Line.mayBeDropped_of_isBreak {kind : Line} (h : kind.isBreak = true) (dual : Bool) :
    kind.mayBeDropped dual = true := by
  cases kind <;> simp_all [isBreak, mayBeDropped]

theorem Line.mayBeDropped_of_zone? {kind : Line} {z : Zone} (h : kind.zone? = some z)
    (dual : Bool) : kind.mayBeDropped dual = true := by
  unfold zone? at h
  split at h
  · rfl
  · simp at h

/-! ## Edits -/

/-- `b` comes from `a` by dropping and adding lines of the kinds that allow it; the lines that are
    kept stay in order. -/
inductive Edits (dual : Bool) : List Text → List Text → Prop where
  | nil : Edits dual [] []
  | keep (line : Text) {a b : List Text} : Edits dual a b → Edits dual (line :: a) (line :: b)
  | drop {line : Text} {a b : List Text} (h : (Line.classify line).mayBeDropped dual = true) :
      Edits dual a b → Edits dual (line :: a) b
  | add {line : Text} {a b : List Text} (h : (Line.classify line).mayBeAdded = true) :
      Edits dual a b → Edits dual a (line :: b)

namespace Edits

variable {dual : Bool} {a b c d : List Text}

theorem refl (a : List Text) : Edits dual a a := by
  induction a with
  | nil => exact .nil
  | cons line a ih => exact .keep line ih

/-- A line that one edit keeps or adds may be dropped or kept by the next. -/
theorem trans (h : Edits dual a b) (h' : Edits dual b c) : Edits dual a c := by
  induction h' generalizing a with
  | nil => exact h
  | add hadd _ ih => exact .add hadd (ih h)
  | @keep line b c hbc ih =>
    -- Only the first edit says where the line comes from.
    generalize hlines : line :: b = lines at h
    induction h with
    | nil => simp at hlines
    | keep line' hab _ =>
      cases hlines
      exact .keep line (ih hab)
    | drop hdrop _ ihab => exact .drop hdrop (ihab hlines)
    | add hadd hab _ =>
      cases hlines
      exact .add hadd (ih hab)
  | @drop line b c hdrop hbc ih =>
    generalize hlines : line :: b = lines at h
    induction h with
    | nil => simp at hlines
    | keep line' hab _ =>
      cases hlines
      exact .drop hdrop (ih hab)
    | drop hdrop' _ ihab => exact .drop hdrop' (ihab hlines)
    | add hadd hab _ =>
      cases hlines
      exact ih hab

theorem append (h : Edits dual a b) (h' : Edits dual c d) : Edits dual (a ++ c) (b ++ d) := by
  induction h with
  | nil => exact h'
  | keep line _ ih => exact .keep line ih
  | drop hdrop _ ih => exact .drop hdrop ih
  | add hadd _ ih => exact .add hadd ih

theorem reverse (h : Edits dual a b) : Edits dual a.reverse b.reverse := by
  induction h with
  | nil => exact .nil
  | keep line _ ih =>
    rw [List.reverse_cons, List.reverse_cons]
    exact ih.append (.keep line .nil)
  | @drop _ _ b hdrop _ ih =>
    rw [List.reverse_cons, ← List.append_nil b.reverse]
    exact ih.append (.drop hdrop .nil)
  | @add _ a _ hadd _ ih =>
    rw [List.reverse_cons, ← List.append_nil a.reverse]
    exact ih.append (.add hadd .nil)

theorem addAll {lines : List Text} (h : ∀ l ∈ lines, (Line.classify l).mayBeAdded = true)
    (hab : Edits dual a b) : Edits dual a (lines ++ b) := by
  induction lines with
  | nil => exact hab
  | cons line lines ih =>
    exact .add (h line List.mem_cons_self) (ih fun l hl => h l (List.mem_cons_of_mem _ hl))

theorem filter {p : Text → Bool}
    (hp : ∀ l, p l = false → (Line.classify l).mayBeDropped dual = true) (a : List Text) :
    Edits dual a (a.filter p) := by
  induction a with
  | nil => exact .nil
  | cons line a ih =>
    by_cases hline : p line = true
    · rw [List.filter_cons_of_pos hline]
      exact .keep line ih
    · rw [List.filter_cons_of_neg hline]
      exact .drop (hp line (by simpa using hline)) ih

theorem dropBreaks (a : List Text) : Edits dual a (dropBreaks a) := by
  induction a with
  | nil => exact .nil
  | cons line a ih =>
    unfold Repair.dropBreaks
    rw [List.dropWhile_cons]
    split
    · next hbreak => exact .drop (Line.mayBeDropped_of_isBreak hbreak dual) ih
    · exact refl _

theorem trimBreaks (a : List Text) : Edits dual a (trimBreaks a) := by
  have h : Edits dual a.reverse.reverse (Repair.dropBreaks a.reverse).reverse :=
    (dropBreaks a.reverse).reverse
  rwa [List.reverse_reverse] at h

theorem trimBreaks_append {more : List Text}
    (h : ∀ l ∈ more, (Line.classify l).mayBeAdded = true) :
    Edits dual a (Repair.trimBreaks a ++ more) := by
  have hmore : Edits dual (a ++ []) (Repair.trimBreaks a ++ (more ++ [])) :=
    (trimBreaks a).append (addAll h .nil)
  rwa [List.append_nil, List.append_nil] at hmore

/-- A repair that writes lines last first edits a script if it edits one line at a time. -/
theorem foldl {σ : Type} {f : σ → Text → σ} (w : σ → List Text)
    (hstep : ∀ state line, Edits dual (line :: w state) (w (f state line))) (state : σ)
    (lines : List Text) : Edits dual (lines.reverse ++ w state) (w (lines.foldl f state)) := by
  induction lines generalizing state with
  | nil => exact refl _
  | cons line lines ih =>
    rw [List.reverse_cons, List.append_assoc, List.foldl_cons]
    exact ((refl lines.reverse).append (hstep state line)).trans (ih (f state line))

/-- What is typed is the same before and after an edit. -/
theorem filter_isTyped_eq (h : Edits dual a b) :
    b.filter (fun l => (Line.classify l).isTyped)
      = a.filter fun l => (Line.classify l).isTyped := by
  induction h with
  | nil => rfl
  | keep line _ ih => rw [List.filter_cons, List.filter_cons, ih]
  | drop hdrop _ ih =>
    rw [ih, List.filter_cons_of_neg (by rw [Line.isTyped_of_mayBeDropped hdrop]; decide)]
  | add hadd _ ih =>
    rw [List.filter_cons_of_neg (by rw [Line.isTyped_of_mayBeAdded hadd]; decide), ih]

/-- What may not be dropped is kept, in order. -/
theorem filter_sublist (h : Edits dual a b) :
    (a.filter fun l => !(Line.classify l).mayBeDropped dual).Sublist b := by
  induction h with
  | nil => exact .slnil
  | keep line _ ih =>
    rw [List.filter_cons]
    split
    · exact ih.cons_cons line
    · exact ih.cons line
  | drop hdrop _ ih => rwa [List.filter_cons_of_neg (by rw [hdrop]; decide)]
  | add _ _ ih => exact ih.cons _

/-- Boxes and exits are kept, in order; others may be added. -/
theorem filter_isBox_sublist (h : Edits dual a b) :
    (a.filter fun l => (Line.classify l).isBox).Sublist
      (b.filter fun l => (Line.classify l).isBox) := by
  have hkept := h.filter_sublist.filter fun l => (Line.classify l).isBox
  rw [List.filter_filter] at hkept
  have hboxes : (a.filter fun l => (Line.classify l).isBox && !(Line.classify l).mayBeDropped dual)
      = a.filter fun l => (Line.classify l).isBox := by
    refine List.filter_congr fun l _ => ?_
    by_cases hbox : (Line.classify l).isBox = true
    · rw [Line.mayBeDropped_of_isBox hbox, hbox]
      rfl
    · simp [hbox]
  rwa [hboxes] at hkept

end Edits

/-! ## The walk over the zones -/

section Walk

variable {dual : Bool} {a : List Text} {w : ZoneWalk}

theorem mayBeAdded_exitBoxLine : (Line.classify exitBoxLine).mayBeAdded = true := by
  rw [classify_exitBoxLine]
  rfl

theorem mayBeAdded_focusLine (z : Zone) : (Line.classify z.focusLine).mayBeAdded = true := by
  rw [classify_focusLine]
  rfl

theorem mayBeAdded_openBoxLine : (Line.classify openBoxLine).mayBeAdded = true := by
  rw [classify_openBoxLine]
  rfl

theorem mayBeAdded_enterLine : (Line.classify enterLine).mayBeAdded = true := by
  rw [classify_enterLine]
  rfl

theorem mayBeAdded_alignJustifyLine : (Line.classify alignJustifyLine).mayBeAdded = true := by
  rw [classify_alignJustifyLine]
  rfl

theorem Edits.replicate_exitBoxLine {b : List Text} (h : Edits dual a b) (n : Nat) :
    Edits dual a (List.replicate n exitBoxLine ++ b) :=
  h.addAll fun l hl => by rw [List.eq_of_mem_replicate hl, mayBeAdded_exitBoxLine]

theorem ZoneWalk.IsAdded.mayBeAdded {line : Text} (h : ZoneWalk.IsAdded line) :
    (Line.classify line).mayBeAdded = true := by
  rcases h with rfl | rfl | ⟨z, rfl⟩
  · exact mayBeAdded_exitBoxLine
  · exact mayBeAdded_openBoxLine
  · exact mayBeAdded_focusLine z

theorem edits_of_adds {old new : List Text} (h : ZoneWalk.Adds old new) : Edits dual old new := by
  obtain ⟨added, rfl, hadded⟩ := h
  exact (Edits.refl old).addAll fun l hl => (hadded l hl).mayBeAdded

/-- A request for a zone is kept, dropped, or answered by other lines. A line that types something
    is written behind whatever it calls for, with a request to justify it in front of it. -/
theorem edits_of_extends {line : Text} {old new : List Text}
    (h : ZoneWalk.Extends dual line old new) : Edits dual (line :: old) new := by
  cases h with
  | leftOut hadds hline =>
    refine .drop ?_ (edits_of_adds hadds)
    rcases hline with ⟨z, hkind⟩ | ⟨t, hkind, hdropped⟩
    · rw [hkind]
      rfl
    · rw [hkind]
      exact hdropped
  | kept hadds _ => exact .keep line (edits_of_adds hadds)
  | opened hadds _ => exact .add (mayBeAdded_focusLine _) (.keep line (edits_of_adds hadds))
  | justified hold _ hadds _ =>
    subst hold
    exact .keep line (.keep _ (edits_of_adds hadds))

theorem edits_walk (lines : List Text) :
    Edits dual (lines.reverse ++ w.written) (ZoneWalk.walk dual w lines).written := by
  induction lines generalizing w with
  | nil => exact .refl _
  | cons line ahead ih =>
    rw [List.reverse_cons, List.append_assoc]
    exact ((Edits.refl ahead.reverse).append
      (edits_of_extends (w.extends_step dual line ahead))).trans ih

end Walk

theorem edits_orderPlaceholders (lines : List Text) :
    Edits (isDual lines) lines (orderPlaceholders lines) := by
  have h : Edits (isDual lines) (lines.reverse ++ []).reverse (orderPlaceholders lines) :=
    (edits_walk (w := {}) lines).reverse
  rwa [List.append_nil, List.reverse_reverse] at h

/-! ## The other repairs -/

section Repairs

variable (dual : Bool)

/-- The block is cut in two and the pieces stay in order; what is left out are the inside request
    and the requests to justify lines of the question. -/
theorem edits_splitDualContent (lines : List Text) : Edits dual lines (splitDualContent lines) := by
  unfold splitDualContent
  split
  · exact .refl _
  · cases hb : HeaderBlock.ofLines? lines with
    | none => exact .refl _
    | some b =>
      obtain ⟨request, hrequest, hlines, _⟩ := HeaderBlock.exists_of_ofLines? hb
      have hblock := splitQuestion_append b.block
      rw [Option.bind_some]
      simp only [HeaderBlock.split?]
      generalize splitQuestion b.block = parts at hblock
      obtain ⟨condition, question⟩ := parts
      split
      · rw [Option.getD_some, hlines, ← hblock]
        simp only [List.append_assoc, List.cons_append]
        refine (Edits.refl b.front).append ?_
        refine .drop (Line.mayBeDropped_of_zone? hrequest dual) (.add mayBeAdded_openBoxLine ?_)
        refine (Edits.refl condition).append (.add mayBeAdded_exitBoxLine ?_)
        refine (Edits.filter (fun l hl => ?_) _).append (Edits.addAll (fun l hl => ?_) ?_)
        · have hjustify : Line.classify l = .alignJustify := by simpa using hl
          rw [hjustify]
          rfl
        · split at hl
          · rw [List.mem_singleton.1 hl, mayBeAdded_enterLine]
          · simp at hl
        · exact .add (mayBeAdded_focusLine _) (.add mayBeAdded_alignJustifyLine (.refl _))
      · exact .refl _

theorem edits_compactContainerBreaks (lines : List Text) :
    Edits dual lines (compactContainerBreaks lines) := by
  have hstep (state : Nesting × List Text) (line : Text) :
      Edits dual (line :: state.2) (compactStep state line).2 := by
    obtain ⟨nesting, written⟩ := state
    simp only [compactStep]
    split
    · next hbreak =>
      have hdrop := Line.mayBeDropped_of_isBreak (Bool.and_eq_true_iff.1 hbreak).1 dual
      split
      · exact .drop hdrop (.refl _)
      · exact .drop hdrop (.add mayBeAdded_enterLine (.refl _))
    · split
      · exact .keep line (.dropBreaks written)
      · exact .refl _
  have h := (Edits.foldl Prod.snd hstep ({}, []) lines).reverse
  rwa [List.append_nil, List.reverse_reverse] at h

theorem edits_dropBreakAfterExit (lines : List Text) :
    Edits dual lines (dropBreakAfterExit lines) := by
  have hstep (written : List Text) (line : Text) :
      Edits dual (line :: written) (exitStep written line) := by
    simp only [exitStep]
    split
    · next hbreak =>
      exact .drop (Line.mayBeDropped_of_isBreak (Bool.and_eq_true_iff.1 hbreak).1 dual) (.refl _)
    · exact .refl _
  have h := (Edits.foldl (fun written => written) hstep [] lines).reverse
  rwa [List.append_nil, List.reverse_reverse] at h

theorem edits_closeDepth (depth : Nat) (written : List Text) :
    Edits dual written (closeDepth depth written) := by
  unfold closeDepth
  split
  · exact .refl _
  · exact (Edits.dropBreaks written).replicate_exitBoxLine depth

theorem edits_closeOpenContainers (lines : List Text) :
    Edits dual lines (closeOpenContainers lines) := by
  have hstep (state : Nat × List Text) (line : Text) :
      Edits dual (line :: state.2) (closeStep state line).2 := by
    obtain ⟨depth, written⟩ := state
    simp only [closeStep]
    split
    · exact .refl _
    · exact .refl _
    · exact .keep line (edits_closeDepth dual depth written)
    · exact .keep line (edits_closeDepth dual depth written)
    · exact .refl _
  have hfold := Edits.foldl Prod.snd hstep (0, []) lines
  have h := (hfold.trans (edits_closeDepth dual (lines.foldl closeStep (0, [])).1 _)).reverse
  rwa [List.append_nil, List.reverse_reverse] at h

theorem edits_withoutAfter (lines : List Text) : Edits dual lines (withoutAfter lines) := by
  refine .filter (fun l hl => ?_) lines
  have hafter : (Line.classify l).zone? = some .after := by simpa [requestsAfter] using hl
  exact Line.mayBeDropped_of_zone? hafter dual

theorem edits_enterAfterZone (lines : List Text) : Edits dual lines (enterAfterZone lines) := by
  rcases enterAfterZone_cases lines with ⟨front, request, inner, rest, hlines, _, _, heq⟩ |
    ⟨front, request, back, hlines, _, _, heq⟩ | ⟨_, heq⟩
  · rw [heq, hlines]
    refine (Edits.refl front).append (.keep request ((Edits.refl inner).append ?_))
    exact .add (mayBeAdded_focusLine _) (.refl rest)
  · rw [heq, hlines]
    refine (Edits.refl front).append (.keep request (Edits.trimBreaks_append fun l hl => ?_))
    simp only [List.mem_cons, List.not_mem_nil, or_false] at hl
    rcases hl with rfl | rfl
    · exact mayBeAdded_exitBoxLine
    · exact mayBeAdded_focusLine _
  · rw [heq]
    refine Edits.trimBreaks_append fun l hl => ?_
    simp only [List.mem_cons, List.not_mem_nil, or_false] at hl
    rcases hl with rfl | rfl | rfl
    · exact mayBeAdded_focusLine _
    · exact mayBeAdded_exitBoxLine
    · exact mayBeAdded_focusLine _

theorem edits_placeInSegment (segment : List Text) :
    Edits dual segment (placeInSegment segment) := by
  rcases placeInSegment_cases segment with ⟨front, choice, behind, rfl, _, _, heq⟩ | ⟨_, _, heq⟩ |
    ⟨_, _, heq⟩
  · rw [heq]
    exact (Edits.refl front).append (.keep choice (edits_withoutAfter dual behind))
  · rw [heq]
    exact edits_withoutAfter dual segment
  · rw [heq]
    exact (edits_withoutAfter dual segment).trans (edits_enterAfterZone dual _)

theorem edits_placeAfterZone (lines : List Text) : Edits dual lines (placeAfterZone lines) := by
  have hflatten (parts : List (List Text)) :
      Edits dual parts.flatten (parts.flatMap placeInSegment) := by
    induction parts with
    | nil => exact .nil
    | cons segment parts ih =>
      rw [List.flatten_cons, List.flatMap_cons]
      exact (edits_placeInSegment dual segment).append ih
  have h := hflatten (segments lines)
  rwa [segments_flatten] at h

end Repairs

/-! ## All layout repairs -/

/-- The repairs from the order of zones to the after zones, without those that rewrite single lines
    in between. -/
def settleLayout (lines : List Text) : List Text :=
  placeAfterZone (closeOpenContainers (dropBreakAfterExit (compactContainerBreaks
    (splitDualContent (orderPlaceholders lines)))))

theorem edits_settleLayout (lines : List Text) : Edits (isDual lines) lines (settleLayout lines) :=
  (edits_orderPlaceholders lines).trans <| (edits_splitDualContent _ _).trans <|
    (edits_compactContainerBreaks _ _).trans <| (edits_dropBreakAfterExit _ _).trans <|
    (edits_closeOpenContainers _ _).trans <| edits_placeAfterZone _ _

/-- The layout repairs leave what is typed exactly as it was. Boxes and exits stay in order, with
    others added, and only breaks, requests for zones, requests to justify and plain templates
    beside a header are ever dropped. -/
theorem typed_settleLayout (lines : List Text) :
    (settleLayout lines).filter (fun l => (Line.classify l).isTyped)
      = lines.filter (fun l => (Line.classify l).isTyped) ∧
    (lines.filter fun l => (Line.classify l).isBox).Sublist
      ((settleLayout lines).filter fun l => (Line.classify l).isBox) ∧
    (lines.filter fun l => !(Line.classify l).mayBeDropped (isDual lines)).Sublist
      (settleLayout lines) :=
  have h := edits_settleLayout lines
  ⟨h.filter_isTyped_eq, h.filter_isBox_sublist, h.filter_sublist⟩

end Scribe.Repair
