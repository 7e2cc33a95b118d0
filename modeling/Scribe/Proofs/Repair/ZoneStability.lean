import Scribe.Proofs.Repair.Content
import Scribe.Proofs.Repair.ZonePlaces

set_option autoImplicit false

/-! # Putting zones in order twice

A script is left alone by the walk if every line stands where it may and every choice behind the
after zone. The walk moves a literal that is a list item and holds choices only inside, so that one
may still stand in front of the after zone; a second walk moves it there, and a third one finds
nothing to do. -/

namespace Scribe.Repair

namespace ZoneWalk

/-! ## A line that is written as it is -/

/-- The request that the walk writes behind a template before it is asked for, last line first. -/
def owedRequest (p : ZonePlace) : List Text := if p.isFresh then [Zone.before.focusLine] else []

section Step

variable {dual : Bool} {late : Text → Bool} {w : ZoneWalk} {p : ZonePlace} {line : Text}

theorem isFresh_observe {kind : Line} (hp : p.isFresh = false) (hkind : kind.isTemplate = false) :
    (p.observe kind).isFresh = false := by
  unfold ZonePlace.observe
  split
  · cases hkind
  · by_cases hopened : p.opened = true <;> simp [ZonePlace.isFresh, hopened]
  · exact hp
  · split <;> exact hp
  · exact hp

theorem written_closeContainers (h : w.place.IsClosed) : w.closeContainers.written = w.written := by
  obtain ⟨hdepth, hcontainer⟩ := h
  have hdepth : w.plainDepth = 0 := hdepth
  have hcontainer : w.inContainer = false := hcontainer
  simp [ZoneWalk.closeContainers, hdepth, hcontainer]

theorem written_start {t : Option Template} (h : w.place.IsClosed) (ahead : List Text) :
    (w.start false t line ahead).written =
      owedRequest (w.place.observe (.template t)) ++ line :: w.written := by
  have hkept : isDropped false t = false := rfl
  rw [ZoneWalk.start, if_neg (by rw [hkept]; decide), ← written_closeContainers h]
  cases t with
  | none => rfl
  | some t => rfl

theorem written_focus {z : Zone} (husesUp : w.UsesUpToCurrent)
    (hrequest : w.template.isSome = true →
      line = z.focusLine ∧ z.rank = w.place.entered ∧ w.place.IsClosed)
    (houtside : w.template.isSome = false → z = .inside) :
    (w.focus false z line).written = line :: w.written := by
  cases ht : w.template.isSome with
  | false =>
    rw [focus_eq_of_isSome_eq_false ht, if_pos (houtside ht)]
    rfl
  | true =>
    obtain ⟨rfl, hnext, hclosed⟩ := hrequest ht
    obtain ⟨c, hcurrent, hconsumed⟩ := husesUp ht
    have hnext : z.rank = c.rank + 1 := by
      rw [hnext, ZonePlace.entered, show w.place.zone = some c from hcurrent]
    have hnew : z ∉ w.consumed := by
      rw [hconsumed]
      omega
    have hcounted : (w.countRequest z).place.IsClosed := by rwa [place_countRequest]
    rw [focus_eq ht, if_neg hnew, if_neg (by simp)]
    have ht' : (w.countRequest z).template.isSome = true := by rwa [template_countRequest]
    have hconsumed' : ∀ y, y ∈ (w.countRequest z).consumed ↔ y.rank ≤ c.rank := by
      rwa [consumed_countRequest]
    rcases advanceTo_cases ht' hconsumed' (z := z) (by omega) with ⟨-, hadvance⟩ | ⟨rfl, rfl, -⟩
    · rw [hadvance]
      show z.focusLine :: (w.countRequest z).closeContainers.written = _
      rw [written_closeContainers hcounted, written_countRequest]
    · exact absurd hnext (by decide)

/-- Where the walk is, a literal that may stand there is written as it is. -/
theorem content_eq_write_of_admits (husesUp : w.UsesUpToCurrent)
    (h : Admits dual isChoice w.place line) {literal : Text}
    (hline : (Line.classify line).literal? = some literal) :
    w.content literal line = w.write line := by
  have hinside (hitem : isListItem literal = true) : ¬w.MayMoveTo .inside := by
    rintro ⟨ht, hdepth, hahead⟩
    obtain ⟨c, hcurrent, _⟩ := husesUp ht
    have hzone := h.item literal hline hitem ht hdepth
    rw [isAheadOf, hcurrent] at hahead
    rw [show w.place.zone = some c from hcurrent] at hzone
    cases c <;> simp_all [Zone.rank]
  have hafter (hchoice : isChoice literal = true) : ¬w.MayMoveTo .after := by
    rintro ⟨ht, hdepth, hahead⟩
    have hzone := h.choice literal hline hchoice ht hdepth
    rw [isAheadOf, show w.current = some .after from hzone] at hahead
    cases hahead
  rcases w.content_cases literal line with ⟨_, _, heq⟩ | ⟨_, hchoice, hmay, _⟩ | ⟨hitem, hmay, _⟩ |
    ⟨hitem, hmay, _⟩
  · exact heq
  · exact absurd hmay (hafter hchoice)
  · exact absurd hmay (hinside hitem)
  · exact absurd hmay (hinside hitem)

theorem written_step (husesUp : w.UsesUpToCurrent) (h : Admits dual isChoice w.place line)
    (ahead : List Text) :
    (w.step false line ahead).written =
      owedRequest (w.place.observe (Line.classify line)) ++ line :: w.written := by
  have howed (hkind : (Line.classify line).isTemplate = false) :
      owedRequest (w.place.observe (Line.classify line)) = [] := by
    rw [owedRequest, isFresh_observe husesUp.isFresh_place hkind]
    rfl
  cases hkind : Line.classify line with
  | template t =>
    simp only [ZoneWalk.step, hkind]
    exact written_start (h.template t hkind).2 ahead
  | focus q =>
    rw [← hkind, howed (by rw [hkind]; rfl), List.nil_append]
    cases q with
    | zone z =>
      have hzone : (Line.classify line).zone? = some z := by rw [hkind]; rfl
      simp only [ZoneWalk.step, hkind]
      exact written_focus husesUp (h.request z hzone) (h.outside z hzone)
    | custom s =>
      simp only [ZoneWalk.step, hkind]
      rfl
  | text literal =>
    rw [← hkind, howed (by rw [hkind]; rfl), List.nil_append]
    simp only [ZoneWalk.step, hkind]
    rw [content_eq_write_of_admits husesUp h (by rw [hkind]; rfl)]
    rfl
  | equation literal =>
    rw [← hkind, howed (by rw [hkind]; rfl), List.nil_append]
    simp only [ZoneWalk.step, hkind]
    rw [content_eq_write_of_admits husesUp h (by rw [hkind]; rfl)]
    rfl
  | exit =>
    rw [← hkind, howed (by rw [hkind]; rfl), List.nil_append]
    simp only [ZoneWalk.step, hkind]
    split <;> rfl
  | _ =>
    rw [← hkind, howed (by rw [hkind]; rfl), List.nil_append]
    simp only [ZoneWalk.step, hkind]
    rfl

/-- A before zone that is requested behind its template was entered with it. -/
theorem step_beforeLine (husesUp : w.UsesUpToCurrent) (ht : w.template.isSome = true)
    (hcurrent : w.current = some .before) (ahead : List Text) :
    w.step false Zone.before.focusLine ahead = w := by
  obtain ⟨c, hc, hconsumed⟩ := husesUp ht
  obtain rfl : c = .before := by
    rw [hcurrent, Option.some.injEq] at hc
    exact hc.symm
  have hused : .before ∈ w.consumed := (hconsumed .before).2 (Nat.le_refl _)
  simp only [ZoneWalk.step, classify_focusLine]
  rw [focus_eq ht, if_pos hused, hcurrent, if_neg (by simp)]
  rfl

/-- The walk over lines that may stand where they stand has written the lines in front. -/
theorem written_walk {front lines : List Text} (h : Arranged dual isChoice (front ++ lines))
    (hw : w.Keeps false fun _ => false)
    (hwritten : w.written = owedRequest (placeBehind front) ++ front.reverse) :
    (ZoneWalk.walk false w lines).written =
      owedRequest (placeBehind (front ++ lines)) ++ (front ++ lines).reverse := by
  induction lines generalizing front w with
  | nil => rwa [List.append_nil]
  | cons line ahead ih =>
    have hline := h front line ahead rfl
    have happend : front ++ line :: ahead = (front ++ [line]) ++ ahead := by simp
    have hstep : (w.step false line ahead).Keeps false fun _ => false :=
      hw.step (fun _ h => by cases h) (fun _ _ h => by cases h) ahead
    rw [happend] at h ⊢
    refine ih h hstep ?_
    rw [placeBehind_concat, List.reverse_append, List.reverse_singleton, List.singleton_append]
    have hplace := hw.reaches.place
    rw [hwritten] at hplace
    by_cases hfresh : (placeBehind front).isFresh = true
    · -- The before zone is asked for where it was entered.
      obtain rfl := hline.fresh hfresh
      have hopened : (placeBehind front).opened = true := (Bool.and_eq_true_iff.1 hfresh).1
      rw [owedRequest, if_pos hfresh, List.singleton_append, List.reverse_cons,
        List.reverse_reverse, placeBehind_concat, classify_focusLine] at hplace
      have ht : w.place.opened = true := by rw [← hplace]; exact hopened
      have hcurrent : w.place.zone = some .before := by
        rw [← hplace]
        simp [ZonePlace.observe, hopened]
      rw [step_beforeLine hw.usesUp ht hcurrent, hwritten, classify_focusLine, hplace]
      rw [owedRequest, if_pos hfresh, owedRequest, hw.usesUp.isFresh_place]
      rfl
    · rw [owedRequest, if_neg hfresh, List.nil_append] at hwritten hplace
      rw [List.reverse_reverse] at hplace
      rw [hplace] at hline
      rw [written_step hw.usesUp hline, hplace, hwritten]

end Step

end ZoneWalk

/-- Lines that may stand where they stand are left alone, choices behind the after zone included. -/
theorem orderPlaceholders_eq_of_arranged {dual : Bool} {lines : List Text}
    (h : Arranged dual isChoice lines) (hdual : isDual lines = false)
    (hfresh : (placeBehind lines).isFresh = false) : orderPlaceholders lines = lines := by
  have hstart : Arranged dual isChoice ([] ++ lines) := h
  have hwalk := ZoneWalk.written_walk hstart ZoneWalk.keeps_start rfl
  rw [orderPlaceholders, hdual, hwalk, List.nil_append, ZoneWalk.owedRequest, hfresh]
  exact List.reverse_reverse lines

/-! ## A second walk -/

/-- A line is kept by edits unless it may be added. -/
theorem mem_of_edits {dual : Bool} {a b : List Text} (h : Edits dual a b) {line : Text}
    (hline : line ∈ b) (hkept : (Line.classify line).mayBeAdded = false) : line ∈ a := by
  induction h with
  | nil => exact hline
  | keep l _ ih =>
    rcases List.mem_cons.1 hline with rfl | hline
    · exact List.mem_cons_self
    · exact List.mem_cons_of_mem _ (ih hline)
  | drop _ _ ih => exact List.mem_cons_of_mem _ (ih hline)
  | add hadd _ ih =>
    rcases List.mem_cons.1 hline with rfl | hline
    · rw [hkept] at hadd
      cases hadd
    · exact ih hline

theorem mem_templatesOf {lines : List Text} {t : Template} :
    t ∈ templatesOf lines ↔ ∃ line ∈ lines, Line.classify line = .template (some t) := by
  rw [templatesOf, List.mem_filterMap]
  refine exists_congr fun line => and_congr_right fun _ => ?_
  constructor
  · intro h
    split at h
    · next hkind => rw [hkind, h]
    · cases h
  · intro h
    rw [h]

/-- Behind a walk no header stands beside a plain template. -/
theorem isDual_orderPlaceholders (lines : List Text) :
    isDual (orderPlaceholders lines) = false := by
  rw [Bool.eq_false_iff]
  intro h
  simp only [isDual, Bool.and_eq_true, List.any_eq_true, List.contains_iff_mem] at h
  obtain ⟨hheader, t, ht, hplain⟩ := h
  obtain ⟨line, hline, hkind⟩ := mem_templatesOf.1 ht
  obtain ⟨header, hheader, hheaderKind⟩ := mem_templatesOf.1 hheader
  obtain ⟨harranged, -⟩ := arranged_orderPlaceholders_early lines
  obtain ⟨front, back, hsplit⟩ := List.append_of_mem hline
  have hkept := ((harranged front line back hsplit).template _ hkind).1
  have hedits := edits_orderPlaceholders lines
  have hdual : isDual lines = true := by
    simp only [isDual, Bool.and_eq_true, List.any_eq_true, List.contains_iff_mem]
    exact ⟨mem_templatesOf.2 ⟨header, mem_of_edits hedits hheader (by rw [hheaderKind]; rfl),
      hheaderKind⟩, t, mem_templatesOf.2 ⟨line, mem_of_edits hedits hline (by rw [hkind]; rfl),
      hkind⟩, hplain⟩
  rw [hdual] at hkept
  simp [ZoneWalk.isDropped, hplain] at hkept

namespace ZoneWalk

section Mirrors

variable {dual : Bool} {late : Text → Bool} {w : ZoneWalk} {p : ZonePlace} {line : Text}

/-- A walk over an arranged script stands where the script does, though it may be ahead by a zone:
    what the script has requested is used up. -/
structure Mirrors (p : ZonePlace) (w : ZoneWalk) : Prop where
  opened : w.template.isSome = p.opened
  plainDepth : w.plainDepth = p.plainDepth
  consumed : p.opened = true → ∀ z, p.zone = some z → z ∈ w.consumed

theorem consumed_skip (w : ZoneWalk) (z : Zone) : (w.skip z).consumed = z :: w.consumed := by
  simp only [skip]
  split <;> rfl

theorem mem_consumed_foldl_skip (w : ZoneWalk) (passed : List Zone) (z : Zone) :
    z ∈ (passed.foldl skip w).consumed ↔ z ∈ passed ∨ z ∈ w.consumed := by
  induction passed generalizing w with
  | nil => simp
  | cons y passed ih =>
    rw [List.foldl_cons, ih, consumed_skip, List.mem_cons, List.mem_cons, or_left_comm, or_assoc]

theorem plainDepth_foldl_skip (w : ZoneWalk) (passed : List Zone) :
    (passed.foldl skip w).plainDepth = w.plainDepth := by
  induction passed generalizing w with
  | nil => rfl
  | cons y passed ih =>
    rw [List.foldl_cons, ih]
    simp only [skip]
    split <;> rfl

theorem plainDepth_advanceTo (w : ZoneWalk) (z : Zone) : (w.advanceTo z).plainDepth = 0 :=
  plainDepth_foldl_skip _ _

theorem mem_consumed_advanceTo {y z : Zone} (h : y = z ∨ y ∈ w.consumed) :
    y ∈ (w.advanceTo z).consumed :=
  List.mem_cons.2 (h.imp id fun h => (mem_consumed_foldl_skip _ _ y).2 (.inr h))

/-- Moving forward where no plain container is open. -/
theorem Mirrors.advanceTo (h : Mirrors p w) (hdepth : w.plainDepth = 0) (z : Zone) :
    Mirrors p (w.advanceTo z) where
  opened := by rw [template_advanceTo, h.opened]
  plainDepth := by rw [plainDepth_advanceTo, ← h.plainDepth, hdepth]
  consumed hopened y hy := mem_consumed_advanceTo (.inr (h.consumed hopened y hy))

theorem Mirrors.write (h : Mirrors p w) (line : Text) : Mirrors p (w.write line) :=
  ⟨h.opened, h.plainDepth, h.consumed⟩

theorem Mirrors.content (h : Mirrors p w) (literal line : Text) :
    Mirrors p (w.content literal line) := by
  rcases w.content_cases literal line with ⟨_, _, heq⟩ | ⟨_, _, hmay, heq⟩ | ⟨_, hmay, heq⟩ |
    ⟨_, hmay, last, earlier, _, _, heq⟩
  · rw [heq]
    exact h.write line
  · rw [heq]
    exact (h.advanceTo hmay.plainDepth .after).write line
  · rw [heq]
    exact (h.advanceTo hmay.plainDepth .inside).write line
  · have hearlier : Mirrors p { w with written := earlier } :=
      ⟨h.opened, h.plainDepth, h.consumed⟩
    rw [heq]
    exact ((hearlier.advanceTo hmay.plainDepth .inside).write last).write line

theorem Mirrors.focus (h : Mirrors p w) {z : Zone}
    (hdepth : p.opened = true → p.plainDepth = 0) (line : Text) :
    Mirrors (p.observe (.focus (.zone z))) (w.focus false z line) := by
  -- Without an open template there is no zone that the two could differ in.
  cases hopened : p.opened with
  | false =>
    have hplace {v : ZoneWalk} (hv : Mirrors p v) : Mirrors (p.observe (.focus (.zone z))) v :=
      ⟨hv.opened, hv.plainDepth, fun hp => by
        rw [ZonePlace.observe, hopened] at hp
        cases hp⟩
    rw [focus_eq_of_isSome_eq_false (h.opened.trans hopened)]
    split
    · exact hplace ⟨h.opened, h.plainDepth, h.consumed⟩
    · exact hplace h
  | true =>
    have ht : w.template.isSome = true := h.opened.trans hopened
    have hdepth : w.plainDepth = 0 := h.plainDepth.trans (hdepth hopened)
    have hplace {v : ZoneWalk} (htemplate : v.template = w.template) (hv : v.plainDepth = 0)
        (hz : z ∈ v.consumed) : Mirrors (p.observe (.focus (.zone z))) v := by
      refine ⟨?_, ?_, fun _ y hy => ?_⟩
      · rw [htemplate, h.opened]
        rfl
      · rw [hv, ← hdepth, h.plainDepth]
        rfl
      · rw [ZonePlace.observe, if_pos hopened, Option.some.injEq] at hy
        rwa [← hy]
    have htemplate := template_countRequest w z
    have hcounted : (w.countRequest z).plainDepth = 0 :=
      (congrArg ZonePlace.plainDepth (place_countRequest w z)).trans hdepth
    rw [focus_eq ht]
    split
    · next hused =>
      have hused : z ∈ (w.countRequest z).consumed := by rwa [consumed_countRequest]
      split
      · exact hplace htemplate rfl hused
      · exact hplace htemplate hcounted hused
    · rw [if_neg (by simp)]
      exact hplace ((template_advanceTo _ z).trans htemplate) (plainDepth_advanceTo _ z)
        (mem_consumed_advanceTo (.inl rfl))

theorem mirrors_start {t : Option Template} (hclosed : p.IsClosed) (w : ZoneWalk) (line : Text)
    (ahead : List Text) : Mirrors (p.observe (.template t)) (w.start false t line ahead) := by
  have hkept : isDropped false t = false := rfl
  rw [ZoneWalk.start, if_neg (by rw [hkept]; decide)]
  have hdepth : 0 = (p.observe (.template t)).plainDepth := hclosed.1.symm
  simp only
  split
  · exact ⟨rfl, hdepth, fun _ _ hz => by cases hz⟩
  · exact ⟨rfl, hdepth, fun _ _ hz => by cases hz⟩

theorem Mirrors.step (h : Mirrors p w) (hline : Admits dual late p line) (ahead : List Text) :
    Mirrors (p.observe (Line.classify line)) (w.step false line ahead) := by
  cases hkind : Line.classify line with
  | template t =>
    simp only [ZoneWalk.step, hkind]
    exact mirrors_start (hline.template t hkind).2 w line ahead
  | focus q =>
    simp only [ZoneWalk.step, hkind]
    cases q with
    | zone z =>
      exact h.focus (fun hopened => (hline.request z (by rw [hkind]; rfl) hopened).2.2.1) line
    | custom s => exact ⟨h.opened, h.plainDepth, h.consumed⟩
  | text literal =>
    simp only [ZoneWalk.step, hkind]
    exact h.content literal line
  | equation literal =>
    simp only [ZoneWalk.step, hkind]
    exact h.content literal line
  | opening verb =>
    simp only [ZoneWalk.step, hkind]
    exact ⟨h.opened, congrArg (· + 1) h.plainDepth, h.consumed⟩
  | exit =>
    simp only [ZoneWalk.step, hkind, ZonePlace.observe, h.plainDepth]
    split
    · exact ⟨h.opened, rfl, h.consumed⟩
    · exact ⟨h.opened, h.plainDepth, h.consumed⟩
  | _ =>
    simp only [ZoneWalk.step, hkind]
    exact ⟨h.opened, h.plainDepth, h.consumed⟩

/-- A list item of an arranged script finds the inside zone entered. -/
theorem Mirrors.isAheadOf_inside (h : Mirrors p w) (husesUp : w.UsesUpToCurrent)
    (hline : Admits dual late p line) {literal : Text}
    (hliteral : (Line.classify line).literal? = some literal) (hitem : isListItem literal = true)
    (ht : w.template.isSome = true) (hdepth : w.plainDepth = 0) : w.isAheadOf .inside = false := by
  have hopened : p.opened = true := by rw [← h.opened, ht]
  obtain ⟨c, hcurrent, hconsumed⟩ := husesUp ht
  have hbefore := hline.item literal hliteral hitem hopened (by rw [← h.plainDepth, hdepth])
  rw [isAheadOf, hcurrent]
  cases hzone : p.zone with
  | none =>
    have hfocus := hline.fresh (by simp [ZonePlace.isFresh, hopened, hzone])
    rw [hfocus, classify_focusLine] at hliteral
    cases hliteral
  | some z =>
    have hz := (hconsumed z).1 (h.consumed hopened z hzone)
    rw [hzone] at hbefore
    cases z <;> cases c <;> simp_all [Zone.rank]

/-- A walk over an arranged script leaves every choice behind the after zone. -/
theorem Keeps.walk_of_arranged {front lines : List Text}
    (h : Arranged dual late (front ++ lines)) (hw : w.Keeps false isChoice)
    (hmirrors : Mirrors (placeBehind front) w) :
    (ZoneWalk.walk false w lines).Keeps false isChoice := by
  induction lines generalizing front w with
  | nil => exact hw
  | cons line ahead ih =>
    have hline := h front line ahead rfl
    have happend : front ++ line :: ahead = (front ++ [line]) ++ ahead := by simp
    refine ih (happend ▸ h) (hw.step (fun _ h => h) (fun literal hliteral _ hitem =>
      hmirrors.isAheadOf_inside hw.usesUp hline hliteral hitem) ahead) ?_
    rw [placeBehind_concat]
    exact hmirrors.step hline ahead

end Mirrors

end ZoneWalk

/-! ## Stability -/

/-- Does every literal with choices that is outside plain containers stand behind the after zone of
    its template? -/
def ChoicesBehindAfter (lines : List Text) : Prop :=
  ∀ front line back literal, lines = front ++ line :: back →
    (Line.classify line).literal? = some literal → isChoice literal = true →
      (placeBehind front).opened = true → (placeBehind front).plainDepth = 0 →
        (placeBehind front).zone = some .after

section Stability

variable {dual : Bool} {late : Text → Bool} {lines : List Text}

theorem Arranged.choicesBehindAfter (h : Arranged dual isChoice lines) : ChoicesBehindAfter lines :=
  fun front line back literal hsplit => (h front line back hsplit).choice literal

theorem Arranged.of_choicesBehindAfter (h : Arranged dual late lines)
    (hchoices : ChoicesBehindAfter lines) : Arranged dual isChoice lines :=
  fun front line back hsplit =>
    { h front line back hsplit with
      choice := fun literal => hchoices front line back literal hsplit }

/-- The second walk leaves every choice behind the after zone. -/
theorem arranged_orderPlaceholders_twice (lines : List Text) :
    Arranged false isChoice (orderPlaceholders (orderPlaceholders lines)) := by
  obtain ⟨harranged, -⟩ := arranged_orderPlaceholders_early lines
  have hstart : Arranged (isDual lines) (fun _ => false) ([] ++ orderPlaceholders lines) :=
    harranged
  have hwalk := ZoneWalk.keeps_start.walk_of_arranged hstart ⟨rfl, rfl, fun h => by cases h⟩
  rw [orderPlaceholders, isDual_orderPlaceholders]
  exact hwalk.reaches.arranged

/-- What the walk has put in order stays as it is if and only if its choices are behind the after
    zone, as they are without list items that hold choices. After two walks everything stays as it
    is. -/
theorem orderPlaceholders_stabilizes (lines : List Text) :
    (orderPlaceholders (orderPlaceholders lines) = orderPlaceholders lines ↔
      ChoicesBehindAfter (orderPlaceholders lines)) ∧
    ((∀ line ∈ lines, ∀ literal, (Line.classify line).literal? = some literal →
      isChoice literal = true → isListItem literal = false) →
        orderPlaceholders (orderPlaceholders lines) = orderPlaceholders lines) ∧
    orderPlaceholders (orderPlaceholders (orderPlaceholders lines)) =
      orderPlaceholders (orderPlaceholders lines) := by
  have hfixed {dual : Bool} {lines : List Text}
      (h : Arranged dual isChoice (orderPlaceholders lines)) :
      orderPlaceholders (orderPlaceholders lines) = orderPlaceholders lines :=
    orderPlaceholders_eq_of_arranged h (isDual_orderPlaceholders lines)
      (arranged_orderPlaceholders_early lines).2
  refine ⟨⟨fun heq => ?_, fun hchoices => ?_⟩, fun hlines => ?_, ?_⟩
  · have htwice := arranged_orderPlaceholders_twice lines
    rw [heq] at htwice
    exact htwice.choicesBehindAfter
  · obtain ⟨harranged, -⟩ := arranged_orderPlaceholders_early lines
    exact hfixed (harranged.of_choicesBehindAfter hchoices)
  · have harranged : Arranged (isDual lines) isChoice (orderPlaceholders lines) :=
      arranged_orderPlaceholders (fun _ h => h) hlines
    exact hfixed harranged
  · exact hfixed (arranged_orderPlaceholders_twice lines)

/-- A list item that holds choices, in a header. -/
def itemWithChoices : List Text :=
  ["insert_template('header.hwp')".toList, "insert_text('ㄱ. ①')".toList]

/-- The first walk puts the item inside, and only the second one behind the after zone. -/
theorem orderPlaceholders_itemWithChoices_ne :
    orderPlaceholders itemWithChoices =
        ["insert_template('header.hwp')".toList, Zone.before.focusLine, Zone.inside.focusLine,
          "insert_text('ㄱ. ①')".toList] ∧
      orderPlaceholders (orderPlaceholders itemWithChoices) =
        ["insert_template('header.hwp')".toList, Zone.before.focusLine, Zone.inside.focusLine,
          exitBoxLine, Zone.after.focusLine, "insert_text('ㄱ. ①')".toList] ∧
      orderPlaceholders (orderPlaceholders itemWithChoices) ≠
        orderPlaceholders itemWithChoices := by
  decide +kernel

end Stability

end Scribe.Repair
