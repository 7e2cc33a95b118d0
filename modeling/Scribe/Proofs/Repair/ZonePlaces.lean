import Scribe.Proofs.Repair.ZoneOrder

set_option autoImplicit false

/-! # Places between zones

A place is what a reader of the lines so far knows of templates, zones and containers. Whether a
line may stand at a place is decided by the place alone. The walk over a script knows the place
behind the lines it has written, and it writes a line only where that line may stand. -/

namespace Scribe.Repair

/-! ## Places -/

/-- Where a reader stands behind some lines. -/
structure ZonePlace where
  /-- Is this a segment of a known template? -/
  opened : Bool := false
  /-- The zone of that template that was requested last. -/
  zone : Option Zone := none
  /-- Plain and framed containers that are open. -/
  plainDepth : Nat := 0
  /-- Is a container open that came with an inside zone? Exits close plain containers first. -/
  inContainer : Bool := false
  deriving DecidableEq, Repr

namespace ZonePlace

/-- The place behind one more line. -/
def observe (p : ZonePlace) : Line → ZonePlace
  | .template t => { p with opened := t.isSome, zone := none }
  | .focus (.zone z) =>
    { p with
      zone := if p.opened then some z else p.zone
      inContainer := p.inContainer || z == .inside }
  | .opening _ => { p with plainDepth := p.plainDepth + 1 }
  | .exit =>
    if 0 < p.plainDepth then { p with plainDepth := p.plainDepth - 1 }
    else { p with inContainer := false }
  | _ => p

/-- Is the before zone of the template still to be requested? -/
def isFresh (p : ZonePlace) : Bool := p.opened && p.zone.isNone

/-- Is every container closed? -/
def IsClosed (p : ZonePlace) : Prop := p.plainDepth = 0 ∧ p.inContainer = false

/-- How many zones of the template were requested, if they were requested in order. -/
def entered (p : ZonePlace) : Nat :=
  match p.zone with
  | none => 0
  | some z => z.rank + 1

end ZonePlace

/-- The place behind lines. -/
def placeBehind (lines : List Text) : ZonePlace :=
  (lines.map Line.classify).foldl ZonePlace.observe {}

@[simp] theorem placeBehind_concat (lines : List Text) (line : Text) :
    placeBehind (lines ++ [line]) = (placeBehind lines).observe (Line.classify line) := by
  rw [placeBehind, List.map_append, List.foldl_append]
  rfl

/-! ## Lines that may stand at a place -/

theorem Line.eq_focus {kind : Line} {z : Zone} (h : kind.zone? = some z) :
    kind = .focus (.zone z) := by
  unfold zone? at h
  split at h
  · rw [Option.some.inj h]
  · cases h

theorem ZonePlace.zone_observe {p : ZonePlace} {kind : Line} (htemplate : kind.isTemplate = false)
    (hzone : kind.zone? = none) : (p.observe kind).zone = p.zone := by
  unfold observe
  split
  · cases htemplate
  · cases hzone
  · rfl
  · split <;> rfl
  · rfl

/-- Does it matter where a line of this kind stands? -/
def Line.isPlaced : Line → Bool
  | .template _ | .focus (.zone _) | .text _ | .equation _ => true
  | _ => false

/-- May a line stand at a place? `late` are the literals that belong behind the after zone. -/
structure Admits (dual : Bool) (late : Text → Bool) (p : ZonePlace) (line : Text) : Prop where
  fresh : p.isFresh = true → line = Zone.before.focusLine
  template : ∀ t, Line.classify line = .template t →
    ZoneWalk.isDropped dual t = false ∧ p.IsClosed
  request : ∀ z, (Line.classify line).zone? = some z → p.opened = true →
    line = z.focusLine ∧ z.rank = p.entered ∧ p.IsClosed
  outside : ∀ z, (Line.classify line).zone? = some z → p.opened = false → z = .inside
  item : ∀ literal, (Line.classify line).literal? = some literal → isListItem literal = true →
    p.opened = true → p.plainDepth = 0 → p.zone ≠ some .before
  choice : ∀ literal, (Line.classify line).literal? = some literal → late literal = true →
    p.opened = true → p.plainDepth = 0 → p.zone = some .after

/-- Does every line stand where it may? -/
def Arranged (dual : Bool) (late : Text → Bool) (lines : List Text) : Prop :=
  ∀ front line back, lines = front ++ line :: back → Admits dual late (placeBehind front) line

section Admits

variable {dual : Bool} {late : Text → Bool} {p : ZonePlace} {line : Text}

theorem admits_of_not_isPlaced (hfresh : p.isFresh = false)
    (hline : (Line.classify line).isPlaced = false) : Admits dual late p line := by
  have hzone : (Line.classify line).zone? = none := by
    cases hkind : Line.classify line with
    | focus q => cases q <;> simp_all [Line.isPlaced, Line.zone?]
    | _ => rfl
  have hliteral : (Line.classify line).literal? = none := by
    cases hkind : Line.classify line <;> simp_all [Line.isPlaced, Line.literal?]
  exact {
    fresh := fun h => by simp [hfresh] at h
    template := fun t ht => by simp [ht, Line.isPlaced] at hline
    request := fun z hz => by simp [hzone] at hz
    outside := fun z hz => by simp [hzone] at hz
    item := fun literal h => by simp [hliteral] at h
    choice := fun literal h => by simp [hliteral] at h }

theorem admits_exitBoxLine (hfresh : p.isFresh = false) : Admits dual late p exitBoxLine :=
  admits_of_not_isPlaced hfresh (by rw [classify_exitBoxLine]; rfl)

theorem admits_template {t : Option Template} (hline : Line.classify line = .template t)
    (hfresh : p.isFresh = false) (hkept : ZoneWalk.isDropped dual t = false)
    (hclosed : p.IsClosed) : Admits dual late p line where
  fresh h := by simp [hfresh] at h
  template t' ht' := by
    rw [hline] at ht'
    cases ht'
    exact ⟨hkept, hclosed⟩
  request z hz := by simp [hline, Line.zone?] at hz
  outside z hz := by simp [hline, Line.zone?] at hz
  item literal h := by simp [hline, Line.literal?] at h
  choice literal h := by simp [hline, Line.literal?] at h

/-- The next zone is requested where every container is closed. -/
theorem admits_focusLine {z : Zone} (hopened : p.opened = true) (hnext : z.rank = p.entered)
    (hclosed : p.IsClosed) : Admits dual late p z.focusLine where
  fresh h := by
    have hzone : p.zone = none := by simpa [ZonePlace.isFresh, hopened] using h
    rw [ZonePlace.entered, hzone] at hnext
    rw [show z = .before by cases z <;> simp_all [Zone.rank]]
  template t ht := by simp [classify_focusLine] at ht
  request z' hz' _ := by
    rw [zone?_focusLine, Option.some.injEq] at hz'
    subst hz'
    exact ⟨rfl, hnext, hclosed⟩
  outside z' _ h := by simp [hopened] at h
  item literal h := by simp [classify_focusLine, Line.literal?] at h
  choice literal h := by simp [classify_focusLine, Line.literal?] at h

/-- Outside the known templates an inside zone may be requested anywhere. -/
theorem admits_inside (hline : (Line.classify line).zone? = some .inside)
    (hopened : p.opened = false) : Admits dual late p line where
  fresh h := by simp [ZonePlace.isFresh, hopened] at h
  template t ht := by simp [ht, Line.zone?] at hline
  request z _ h := by simp [hopened] at h
  outside z hz _ := by
    rw [hline, Option.some.injEq] at hz
    exact hz.symm
  item literal _ _ h := by simp [hopened] at h
  choice literal _ _ h := by simp [hopened] at h

theorem admits_literal {literal : Text} (hline : (Line.classify line).literal? = some literal)
    (hfresh : p.isFresh = false)
    (hitem : isListItem literal = true → p.opened = true → p.plainDepth = 0 →
      p.zone ≠ some .before)
    (hchoice : late literal = true → p.opened = true → p.plainDepth = 0 →
      p.zone = some .after) : Admits dual late p line := by
  have hzone : (Line.classify line).zone? = none := by
    cases hkind : Line.classify line <;> simp_all [Line.literal?, Line.zone?]
  exact {
    fresh := fun h => by simp [hfresh] at h
    template := fun t ht => by simp [ht, Line.literal?] at hline
    request := fun z hz => by simp [hzone] at hz
    outside := fun z hz => by simp [hzone] at hz
    item := fun l hl => by
      rw [hline, Option.some.injEq] at hl
      subst hl
      exact hitem
    choice := fun l hl => by
      rw [hline, Option.some.injEq] at hl
      subst hl
      exact hchoice }

theorem arranged_nil : Arranged dual late [] := by
  intro front line back h
  simp at h

theorem Arranged.of_append {front back : List Text} (h : Arranged dual late (front ++ back)) :
    Arranged dual late front := by
  rintro head line tail rfl
  exact h head line (tail ++ back) (by simp)

theorem Arranged.concat {lines : List Text} (h : Arranged dual late lines)
    (hline : Admits dual late (placeBehind lines) line) : Arranged dual late (lines ++ [line]) := by
  intro front l back hsplit
  rcases List.eq_nil_or_concat back with rfl | ⟨back, last, rfl⟩
  · obtain ⟨rfl, heq⟩ := List.append_inj' hsplit rfl
    cases heq
    exact hline
  · refine h front l back ?_
    rw [List.concat_eq_append, ← List.cons_append, ← List.append_assoc] at hsplit
    exact (List.append_inj' hsplit rfl).1

end Admits

/-! ## The walk -/

/-- Lines that were written last first are arranged and end at a place. -/
structure Reaches (dual : Bool) (late : Text → Bool) (written : List Text) (p : ZonePlace) :
    Prop where
  arranged : Arranged dual late written.reverse
  place : placeBehind written.reverse = p

section Reaches

variable {dual : Bool} {late : Text → Bool} {written : List Text} {p q : ZonePlace} {line : Text}

theorem Reaches.cons (h : Reaches dual late written p) (hline : Admits dual late p line)
    (hplace : p.observe (Line.classify line) = q) : Reaches dual late (line :: written) q where
  arranged := by
    rw [List.reverse_cons]
    refine h.arranged.concat ?_
    rwa [h.place]
  place := by rw [List.reverse_cons, placeBehind_concat, h.place, hplace]

theorem Reaches.exits (h : Reaches dual late written p) (hfresh : p.isFresh = false) :
    Reaches dual late
      (List.replicate (p.plainDepth + if p.inContainer then 1 else 0) exitBoxLine ++ written)
      { p with plainDepth := 0, inContainer := false } := by
  obtain ⟨opened, zone, depth, inContainer⟩ := p
  have hexit (q : ZonePlace) (hq : q.isFresh = false) : Admits dual late q exitBoxLine :=
    admits_exitBoxLine hq
  -- The plain containers are closed first, and that of the zone last.
  have hplain : Reaches dual late (List.replicate depth exitBoxLine ++ written)
      ⟨opened, zone, 0, inContainer⟩ := by
    induction depth generalizing written with
    | zero => exact h
    | succ depth ih =>
      rw [List.replicate_succ', List.append_assoc]
      refine ih (h.cons (hexit _ hfresh) ?_) hfresh
      rw [classify_exitBoxLine]
      simp [ZonePlace.observe]
  cases inContainer with
  | false => exact hplain
  | true =>
    refine hplain.cons (hexit _ hfresh) ?_
    rw [classify_exitBoxLine]
    simp [ZonePlace.observe]

end Reaches

namespace ZoneWalk

variable {dual : Bool} {late : Text → Bool} {w : ZoneWalk} {line : Text}

/-- The place behind the lines that were written, as the walk knows it. -/
def place (w : ZoneWalk) : ZonePlace :=
  { opened := w.template.isSome
    zone := w.current
    plainDepth := w.plainDepth
    inContainer := w.inContainer }

/-- The zones used up are those up to the current one. -/
def UsesUpToCurrent (w : ZoneWalk) : Prop :=
  w.template.isSome = true → ∃ c, w.current = some c ∧ ∀ z, z ∈ w.consumed ↔ z.rank ≤ c.rank

theorem UsesUpToCurrent.isFresh_place (h : w.UsesUpToCurrent) : w.place.isFresh = false := by
  cases ht : w.template with
  | none => simp [ZonePlace.isFresh, place, ht]
  | some t =>
    obtain ⟨c, hcurrent, _⟩ := h (by rw [ht]; rfl)
    simp [ZonePlace.isFresh, place, hcurrent]

/-- The invariant of the walk: its lines are arranged, and it is at the place that they lead to. -/
structure Keeps (dual : Bool) (late : Text → Bool) (w : ZoneWalk) : Prop where
  reaches : Reaches dual late w.written w.place
  usesUp : w.UsesUpToCurrent

/-- A line that changes nothing but the containers. -/
theorem Keeps.write_plain (h : w.Keeps dual late) (line : Text)
    (hline : (Line.classify line).isPlaced = false) {v : ZoneWalk}
    (hwritten : v.written = line :: w.written) (htemplate : v.template = w.template)
    (hcurrent : v.current = w.current) (hconsumed : v.consumed = w.consumed)
    (hplace : w.place.observe (Line.classify line) = v.place) : v.Keeps dual late where
  reaches := hwritten ▸ h.reaches.cons (admits_of_not_isPlaced h.usesUp.isFresh_place hline) hplace
  usesUp := by
    unfold UsesUpToCurrent
    rw [htemplate, hcurrent, hconsumed]
    exact h.usesUp

theorem Keeps.closeContainers (h : w.Keeps dual late) : w.closeContainers.Keeps dual late where
  reaches := h.reaches.exits h.usesUp.isFresh_place
  usesUp := h.usesUp

/-! ### Moving forward -/

/-- Entering the next zone where every container is closed. -/
theorem reaches_enter {z : Zone} (h : Reaches dual late w.written w.place)
    (ht : w.template.isSome = true) (hnext : z.rank = w.place.entered)
    (hclosed : w.place.IsClosed) :
    Reaches dual late (w.enter z).written (w.enter z).place := by
  refine h.cons (admits_focusLine ht hnext hclosed) ?_
  obtain ⟨hdepth, hcontainer⟩ := hclosed
  rw [classify_focusLine]
  simp [ZonePlace.observe, place, enter, ht, show w.inContainer = false from hcontainer]

theorem Keeps.advanceTo (h : w.Keeps dual late) (ht : w.template.isSome = true) {z : Zone}
    (hz : w.isAheadOf z = true) : (w.advanceTo z).Keeps dual late := by
  obtain ⟨c, hcurrent, hconsumed⟩ := h.usesUp ht
  have hc : c.rank < z.rank := by simpa [isAheadOf, hcurrent] using hz
  have hclosed := h.closeContainers.reaches
  have hplace : w.closeContainers.place = ⟨true, some c, 0, false⟩ := by
    simp [place, ZoneWalk.closeContainers, ht, hcurrent]
  refine ⟨?_, fun _ => ⟨z, rfl, fun y => mem_consumed_advanceTo_iff ht hconsumed hc⟩⟩
  rcases advanceTo_cases ht hconsumed hc with ⟨hnext, heq⟩ | ⟨rfl, rfl, heq⟩
  · rw [heq]
    have hentered : z.rank = w.closeContainers.place.entered := by rw [hplace]; exact hnext
    exact reaches_enter hclosed ht hentered (by rw [hplace]; exact ⟨rfl, rfl⟩)
  · rw [heq]
    -- The inside zone is entered and left at once.
    have hskipped : Reaches dual late (w.closeContainers.skip .inside).written
        ⟨true, some .inside, 0, false⟩ := by
      rw [hplace] at hclosed
      refine (hclosed.cons (admits_focusLine (z := .inside) rfl rfl ⟨rfl, rfl⟩)
        (q := ⟨true, some .inside, 0, true⟩) ?_).cons (admits_exitBoxLine rfl) ?_
      · rw [classify_focusLine]
        rfl
      · rw [classify_exitBoxLine]
        rfl
    refine hskipped.cons (admits_focusLine rfl rfl ⟨rfl, rfl⟩) ?_
    rw [classify_focusLine]
    have hrest : ((w.closeContainers.skip .inside).enter .after).place =
        ⟨w.template.isSome, some .after, 0, false⟩ := rfl
    rw [hrest, ht]
    rfl

/-! ### The lines -/

@[simp] theorem place_countRequest (w : ZoneWalk) (z : Zone) :
    (w.countRequest z).place = w.place := by
  unfold countRequest
  split <;> rfl

theorem Keeps.countRequest (h : w.Keeps dual late) (z : Zone) :
    (w.countRequest z).Keeps dual late where
  reaches := by
    rw [written_countRequest, place_countRequest]
    exact h.reaches
  usesUp := by
    unfold UsesUpToCurrent
    rw [template_countRequest, current_countRequest, consumed_countRequest]
    exact h.usesUp

theorem Keeps.focus (h : w.Keeps dual late) {z : Zone}
    (hline : Line.classify line = .focus (.zone z)) : (w.focus dual z line).Keeps dual late := by
  cases ht : w.template.isSome with
  | false =>
    rw [focus_eq_of_isSome_eq_false ht]
    split
    · next hz =>
      subst hz
      refine ⟨h.reaches.cons (admits_inside (by rw [hline]; rfl) ht) ?_, h.usesUp⟩
      rw [hline]
      simp [ZonePlace.observe, place, write, ht]
    · exact h
  | true =>
    have hcounted := h.countRequest z
    rw [focus_eq ht]
    split
    · split
      · exact hcounted.closeContainers
      · exact hcounted
    · next hnew =>
      split
      · refine hcounted.write_plain openBoxLine ?_ rfl rfl rfl rfl ?_ <;>
          rw [classify_openBoxLine]
        · rfl
        · rfl
      · refine hcounted.advanceTo (by rwa [template_countRequest]) ?_
        obtain ⟨c, hcurrent, hconsumed⟩ := h.usesUp ht
        simpa [isAheadOf, hcurrent, hconsumed] using hnew

/-- Writing a literal where it belongs. -/
theorem Keeps.write_literal (h : w.Keeps dual late) {literal : Text}
    (hline : (Line.classify line).literal? = some literal)
    (hitem : isListItem literal = true → w.template.isSome = true → w.plainDepth = 0 →
      w.current ≠ some .before)
    (hchoice : late literal = true → w.template.isSome = true → w.plainDepth = 0 →
      w.current = some .after) : (w.write line).Keeps dual late := by
  refine ⟨h.reaches.cons (admits_literal hline h.usesUp.isFresh_place hitem hchoice) ?_, h.usesUp⟩
  cases hkind : Line.classify line <;> first | rfl | simp [hkind, Line.literal?] at hline

/-- A justify line may be taken back. -/
theorem Keeps.takeBack (h : w.Keeps dual late) {last : Text} {earlier : List Text}
    (hwritten : w.written = last :: earlier) (hlast : Line.classify last = .alignJustify) :
    { w with written := earlier }.Keeps dual late := by
  have hreaches := h.reaches
  rw [hwritten] at hreaches
  have hreversed : (last :: earlier).reverse = earlier.reverse ++ [last] := List.reverse_cons
  refine ⟨⟨?_, ?_⟩, h.usesUp⟩
  · have harranged := hreaches.arranged
    rw [hreversed] at harranged
    exact harranged.of_append
  · have hplace := hreaches.place
    rw [hreversed, placeBehind_concat, hlast] at hplace
    exact hplace

/-- Inside is the place of a list item, unless it is late. -/
theorem Keeps.write_item (h : w.Keeps dual late) {literal : Text}
    (hline : (Line.classify line).literal? = some literal) (hlate : late literal = false)
    (hcurrent : w.current = some .inside) : (w.write line).Keeps dual late :=
  h.write_literal hline (fun _ _ _ => by rw [hcurrent]; decide) fun hl => by
    rw [hlate] at hl
    cases hl

/-- Where the walk does not move forward for a literal, it stands where the literal belongs. -/
theorem Keeps.write_of_not_mayMoveTo (h : w.Keeps dual late) {literal : Text}
    (hline : (Line.classify line).literal? = some literal)
    (hlate : late literal = true → isChoice literal = true)
    (hinside : ¬(isListItem literal = true ∧ w.MayMoveTo .inside))
    (hafter : ¬(isChoice literal = true ∧ w.MayMoveTo .after)) :
    (w.write line).Keeps dual late := by
  refine h.write_literal hline (fun hitem ht hdepth hcurrent => ?_) fun hl ht hdepth => ?_
  · exact hinside ⟨hitem, ht, hdepth, by simp [isAheadOf, hcurrent, Zone.rank]⟩
  · obtain ⟨c, hcurrent, _⟩ := h.usesUp ht
    have hahead : w.isAheadOf .after = false :=
      Bool.eq_false_iff.2 fun hahead => hafter ⟨hlate hl, ht, hdepth, hahead⟩
    rw [isAheadOf, hcurrent] at hahead
    rw [hcurrent]
    cases c <;> simp_all [Zone.rank]

theorem Keeps.content (h : w.Keeps dual late) {literal : Text}
    (hline : (Line.classify line).literal? = some literal)
    (hlate : late literal = true → isChoice literal = true)
    (hboth : late literal = true → isListItem literal = true → w.template.isSome = true →
      w.plainDepth = 0 → w.isAheadOf .inside = false) :
    (w.content literal line).Keeps dual late := by
  have hearly (hitem : isListItem literal = true) (hmay : w.MayMoveTo .inside) :
      late literal = false := Bool.eq_false_iff.2 fun hl => by
    have hbehind := hboth hl hitem hmay.template hmay.plainDepth
    rw [hmay.ahead] at hbehind
    cases hbehind
  rcases w.content_cases literal line with ⟨hinside, hafter, heq⟩ | ⟨_, _, hmay, heq⟩ |
    ⟨hitem, hmay, heq⟩ | ⟨hitem, hmay, last, earlier, hwritten, hlast, heq⟩
  · rw [heq]
    exact h.write_of_not_mayMoveTo hline hlate hinside hafter
  · have hcurrent : (w.advanceTo .after).current = some .after := rfl
    rw [heq]
    exact (h.advanceTo hmay.template hmay.ahead).write_literal hline
      (fun _ _ _ => by rw [hcurrent]; decide) fun _ _ _ => hcurrent
  · rw [heq]
    exact (h.advanceTo hmay.template hmay.ahead).write_item hline (hearly hitem hmay) rfl
  · have hback := (h.takeBack hwritten hlast).advanceTo hmay.template (z := .inside) hmay.ahead
    rw [heq]
    refine Keeps.write_item ?_ hline (hearly hitem hmay) rfl
    refine hback.write_plain last ?_ rfl rfl rfl rfl ?_ <;> rw [hlast]
    · rfl
    · rfl

theorem Keeps.start (h : w.Keeps dual late) {t : Option Template}
    (hline : Line.classify line = .template t) (ahead : List Text) :
    (w.start dual t line ahead).Keeps dual late := by
  unfold ZoneWalk.start
  split
  · exact h
  · next hkept =>
    have hclosed := h.closeContainers
    have hstarted : Reaches dual late (line :: w.closeContainers.written)
        ⟨t.isSome, none, 0, false⟩ := by
      refine hclosed.reaches.cons
        (admits_template hline hclosed.usesUp.isFresh_place (by simpa using hkept) ⟨rfl, rfl⟩) ?_
      rw [hline]
      rfl
    simp only
    split
    · next ht =>
      refine ⟨hstarted.cons (admits_focusLine ht rfl ⟨rfl, rfl⟩) ?_,
        fun _ => ⟨.before, rfl, fun z => ?_⟩⟩
      · rw [classify_focusLine, ht]
        show _ = ZonePlace.mk t.isSome _ _ _
        rw [ht]
        rfl
      · show z ∈ [Zone.before] ↔ _
        cases z <;> decide
    · next ht => exact ⟨hstarted, fun hsome => absurd hsome ht⟩

/-- One line. -/
theorem Keeps.step (h : w.Keeps dual late)
    (hlate : ∀ literal, late literal = true → isChoice literal = true)
    (hboth : ∀ literal, (Line.classify line).literal? = some literal → late literal = true →
      isListItem literal = true → w.template.isSome = true → w.plainDepth = 0 →
        w.isAheadOf .inside = false) (ahead : List Text) :
    (w.step dual line ahead).Keeps dual late := by
  cases hkind : Line.classify line with
  | template t =>
    simp only [ZoneWalk.step, hkind]
    exact h.start hkind ahead
  | focus q =>
    cases q with
    | zone z =>
      simp only [ZoneWalk.step, hkind]
      exact h.focus hkind
    | custom s =>
      simp only [ZoneWalk.step, hkind]
      refine h.write_plain line ?_ rfl rfl rfl rfl ?_ <;> rw [hkind] <;> rfl
  | text literal =>
    simp only [ZoneWalk.step, hkind]
    exact h.content (by rw [hkind]; rfl) (hlate literal) (hboth literal (by rw [hkind]; rfl))
  | equation literal =>
    simp only [ZoneWalk.step, hkind]
    exact h.content (by rw [hkind]; rfl) (hlate literal) (hboth literal (by rw [hkind]; rfl))
  | exit =>
    have hline : (Line.classify line).isPlaced = false := by rw [hkind]; rfl
    simp only [ZoneWalk.step, hkind]
    split
    · next hdepth =>
      refine h.write_plain line hline rfl rfl rfl rfl ?_
      simp [hkind, ZonePlace.observe, place, write, hdepth]
    · next hdepth =>
      refine h.write_plain line hline rfl rfl rfl rfl ?_
      simp [hkind, ZonePlace.observe, place, write, hdepth]
  | _ =>
    simp only [ZoneWalk.step, hkind]
    refine h.write_plain line ?_ rfl rfl rfl rfl ?_ <;> rw [hkind] <;> rfl

theorem Keeps.walk {lines : List Text} (h : w.Keeps dual late)
    (hlate : ∀ literal, late literal = true → isChoice literal = true)
    (hboth : ∀ line ∈ lines, ∀ literal, (Line.classify line).literal? = some literal →
      late literal = true → isListItem literal = false) :
    (ZoneWalk.walk dual w lines).Keeps dual late := by
  induction lines generalizing w with
  | nil => exact h
  | cons line ahead ih =>
    refine ih (h.step hlate (fun literal hline hl hitem => ?_) ahead) fun l hl =>
      hboth l (List.mem_cons_of_mem _ hl)
    rw [hboth line List.mem_cons_self literal hline hl] at hitem
    cases hitem

theorem keeps_start : Keeps dual late {} := ⟨⟨arranged_nil, rfl⟩, fun h => by cases h⟩

end ZoneWalk

/-- The walk arranges a script, as long as no late literal is a list item. -/
theorem arranged_orderPlaceholders {late : Text → Bool} {lines : List Text}
    (hlate : ∀ literal, late literal = true → isChoice literal = true)
    (hboth : ∀ line ∈ lines, ∀ literal, (Line.classify line).literal? = some literal →
      late literal = true → isListItem literal = false) :
    Arranged (isDual lines) late (orderPlaceholders lines) :=
  (ZoneWalk.keeps_start.walk hlate hboth).reaches.arranged

/-- Without late literals the walk arranges every script, and it does not end in front of a before
    zone. -/
theorem arranged_orderPlaceholders_early (lines : List Text) :
    Arranged (isDual lines) (fun _ => false) (orderPlaceholders lines) ∧
      (placeBehind (orderPlaceholders lines)).isFresh = false := by
  have h : (ZoneWalk.walk (isDual lines) {} lines).Keeps (isDual lines) fun _ => false :=
    ZoneWalk.keeps_start.walk (fun _ h => by cases h) fun _ _ _ _ h => by cases h
  refine ⟨h.reaches.arranged, ?_⟩
  rw [orderPlaceholders, h.reaches.place]
  exact h.usesUp.isFresh_place

end Scribe.Repair
