import Scribe.Repair.Zones

set_option autoImplicit false

/-! # What one line does to the walk over the zones

The walk moves forward to a zone for a request or for what is inserted. Each of its functions comes
with a statement of all that it can do and when; what the walk keeps is proved from these. -/

namespace Scribe.Repair.ZoneWalk

variable {w : ZoneWalk}

/-! ## Moving forward -/

/-- With a template, the zones are all there. -/
theorem mem_zones (t : Template) (z : Zone) : z ∈ t.zones := by
  cases t <;> cases z <;> decide

theorem rank_injective {y z : Zone} (h : y.rank = z.rank) : y = z := by
  cases y <;> cases z <;> simp_all [Zone.rank]

theorem mem_zones_of_isSome (ht : w.template.isSome = true) (z : Zone) : z ∈ w.zones := by
  obtain ⟨t, ht⟩ := Option.isSome_iff_exists.1 ht
  rw [zones, ht]
  exact mem_zones t z

/-- The zones that are passed over on the way to `z`. -/
theorem passed_eq {c : Zone} (ht : w.template.isSome = true)
    (hconsumed : ∀ z, z ∈ w.consumed ↔ z.rank ≤ c.rank) (z : Zone) :
    (w.zones.filter fun y => decide (y.rank < z.rank) && !w.consumed.contains y) =
      Zone.all.filter fun y => decide (c.rank < y.rank) && decide (y.rank < z.rank) := by
  obtain ⟨t, ht⟩ := Option.isSome_iff_exists.1 ht
  have hzones : w.zones = Zone.all := by
    rw [zones, ht]
    rfl
  rw [hzones]
  refine List.filter_congr fun y _ => ?_
  have hy : (!w.consumed.contains y) = decide (c.rank < y.rank) := by
    rw [Bool.eq_iff_iff]
    simp [hconsumed]
  rw [hy, Bool.and_comm]

/-- Moving forward leads to the next zone, or over the inside zone to the after zone. -/
theorem advanceTo_cases {c z : Zone} (ht : w.template.isSome = true)
    (hconsumed : ∀ y, y ∈ w.consumed ↔ y.rank ≤ c.rank) (hz : c.rank < z.rank) :
    (z.rank = c.rank + 1 ∧ w.advanceTo z = w.closeContainers.enter z) ∨
      (c = .before ∧ z = .after ∧
        w.advanceTo z = (w.closeContainers.skip .inside).enter .after) := by
  have hpassed := passed_eq (w := w.closeContainers) ht hconsumed z
  rw [advanceTo]
  simp only [hpassed]
  cases c <;> cases z <;> first | exact absurd hz (by decide) | skip
  · exact .inl ⟨rfl, rfl⟩
  · exact .inr ⟨rfl, rfl, rfl⟩
  · exact .inl ⟨rfl, rfl⟩

/-- Moving forward to a zone uses up the zones up to it. -/
theorem mem_consumed_advanceTo_iff {c y z : Zone} (ht : w.template.isSome = true)
    (hconsumed : ∀ y, y ∈ w.consumed ↔ y.rank ≤ c.rank) (hz : c.rank < z.rank) :
    y ∈ (w.advanceTo z).consumed ↔ y.rank ≤ z.rank := by
  rcases advanceTo_cases ht hconsumed hz with ⟨hnext, heq⟩ | ⟨rfl, rfl, heq⟩
  · rw [heq]
    show y ∈ z :: w.consumed ↔ _
    rw [List.mem_cons, hconsumed]
    constructor
    · rintro (rfl | hy) <;> omega
    · intro hy
      by_cases heq : y.rank = z.rank
      · exact .inl (rank_injective heq)
      · exact .inr (by omega)
  · rw [heq]
    show y ∈ .after :: .inside :: w.consumed ↔ _
    rw [List.mem_cons, List.mem_cons, hconsumed]
    cases y <;> decide

theorem template_skip (w : ZoneWalk) (z : Zone) : (w.skip z).template = w.template := by
  simp only [skip]
  split <;> rfl

theorem template_foldl_skip (w : ZoneWalk) (passed : List Zone) :
    (passed.foldl skip w).template = w.template := by
  induction passed generalizing w with
  | nil => rfl
  | cons y passed ih => rw [List.foldl_cons, ih, template_skip]

theorem template_advanceTo (w : ZoneWalk) (z : Zone) :
    (w.advanceTo z).template = w.template := template_foldl_skip _ _

/-! ## Requests -/

/-- The walk with a request taken off the inside requests ahead, if it is one. -/
def countRequest (w : ZoneWalk) (z : Zone) : ZoneWalk :=
  if z = .inside then { w with insideRequests := w.insideRequests - 1 } else w

@[simp] theorem written_countRequest (w : ZoneWalk) (z : Zone) :
    (w.countRequest z).written = w.written := by
  unfold countRequest
  split <;> rfl

@[simp] theorem template_countRequest (w : ZoneWalk) (z : Zone) :
    (w.countRequest z).template = w.template := by
  unfold countRequest
  split <;> rfl

@[simp] theorem current_countRequest (w : ZoneWalk) (z : Zone) :
    (w.countRequest z).current = w.current := by
  unfold countRequest
  split <;> rfl

@[simp] theorem consumed_countRequest (w : ZoneWalk) (z : Zone) :
    (w.countRequest z).consumed = w.consumed := by
  unfold countRequest
  split <;> rfl

/-- Outside of the segments of known templates only the inside zone is known. -/
theorem focus_eq_of_isSome_eq_false (ht : w.template.isSome = false) (dual : Bool) (z : Zone)
    (line : Text) :
    w.focus dual z line = if z = .inside then { w.write line with inContainer := true } else w := by
  have hnone : w.template.isNone = true := by simpa using ht
  rw [ZoneWalk.focus, if_pos hnone]

/-- What a request does in a segment of a known template. -/
theorem focus_eq (ht : w.template.isSome = true) (dual : Bool) (z : Zone) (line : Text) :
    w.focus dual z line =
      if z ∈ w.consumed then
        if w.inContainer && w.current.any fun c => z.rank < c.rank then
          (w.countRequest z).closeContainers
        else w.countRequest z
      else if dual && z == .inside && 1 ≤ (w.countRequest z).insideRequests && w.plainDepth == 0
          && w.isAheadOf .inside then
        { (w.countRequest z).write openBoxLine with
          plainDepth := (w.countRequest z).plainDepth + 1 }
      else (w.countRequest z).advanceTo z := by
  have hnone : ¬w.template.isNone = true := by simpa [Option.isSome_iff_ne_none] using ht
  have hzone : w.zones.contains z = true := List.contains_iff_mem.2 (mem_zones_of_isSome ht z)
  rw [ZoneWalk.focus, if_neg hnone]
  unfold countRequest
  by_cases hz : z = .inside
  · have hzones (n : Nat) : { w with insideRequests := n }.zones = w.zones := rfl
    have hahead (n : Nat) : { w with insideRequests := n }.isAheadOf = w.isAheadOf := rfl
    simp only [if_pos hz, hzones, hzone, hahead, List.contains_iff_mem, Bool.not_true,
      Bool.false_eq_true, if_false]
  · simp only [if_neg hz, hzone, List.contains_iff_mem, Bool.not_true, Bool.false_eq_true, if_false]

/-! ## What is inserted -/

/-- An inserted literal may move the walk forward to a zone. -/
structure MayMoveTo (w : ZoneWalk) (z : Zone) : Prop where
  template : w.template.isSome = true
  plainDepth : w.plainDepth = 0
  ahead : w.isAheadOf z = true

theorem mayMoveTo_iff {wanted : Bool} {z : Zone} :
    (w.template.isSome && w.plainDepth == 0 && wanted && w.isAheadOf z && w.zones.contains z) = true
      ↔ wanted = true ∧ w.MayMoveTo z := by
  simp only [Bool.and_eq_true, beq_iff_eq]
  constructor
  · rintro ⟨⟨⟨⟨ht, hdepth⟩, hwanted⟩, hahead⟩, _⟩
    exact ⟨hwanted, ht, hdepth, hahead⟩
  · rintro ⟨hwanted, ht, hdepth, hahead⟩
    exact ⟨⟨⟨⟨ht, hdepth⟩, hwanted⟩, hahead⟩, List.contains_iff_mem.2 (mem_zones_of_isSome ht z)⟩

/-- A literal is written where the walk is, or the walk moves forward for it: inside for a list
    item, in front of a request to justify it if there is one, and behind the frame for choices. -/
theorem content_cases (w : ZoneWalk) (literal line : Text) :
    (¬(isListItem literal = true ∧ w.MayMoveTo .inside) ∧
        ¬(isChoice literal = true ∧ w.MayMoveTo .after) ∧
        w.content literal line = w.write line) ∨
      (¬(isListItem literal = true ∧ w.MayMoveTo .inside) ∧
        isChoice literal = true ∧ w.MayMoveTo .after ∧
        w.content literal line = (w.advanceTo .after).write line) ∨
      (isListItem literal = true ∧ w.MayMoveTo .inside ∧
        w.content literal line = (w.advanceTo .inside).write line) ∨
      (isListItem literal = true ∧ w.MayMoveTo .inside ∧
        ∃ last earlier, w.written = last :: earlier ∧ Line.classify last = .alignJustify ∧
          w.content literal line =
            ((({ w with written := earlier }).advanceTo .inside).write last).write line) := by
  generalize hv : w.content literal line = v
  simp only [content] at hv
  split at hv
  · next hguard =>
    obtain ⟨hitem, hmay⟩ := mayMoveTo_iff.1 hguard
    refine .inr (.inr ?_)
    split at hv
    · next last earlier hwritten =>
      split at hv
      · next hlast => exact .inr ⟨hitem, hmay, last, earlier, hwritten, hlast, hv.symm⟩
      · exact .inl ⟨hitem, hmay, hv.symm⟩
    · exact .inl ⟨hitem, hmay, hv.symm⟩
  · next hinside =>
    have hstays : ¬(isListItem literal = true ∧ w.MayMoveTo .inside) := fun h =>
      hinside (mayMoveTo_iff.2 h)
    split at hv
    · next hguard =>
      obtain ⟨hchoice, hmay⟩ := mayMoveTo_iff.1 hguard
      exact .inr (.inl ⟨hstays, hchoice, hmay, hv.symm⟩)
    · next hafter => exact .inl ⟨hstays, fun h => hafter (mayMoveTo_iff.2 h), hv.symm⟩

/-! ## What is written -/

/-- A line that the walk writes of its own accord. -/
def IsAdded (line : Text) : Prop :=
  line = exitBoxLine ∨ line = openBoxLine ∨ ∃ z : Zone, line = z.focusLine

/-- From `old` to `new` the walk writes nothing but lines of its own. -/
def Adds (old new : List Text) : Prop := ∃ added, new = added ++ old ∧ ∀ l ∈ added, IsAdded l

theorem adds_refl (old : List Text) : Adds old old := ⟨[], rfl, nofun⟩

theorem Adds.cons {old new : List Text} (h : Adds old new) {line : Text} (hline : IsAdded line) :
    Adds old (line :: new) := by
  obtain ⟨added, rfl, hadded⟩ := h
  exact ⟨line :: added, rfl, List.forall_mem_cons.2 ⟨hline, hadded⟩⟩

theorem Adds.closeContainers {old : List Text} (h : Adds old w.written) :
    Adds old w.closeContainers.written := by
  have hexits (n : Nat) : Adds old (List.replicate n exitBoxLine ++ w.written) := by
    induction n with
    | zero => exact h
    | succ n ih => exact ih.cons (.inl rfl)
  exact hexits _

theorem Adds.skip {old : List Text} (h : Adds old w.written) (z : Zone) :
    Adds old (w.skip z).written := by
  have hrequested : Adds old (z.focusLine :: w.written) := h.cons (.inr (.inr ⟨z, rfl⟩))
  simp only [ZoneWalk.skip]
  split
  · exact hrequested.cons (.inl rfl)
  · exact hrequested

theorem Adds.advanceTo {old : List Text} (h : Adds old w.written) (z : Zone) :
    Adds old (w.advanceTo z).written := by
  simp only [ZoneWalk.advanceTo]
  refine Adds.cons ?_ (.inr (.inr ⟨z, rfl⟩))
  exact List.foldlRecOn _ ZoneWalk.skip (motive := fun w => Adds old w.written)
    h.closeContainers fun _ hv y _ => hv.skip y

/-- What becomes of the lines that were written when the walk comes to one more line; they are
    listed from the last one on. -/
inductive Extends (dual : Bool) (line : Text) (old : List Text) : List Text → Prop where
  /-- A request or a template is left out. -/
  | leftOut {new : List Text} (hadds : Adds old new)
      (hline : (∃ z, Line.classify line = .focus (.zone z)) ∨
        ∃ t, Line.classify line = .template t ∧ isDropped dual t = true) :
      Extends dual line old new
  /-- The line is written. -/
  | kept {new : List Text} (hadds : Adds old new)
      (hline : ∀ t, Line.classify line ≠ .template (some t)) :
      Extends dual line old (line :: new)
  /-- A template is written with the request for its before zone. -/
  | opened {new : List Text} {t : Template} (hadds : Adds old new)
      (hline : Line.classify line = .template (some t)) :
      Extends dual line old (Zone.before.focusLine :: line :: new)
  /-- A request to justify the line is written anew in front of it. -/
  | justified {last : Text} {earlier new : List Text} (hold : old = last :: earlier)
      (hlast : Line.classify last = .alignJustify) (hadds : Adds earlier new)
      (hline : ∀ t, Line.classify line ≠ .template (some t)) :
      Extends dual line old (line :: last :: new)

theorem extends_focus {dual : Bool} {z : Zone} {line : Text}
    (hline : Line.classify line = .focus (.zone z)) :
    Extends dual line w.written (w.focus dual z line).written := by
  have hleft {new : List Text} (hadds : Adds w.written new) : Extends dual line w.written new :=
    .leftOut hadds (.inl ⟨z, hline⟩)
  cases ht : w.template.isSome with
  | false =>
    rw [focus_eq_of_isSome_eq_false ht]
    split
    · exact .kept (adds_refl _) (by simp [hline])
    · exact hleft (adds_refl _)
  | true =>
    have hcounted : Adds w.written (w.countRequest z).written := by
      rw [written_countRequest]
      exact adds_refl _
    rw [focus_eq ht]
    split
    · split
      · exact hleft hcounted.closeContainers
      · exact hleft hcounted
    · split
      · exact hleft (hcounted.cons (.inr (.inl rfl)))
      · exact hleft (hcounted.advanceTo z)

theorem extends_content {line : Text} (hline : ∀ t, Line.classify line ≠ .template (some t))
    (dual : Bool) (literal : Text) :
    Extends dual line w.written (w.content literal line).written := by
  rcases w.content_cases literal line with ⟨_, _, heq⟩ | ⟨_, _, _, heq⟩ | ⟨_, _, heq⟩ |
    ⟨_, _, last, earlier, hwritten, hlast, heq⟩
  · rw [heq]
    exact .kept (adds_refl _) hline
  · rw [heq]
    exact .kept ((adds_refl w.written).advanceTo .after) hline
  · rw [heq]
    exact .kept ((adds_refl w.written).advanceTo .inside) hline
  · rw [heq]
    exact .justified hwritten hlast
      (Adds.advanceTo (w := { w with written := earlier }) (adds_refl earlier) .inside) hline

theorem extends_start {line : Text} {t : Option Template}
    (hline : Line.classify line = .template t) (dual : Bool) (ahead : List Text) :
    Extends dual line w.written (w.start dual t line ahead).written := by
  have hclosed : Adds w.written w.closeContainers.written := (adds_refl w.written).closeContainers
  unfold ZoneWalk.start
  split
  · next hdropped => exact .leftOut (adds_refl _) (.inr ⟨t, hline, hdropped⟩)
  · cases t with
    | none => exact .kept hclosed (by simp [hline])
    | some t => exact .opened hclosed hline

/-- Whatever the line, the walk extends what it has written. -/
theorem extends_step (w : ZoneWalk) (dual : Bool) (line : Text) (ahead : List Text) :
    Extends dual line w.written (w.step dual line ahead).written := by
  have hother {kind : Line} (hkind : Line.classify line = kind)
      (hne : ∀ t, kind ≠ .template (some t)) : ∀ t, Line.classify line ≠ .template (some t) := by
    rw [hkind]
    exact hne
  unfold ZoneWalk.step
  split
  · next hkind => exact extends_start hkind dual ahead
  · next hkind => exact extends_focus hkind
  · next hkind => exact .kept (adds_refl _) (hother hkind (by simp))
  · next hkind =>
    split
    · exact .kept (adds_refl _) (hother hkind (by simp))
    · exact .kept (adds_refl _) (hother hkind (by simp))
  · next hkind => exact extends_content (hother hkind (by simp)) dual _
  · next hkind => exact extends_content (hother hkind (by simp)) dual _
  · next htemplate _ _ _ _ _ => exact .kept (adds_refl _) fun t => htemplate (some t)

end Scribe.Repair.ZoneWalk
