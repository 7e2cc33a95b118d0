import Scribe.Proofs.Repair.ZoneStructure
import Scribe.Proofs.Repair.ZonePlaces

set_option autoImplicit false

/-! # Zones and their content in place

What the places of an arranged script mean for its segments: every known template enters its zones
one after the other, list items stand behind the inside zone and choices behind the after zone.
Outside the known templates only inside zones are left. -/

namespace Scribe.Repair

/-! ## Places within a segment -/

section Segments

variable {dual : Bool} {late : Text → Bool} {lines ahead front : List Text}

theorem placeBehind_cons_append (ahead : List Text) (line : Text) (front : List Text) :
    placeBehind (ahead ++ line :: front) = placeBehind ((ahead ++ [line]) ++ front) := by
  rw [List.append_assoc, List.singleton_append]

/-- The segments end at the next template. -/
theorem opened_placeBehind_append (ahead : List Text)
    (hfront : ∀ l ∈ front, (Line.classify l).isTemplate = false) :
    (placeBehind (ahead ++ front)).opened = (placeBehind ahead).opened := by
  induction front generalizing ahead with
  | nil => rw [List.append_nil]
  | cons line front ih =>
    have hline := hfront line List.mem_cons_self
    rw [placeBehind_cons_append, ih _ fun l hl => hfront l (List.mem_cons_of_mem _ hl),
      placeBehind_concat]
    unfold ZonePlace.observe
    split
    · next hkind => simp [hkind, Line.isTemplate] at hline
    · rfl
    · rfl
    · split <;> rfl
    · rfl

/-- Within a segment of a known template the zones are requested one after the other. -/
theorem take_entered (h : Arranged dual late (ahead ++ front))
    (hopened : (placeBehind ahead).opened = true)
    (hfront : ∀ l ∈ front, (Line.classify l).isTemplate = false) :
    Zone.all.take (placeBehind (ahead ++ front)).entered =
      Zone.all.take (placeBehind ahead).entered ++ requests front := by
  induction front generalizing ahead with
  | nil => simp [requests]
  | cons line front ih =>
    have hline := h ahead line front rfl
    have hkind := hfront line List.mem_cons_self
    have happend : ahead ++ line :: front = (ahead ++ [line]) ++ front := by simp
    have hopened' : (placeBehind (ahead ++ [line])).opened = true := by
      rw [opened_placeBehind_append ahead (by simpa using hkind), hopened]
    rw [happend, ih (happend ▸ h) hopened' fun l hl => hfront l (List.mem_cons_of_mem _ hl),
      placeBehind_concat]
    cases hzone : (Line.classify line).zone? with
    | none =>
      rw [ZonePlace.entered, ZonePlace.zone_observe hkind hzone, requests_cons_of_none hzone,
        ZonePlace.entered]
    | some z =>
      -- A request is for the zone behind those entered so far, and adds it to them.
      obtain ⟨-, hnext, -⟩ := hline.request z hzone hopened
      have hentered : ((placeBehind ahead).observe (Line.classify line)).entered = z.rank + 1 := by
        rw [Line.eq_focus hzone, ZonePlace.observe, hopened]
        rfl
      have htake : Zone.all.take (z.rank + 1) = Zone.all.take z.rank ++ [z] := by
        cases z <;> rfl
      rw [hentered, ← hnext, htake, requests_cons_of_some hzone, List.append_assoc,
        List.singleton_append]

/-- The container of the inside zone is left before the after zone is entered. -/
theorem inContainer_of_after (h : Arranged dual late (ahead ++ front))
    (hahead : (placeBehind ahead).opened = true → (placeBehind ahead).zone = some .after →
      (placeBehind ahead).inContainer = false) :
    (placeBehind (ahead ++ front)).opened = true →
      (placeBehind (ahead ++ front)).zone = some .after →
        (placeBehind (ahead ++ front)).inContainer = false := by
  induction front generalizing ahead with
  | nil => rwa [List.append_nil]
  | cons line front ih =>
    have hline := h ahead line front rfl
    have happend : ahead ++ line :: front = (ahead ++ [line]) ++ front := by simp
    rw [happend] at h ⊢
    refine ih h ?_
    rw [placeBehind_concat]
    -- Only a request begins the after zone, and the arrangement has it outside of the container.
    cases hkind : Line.classify line with
    | template t => simp [ZonePlace.observe]
    | focus q =>
      cases q with
      | custom s => exact hahead
      | zone z =>
        intro hopened hafter
        rw [ZonePlace.observe] at hopened hafter
        obtain ⟨-, -, -, hcontainer⟩ := hline.request z (by rw [hkind]; rfl) hopened
        rw [if_pos hopened, Option.some.injEq] at hafter
        rw [ZonePlace.observe, hafter, hcontainer]
        rfl
    | exit =>
      rw [ZonePlace.observe]
      split
      · exact hahead
      · exact fun _ _ => rfl
    | _ => exact hahead

/-- A segment starts with a template, unless it is the first one. -/
theorem segments_cases {earlier later : List (List Text)} {segment : List Text}
    (h : segments lines = earlier ++ segment :: later) :
    IsSegment segment ∨
      (earlier = [] ∧ ∀ l ∈ segment, (Line.classify l).isTemplate = false) := by
  obtain ⟨front, more, -, hfront, hmore, hsegments, -⟩ := exists_segments_eq lines
  rcases hsegments with heq | ⟨-, heq⟩
  · rw [h] at heq
    cases earlier with
    | nil =>
      obtain ⟨rfl, -⟩ := List.cons.inj heq
      exact .inr ⟨rfl, hfront⟩
    | cons first earlier =>
      obtain ⟨-, rfl⟩ := List.cons.inj heq
      exact .inl (hmore segment (by simp))
  · rw [h] at heq
    exact .inl (hmore segment (by simp [← heq]))

theorem exists_of_segmentTemplate? {earlier later : List (List Text)} {segment : List Text}
    {t : Template} (h : segments lines = earlier ++ segment :: later)
    (ht : segmentTemplate? segment = some t) :
    ∃ line rest, segment = line :: rest ∧ Line.classify line = .template (some t) ∧
      ∀ l ∈ rest, (Line.classify l).isTemplate = false := by
  rcases segments_cases h with ⟨line, rest, t', rfl, hline, hrest⟩ | ⟨-, hnone⟩
  · refine ⟨line, rest, rfl, ?_, hrest⟩
    have ht' : t' = some t := by simpa [segmentTemplate?, hline] using ht
    rw [hline, ht']
  · rw [segmentTemplate?_eq_none hnone] at ht
    cases ht

end Segments

/-! ## Zones in place -/

/-- Does a line stand in a segment of a known template? `front` are the lines of the segment in
    front of it, and `ahead` those in front of the segment. -/
def StandsWithin (lines ahead front : List Text) (line : Text) : Prop :=
  ∃ earlier back later t, segments lines = earlier ++ (front ++ line :: back) :: later ∧
    segmentTemplate? (front ++ line :: back) = some t ∧ ahead = earlier.flatten

/-- The zones and their content are in place. Containers are counted from the start of the script,
    and the container of a zone is open from the request for the inside zone up to its exit. -/
structure HasZonesInPlace (lines : List Text) : Prop where
  /-- A known template requests its before zone at once. -/
  starts : ∀ segment ∈ segments lines, ∀ t, segmentTemplate? segment = some t →
    ∃ line rest, segment = line :: Zone.before.focusLine :: rest
  /-- It requests each zone at most once and in order. -/
  ordered : ∀ segment ∈ segments lines, ∀ t, segmentTemplate? segment = some t →
    (requests segment).Pairwise fun y z => y.rank < z.rank
  /-- The after zone follows the inside zone, whose container is closed. -/
  exited : ∀ ahead front line, StandsWithin lines ahead front line →
    (Line.classify line).zone? = some .after →
      .inside ∈ requests front ∧ (placeBehind (ahead ++ front)).inContainer = false
  /-- List items outside plain containers stand behind the request for the inside zone. -/
  items : ∀ ahead front line, StandsWithin lines ahead front line →
    ∀ literal, (Line.classify line).literal? = some literal → isListItem literal = true →
      (placeBehind (ahead ++ front)).plainDepth = 0 → .inside ∈ requests front
  /-- Choices outside plain containers stand behind the request for the after zone, unless they are
      list items. -/
  choices : ∀ ahead front line, StandsWithin lines ahead front line →
    ∀ literal, (Line.classify line).literal? = some literal → isChoice literal = true →
      isListItem literal = false → (placeBehind (ahead ++ front)).plainDepth = 0 →
        .after ∈ requests front ∧ (placeBehind (ahead ++ front)).inContainer = false
  /-- Without a known template only inside zones are requested. -/
  outside : ∀ segment ∈ segments lines, segmentTemplate? segment = none →
    ∀ z ∈ requests segment, z = .inside

section InPlace

variable {dual : Bool} {late : Text → Bool} {lines ahead front : List Text} {line : Text}

theorem eq_flatten_append {earlier later : List (List Text)} {segment : List Text}
    (h : segments lines = earlier ++ segment :: later) :
    lines = earlier.flatten ++ (segment ++ later.flatten) := by
  rw [← segments_flatten lines, h, List.flatten_append, List.flatten_cons]

/-- What is known of a place in a segment of a known template, behind the first lines of it. -/
structure IsWithin (p : ZonePlace) (front : List Text) : Prop where
  opened : p.opened = true
  requests : Zone.all.take p.entered = requests front
  left : p.zone = some .after → p.inContainer = false

theorem isWithin_placeBehind {t : Template} (hline : Line.classify line = .template (some t))
    (hfront : ∀ l ∈ front, (Line.classify l).isTemplate = false)
    (h : Arranged dual late (ahead ++ line :: front)) :
    IsWithin (placeBehind (ahead ++ line :: front)) (line :: front) := by
  have hstart : placeBehind (ahead ++ [line]) =
      { placeBehind ahead with opened := true, zone := none } := by
    rw [placeBehind_concat, hline]
    rfl
  have hopened : (placeBehind (ahead ++ [line])).opened = true := by rw [hstart]
  have happend : ahead ++ line :: front = (ahead ++ [line]) ++ front := by simp
  rw [happend] at h ⊢
  have hopened' := (opened_placeBehind_append (ahead ++ [line]) hfront).trans hopened
  refine ⟨hopened', ?_, ?_⟩
  · rw [take_entered h hopened hfront, requests_cons_of_none (by rw [hline]; rfl), hstart]
    rfl
  · refine inContainer_of_after h (fun _ hafter => ?_) hopened'
    rw [hstart] at hafter
    cases hafter

theorem StandsWithin.isWithin (h : StandsWithin lines ahead front line)
    (harranged : Arranged dual late lines) (hline : (Line.classify line).isTemplate = false) :
    IsWithin (placeBehind (ahead ++ front)) front ∧
      Admits dual late (placeBehind (ahead ++ front)) line := by
  obtain ⟨earlier, back, later, t, hsplit, ht, rfl⟩ := h
  have hlines : lines = (earlier.flatten ++ front) ++ (line :: back ++ later.flatten) := by
    rw [eq_flatten_append hsplit]
    simp
  obtain ⟨first, rest, heq, hfirst, hrest⟩ := exists_of_segmentTemplate? hsplit ht
  rw [hlines] at harranged
  refine ⟨?_, harranged _ line (back ++ later.flatten) rfl⟩
  cases front with
  | nil =>
    obtain ⟨rfl, -⟩ := List.cons.inj heq
    rw [hfirst] at hline
    cases hline
  | cons l front =>
    obtain ⟨rfl, rfl⟩ := List.cons.inj heq
    exact isWithin_placeBehind hfirst (fun l hl => hrest l (List.mem_append_left _ hl))
      harranged.of_append

/-- A literal in a segment of a known template stands behind the request for its before zone. -/
theorem StandsWithin.exists_zone (h : StandsWithin lines ahead front line)
    (harranged : Arranged dual late lines) (hline : (Line.classify line).isTemplate = false)
    (hzone : (Line.classify line).zone? = none) :
    ∃ z, (placeBehind (ahead ++ front)).zone = some z := by
  obtain ⟨hwithin, hadmits⟩ := h.isWithin harranged hline
  rw [← Option.isSome_iff_exists, Option.isSome_iff_ne_none]
  intro hnone
  have hfresh : line = Zone.before.focusLine :=
    hadmits.fresh (by simp [ZonePlace.isFresh, hwithin.opened, hnone])
  rw [hfresh, zone?_focusLine] at hzone
  cases hzone

theorem IsWithin.mem_requests {p : ZonePlace} (h : IsWithin p front) {c z : Zone}
    (hzone : p.zone = some c) (hz : z.rank ≤ c.rank) : z ∈ Repair.requests front := by
  rw [← h.requests, ZonePlace.entered, hzone]
  cases c <;> cases z <;> first | exact absurd hz (by decide) | decide

theorem exists_eq_before_cons (harranged : Arranged dual late lines)
    (hfresh : (placeBehind lines).isFresh = false) {segment : List Text}
    (hsegment : segment ∈ segments lines) {t : Template} (ht : segmentTemplate? segment = some t) :
    ∃ line rest, segment = line :: Zone.before.focusLine :: rest := by
  obtain ⟨earlier, later, hsplit⟩ := List.append_of_mem hsegment
  obtain ⟨line, rest, rfl, hline, -⟩ := exists_of_segmentTemplate? hsplit ht
  have hlines := eq_flatten_append hsplit
  have hplace : (placeBehind (earlier.flatten ++ [line])).isFresh = true := by
    rw [placeBehind_concat, hline]
    rfl
  -- The before zone is requested on the next line, which is neither the end nor a template.
  cases htail : rest ++ later.flatten with
  | nil =>
    rw [List.cons_append, htail] at hlines
    rw [hlines, hplace] at hfresh
    cases hfresh
  | cons next tail =>
    have hnext : next = Zone.before.focusLine := by
      refine (harranged (earlier.flatten ++ [line]) next tail ?_).fresh hplace
      rw [hlines, List.cons_append, htail, List.append_assoc, List.singleton_append]
    cases rest with
    | cons l rest =>
      obtain ⟨rfl, -⟩ := List.cons.inj htail
      exact ⟨line, rest, by rw [hnext]⟩
    | nil =>
      cases later with
      | nil => cases htail
      | cons segment later =>
        have hsplit' : segments lines = (earlier ++ [[line]]) ++ segment :: later := by
          rw [hsplit, List.append_assoc, List.singleton_append]
        rcases segments_cases hsplit' with ⟨first, more, t', rfl, hfirst, -⟩ | ⟨hnil, -⟩
        · obtain ⟨rfl, -⟩ := List.cons.inj htail
          rw [hnext, classify_focusLine] at hfirst
          cases hfirst
        · simp at hnil

theorem pairwise_requests (harranged : Arranged dual late lines) {segment : List Text}
    (hsegment : segment ∈ segments lines) {t : Template} (ht : segmentTemplate? segment = some t) :
    (requests segment).Pairwise fun y z => y.rank < z.rank := by
  obtain ⟨earlier, later, hsplit⟩ := List.append_of_mem hsegment
  obtain ⟨line, rest, rfl, hline, hrest⟩ := exists_of_segmentTemplate? hsplit ht
  rw [eq_flatten_append hsplit, ← List.append_assoc] at harranged
  have hall : Zone.all.Pairwise fun y z => y.rank < z.rank := by decide
  rw [← (isWithin_placeBehind hline hrest harranged.of_append).requests]
  exact hall.sublist (List.take_sublist _ _)

theorem eq_inside_of_mem_requests (harranged : Arranged dual late lines) {segment : List Text}
    (hsegment : segment ∈ segments lines) (ht : segmentTemplate? segment = none) :
    ∀ z ∈ requests segment, z = .inside := by
  intro z hz
  obtain ⟨l, hl, hzone⟩ := List.mem_filterMap.1 hz
  obtain ⟨earlier, later, hsplit⟩ := List.append_of_mem hsegment
  obtain ⟨front, back, rfl⟩ := List.append_of_mem hl
  refine (harranged (earlier.flatten ++ front) l (back ++ later.flatten)
    (by rw [eq_flatten_append hsplit]; simp)).outside z hzone ?_
  rcases segments_cases hsplit with ⟨line, rest, t, heq, hline, hrest⟩ | ⟨rfl, hnone⟩
  · have hunknown : t.isSome = false := by
      rw [heq] at ht
      cases t with
      | none => rfl
      | some t => simp [segmentTemplate?, hline] at ht
    cases front with
    | nil =>
      obtain ⟨rfl, -⟩ := List.cons.inj heq
      rw [hline] at hzone
      cases hzone
    | cons first front =>
      obtain ⟨rfl, rfl⟩ := List.cons.inj heq
      rw [placeBehind_cons_append, opened_placeBehind_append _ fun l hl =>
        hrest l (List.mem_append_left _ hl), placeBehind_concat, hline]
      exact hunknown
  · rw [opened_placeBehind_append _ fun l hl => hnone l (List.mem_append_left _ hl)]
    rfl

end InPlace

/-- Does a literal hold choices, and is it no list item? -/
def isPlainChoice (literal : Text) : Bool := isChoice literal && !isListItem literal

/-- The walk puts the zones and their content in place. -/
theorem hasZonesInPlace_orderPlaceholders (lines : List Text) :
    HasZonesInPlace (orderPlaceholders lines) := by
  have harranged : Arranged (isDual lines) isPlainChoice (orderPlaceholders lines) :=
    arranged_orderPlaceholders (fun _ h => (Bool.and_eq_true_iff.1 h).1)
      fun _ _ _ _ h => by simpa using (Bool.and_eq_true_iff.1 h).2
  have hliteral {kind : Line} {literal : Text} (h : kind.literal? = some literal) :
      kind.isTemplate = false ∧ kind.zone? = none := by
    cases kind <;> simp_all [Line.literal?, Line.isTemplate, Line.zone?]
  exact {
    starts := fun segment hsegment t ht => exists_eq_before_cons harranged
      (arranged_orderPlaceholders_early lines).2 hsegment ht
    ordered := fun segment hsegment t ht => pairwise_requests harranged hsegment ht
    exited := fun ahead front line hline hafter => by
      obtain ⟨hwithin, hadmits⟩ := hline.isWithin harranged (by
        rw [Line.eq_focus hafter]
        rfl)
      obtain ⟨-, hnext, -, hcontainer⟩ := hadmits.request _ hafter hwithin.opened
      refine ⟨?_, hcontainer⟩
      rw [← hwithin.requests, ← hnext]
      decide
    items := fun ahead front line hline literal hl hitem hdepth => by
      obtain ⟨htemplate, hzone⟩ := hliteral hl
      obtain ⟨hwithin, hadmits⟩ := hline.isWithin harranged htemplate
      obtain ⟨z, hz⟩ := hline.exists_zone harranged htemplate hzone
      refine hwithin.mem_requests hz ?_
      have hbefore := hadmits.item literal hl hitem hwithin.opened hdepth
      rw [hz] at hbefore
      cases z <;> simp_all [Zone.rank]
    choices := fun ahead front line hline literal hl hchoice hitem hdepth => by
      obtain ⟨hwithin, hadmits⟩ := hline.isWithin harranged (hliteral hl).1
      have hafter := hadmits.choice literal hl (by simp [isPlainChoice, hchoice, hitem])
        hwithin.opened hdepth
      exact ⟨hwithin.mem_requests hafter (Nat.le_refl _), hwithin.left hafter⟩
    outside := fun segment hsegment ht => eq_inside_of_mem_requests harranged hsegment ht }

end Scribe.Repair
