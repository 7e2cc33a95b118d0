import Scribe.Proofs.Repair.ZoneOrder

set_option autoImplicit false

/-! # Settling the after zones keeps the order

A script is settled segment by segment, and a segment is a template with the lines behind it. What
is left out of a segment does not disturb the order, and the after zone is entered where no other
zone of the segment follows. -/

namespace Scribe.Repair

/-! ## Segments -/

/-- A template line and the lines up to the next one. -/
def IsSegment (segment : List Text) : Prop :=
  ∃ line rest t, segment = line :: rest ∧ Line.classify line = .template t ∧
    ∀ l ∈ rest, (Line.classify l).isTemplate = false

theorem exists_of_isTemplate {line : Text} (h : (Line.classify line).isTemplate = true) :
    ∃ t, Line.classify line = .template t := by
  unfold Line.isTemplate at h
  split at h
  · next t ht => exact ⟨t, ht⟩
  · simp at h

theorem isTemplate_of_mem_cutAtTemplates_fst {lines : List Text} :
    ∀ l ∈ (cutAtTemplates lines).1, (Line.classify l).isTemplate = false := by
  induction lines with
  | nil => exact fun l hl => absurd hl List.not_mem_nil
  | cons line lines ih =>
    simp only [cutAtTemplates]
    split
    · exact fun l hl => absurd hl List.not_mem_nil
    · next h =>
      intro l hl
      rcases List.mem_cons.1 hl with rfl | hl
      · simpa using h
      · exact ih l hl

theorem isSegment_of_mem_cutAtTemplates_snd {lines : List Text} :
    ∀ segment ∈ (cutAtTemplates lines).2, IsSegment segment := by
  induction lines with
  | nil => exact fun s hs => absurd hs List.not_mem_nil
  | cons line lines ih =>
    simp only [cutAtTemplates]
    split
    · next h =>
      intro segment hsegment
      rcases List.mem_cons.1 hsegment with rfl | hsegment
      · obtain ⟨t, ht⟩ := exists_of_isTemplate h
        exact ⟨line, _, t, rfl, ht, isTemplate_of_mem_cutAtTemplates_fst⟩
      · exact ih segment hsegment
    · exact ih

/-- The segments of a script: each starts with a template and goes on without one, but for the lines
    in front of the first template. These make a segment of their own, unless there are none. -/
theorem exists_segments_eq (lines : List Text) :
    ∃ front more, lines = front ++ more.flatten ∧
      (∀ l ∈ front, (Line.classify l).isTemplate = false) ∧ (∀ s ∈ more, IsSegment s) ∧
      (segments lines = front :: more ∨ (front = [] ∧ segments lines = more)) ∧
      placeAfterZone lines = placeInSegment front ++ more.flatMap placeInSegment := by
  refine ⟨(cutAtTemplates lines).1, (cutAtTemplates lines).2, (cutAtTemplates_flatten lines).symm,
    isTemplate_of_mem_cutAtTemplates_fst, isSegment_of_mem_cutAtTemplates_snd, ?_⟩
  unfold placeAfterZone segments
  generalize cutAtTemplates lines = cut
  obtain ⟨front, more⟩ := cut
  split
  · next first rest heq =>
    cases heq
    exact ⟨Or.inr ⟨rfl, rfl⟩, rfl⟩
  · next heq =>
    cases heq
    exact ⟨Or.inl rfl, List.flatMap_cons⟩

theorem zoneEvents_cons_template {line : Text} {t : Option Template}
    (h : Line.classify line = .template t) (rest : List Text) :
    zoneEvents (line :: rest) = .template t :: zoneEvents rest := by
  rw [zoneEvents_cons, zoneEvent?, h]
  rfl

theorem isLed_append {a b : List ZoneEvent} (ha : IsLed a) (hb : IsLed b) : IsLed (a ++ b) := by
  cases a with
  | nil => exact hb
  | cons e a => exact fun x hx => ha x hx

/-- Segments may be looked at one by one. -/
theorem inOrder_flatten {segments : List (List Text)} (h : ∀ s ∈ segments, IsLed (zoneEvents s)) :
    IsLed (zoneEvents segments.flatten) ∧
      (inOrder (zoneEvents segments.flatten) ↔ ∀ s ∈ segments, inOrder (zoneEvents s)) := by
  induction segments with
  | nil => exact ⟨fun e he => by simp at he, by simp [inOrder]⟩
  | cons segment segments ih =>
    obtain ⟨hled, horder⟩ := ih fun s hs => h s (List.mem_cons_of_mem _ hs)
    rw [List.flatten_cons, zoneEvents_append]
    refine ⟨isLed_append (h segment List.mem_cons_self) hled, ?_⟩
    rw [inOrder_append hled, horder, List.forall_mem_cons]

/-! ## One segment -/

/-- The lines other than requests for the after zone. -/
def withoutAfter (lines : List Text) : List Text := lines.filter fun line => !requestsAfter line

theorem after_not_mem_requests_withoutAfter (lines : List Text) :
    Zone.after ∉ requests (withoutAfter lines) := by
  intro h
  obtain ⟨l, hl, hzone⟩ := List.mem_filterMap.1 h
  have hkept := (List.mem_filter.1 hl).2
  simp [requestsAfter, hzone] at hkept

/-- The lines behind the last choice, as they are found from the end. -/
theorem behindChoices_eq (front : List Text) {choice : Text} {behind : List Text}
    (hchoice : insertsChoice choice = true) (hbehind : ∀ l ∈ behind, insertsChoice l = false) :
    ((front ++ choice :: behind).reverse.takeWhile fun line => !insertsChoice line).reverse
      = behind := by
  rw [List.reverse_append, List.reverse_cons, List.append_assoc,
    List.takeWhile_append_of_pos (fun l hl => by rw [hbehind l (List.mem_reverse.1 hl)]; rfl)]
  simp [hchoice]

/-- Lines that insert choices have a last one. -/
theorem exists_last_choice {lines : List Text} (h : ¬∀ l ∈ lines, insertsChoice l = false) :
    ∃ front choice behind, lines = front ++ choice :: behind ∧ insertsChoice choice = true ∧
      ∀ l ∈ behind, insertsChoice l = false := by
  induction lines with
  | nil => exact absurd (fun l hl => absurd hl List.not_mem_nil) h
  | cons line lines ih =>
    by_cases hlines : ∀ l ∈ lines, insertsChoice l = false
    · refine ⟨[], line, lines, rfl, ?_, hlines⟩
      by_cases hline : insertsChoice line = true
      · exact hline
      · exact absurd (List.forall_mem_cons.2 ⟨by simpa using hline, hlines⟩) h
    · obtain ⟨front, choice, behind, rfl, hchoice, hbehind⟩ := ih hlines
      exact ⟨line :: front, choice, behind, rfl, hchoice, hbehind⟩

/-- What happens to a segment: with choices, the requests behind the last of them are left out;
    without choices all of them are, and a known template has its after zone entered anew. -/
theorem placeInSegment_cases (segment : List Text) :
    (∃ front choice behind, segment = front ++ choice :: behind ∧ insertsChoice choice = true ∧
      (∀ l ∈ behind, insertsChoice l = false) ∧
      placeInSegment segment = front ++ choice :: withoutAfter behind) ∨
    ((∀ l ∈ segment, insertsChoice l = false) ∧ segmentTemplate? segment = none ∧
      placeInSegment segment = withoutAfter segment) ∨
    ((∀ l ∈ segment, insertsChoice l = false) ∧ (∃ t, segmentTemplate? segment = some t) ∧
      placeInSegment segment = enterAfterZone (withoutAfter segment)) := by
  by_cases hnone : ∀ l ∈ segment, insertsChoice l = false
  · right
    have hall : segment.reverse.takeWhile (fun line => !insertsChoice line) = segment.reverse := by
      have happ : (segment.reverse ++ []).takeWhile (fun line => !insertsChoice line)
          = segment.reverse ++ [].takeWhile fun line => !insertsChoice line :=
        List.takeWhile_append_of_pos fun l hl => by rw [hnone l (List.mem_reverse.1 hl)]; rfl
      rwa [List.takeWhile_nil, List.append_nil] at happ
    simp only [placeInSegment, hall, List.reverse_reverse, Nat.sub_self, List.take_zero,
      List.isEmpty_nil, Bool.not_true, Bool.false_eq_true, if_false]
    split
    · next t ht => exact Or.inr ⟨hnone, ⟨t, ht⟩, if_pos (by cases t <;> rfl)⟩
    · next ht => exact Or.inl ⟨hnone, ht, rfl⟩
  · left
    obtain ⟨front, choice, behind, rfl, hchoice, hbehind⟩ := exists_last_choice hnone
    refine ⟨front, choice, behind, rfl, hchoice, hbehind, ?_⟩
    have hchoices : (front ++ choice :: behind).take ((front ++ choice :: behind).length
        - behind.length) = front ++ [choice] := by
      have happ : front ++ choice :: behind = (front ++ [choice]) ++ behind := by simp
      rw [happ, List.length_append, Nat.add_sub_cancel, List.take_left]
    simp only [placeInSegment, behindChoices_eq front hchoice hbehind, hchoices]
    rw [if_pos (by simp)]
    simp [withoutAfter]

/-- Leaving out zones keeps the order. -/
theorem inOrder_of_sublist {line : Text} {t : Option Template} {rest kept : List Text}
    (hline : Line.classify line = .template t)
    (hrest : ∀ l ∈ rest, (Line.classify l).isTemplate = false) (hkept : kept.Sublist rest)
    (h : inOrder (zoneEvents (line :: rest))) : inOrder (zoneEvents (line :: kept)) := by
  have hzones := zoneEvents_eq_map hrest
  generalize requests rest = zones at hzones
  have hsub : (zoneEvents kept).Sublist (zoneEvents rest) := hkept.filterMap zoneEvent?
  rw [hzones] at hsub
  obtain ⟨left, hleft, hevents⟩ := List.sublist_map_iff.1 hsub
  rw [zoneEvents_cons_template hline] at h ⊢
  rw [hevents]
  rw [hzones] at h
  cases t with
  | none => exact inOrder_template_none left
  | some t =>
    rw [inOrder_template_zones] at h ⊢
    exact h.sublist hleft

theorem trimBreaks_append_cons (front : List Text) {line : Text}
    (hline : (Line.classify line).isBreak = false) (back : List Text) :
    trimBreaks (front ++ line :: back) = front ++ line :: trimBreaks back := by
  have hstop : (line :: front.reverse).dropWhile (fun l => (Line.classify l).isBreak)
      = line :: front.reverse := List.dropWhile_cons_of_neg (by simp [hline])
  have happ : (front ++ line :: back).reverse = back.reverse ++ line :: front.reverse := by simp
  rw [trimBreaks, dropBreaks, happ, List.dropWhile_append, hstop, trimBreaks, dropBreaks]
  split
  · next hnil =>
    rw [List.isEmpty_iff.1 hnil]
    simp
  · simp

theorem Line.isBreak_of_zone? {kind : Line} {z : Zone} (h : kind.zone? = some z) :
    kind.isBreak = false := by
  cases kind <;> simp_all [zone?, isBreak]

/-- Where the after zone is entered: behind the exit of the inside zone, or at the end, where that
    exit and perhaps the inside zone are made up for. -/
theorem enterAfterZone_cases (segment : List Text) :
    (∃ front request inner rest, segment = front ++ request :: (inner ++ rest) ∧
      (Line.classify request).zone? = some .inside ∧
      throughExit? 0 (inner ++ rest) = some (inner, rest) ∧
      enterAfterZone segment = front ++ request :: (inner ++ Zone.after.focusLine :: rest)) ∨
    (∃ front request back, segment = front ++ request :: back ∧
      (Line.classify request).zone? = some .inside ∧ throughExit? 0 back = none ∧
      enterAfterZone segment
        = front ++ request :: (trimBreaks back ++ [exitBoxLine, Zone.after.focusLine])) ∨
    (Zone.inside ∉ requests segment ∧ enterAfterZone segment
      = trimBreaks segment ++ [Zone.inside.focusLine, exitBoxLine, Zone.after.focusLine]) := by
  unfold enterAfterZone
  split
  · next i hi =>
    obtain ⟨hlt, hinside, _⟩ := List.findIdx?_eq_some_iff_getElem.1 hi
    have hinside : (Line.classify segment[i]).zone? = some .inside := by simpa using hinside
    have hsplit : segment = segment.take i ++ segment[i] :: segment.drop (i + 1) := by
      rw [← List.drop_eq_getElem_cons hlt, List.take_append_drop]
    have htake : segment.take (i + 1) = segment.take i ++ [segment[i]] :=
      List.take_succ_eq_append_getElem hlt
    split
    · next inner rest hthrough =>
      have hinner := throughExit?_append hthrough
      refine Or.inl ⟨segment.take i, segment[i], inner, rest, ?_, hinside, ?_, ?_⟩
      · rw [← hinner, ← hsplit]
      · rw [← hinner, hthrough]
      · simp only [htake, List.append_assoc, List.cons_append, List.nil_append]
    · next hthrough =>
      refine Or.inr (Or.inl ⟨_, _, _, hsplit, hinside, hthrough, ?_⟩)
      have hbreak := Line.isBreak_of_zone? hinside
      have htrim := trimBreaks_append_cons (segment.take i) hbreak (segment.drop (i + 1))
      rw [← hsplit] at htrim
      rw [htrim, List.append_assoc, List.cons_append]
  · next hnone =>
    refine Or.inr (Or.inr ⟨fun h => ?_, rfl⟩)
    obtain ⟨l, hl, hzone⟩ := List.mem_filterMap.1 h
    have hother := List.findIdx?_eq_none_iff.1 hnone l hl
    simp [hzone] at hother

theorem rank_lt_after {zones : List Zone} (hafter : Zone.after ∉ zones) {z : Zone}
    (hz : z ∈ zones) : z.rank < Zone.after.rank := by
  cases z with
  | after => exact absurd hz hafter
  | _ => decide

/-- The after zone is in order at the end. -/
theorem pairwise_append_after {zones : List Zone} (hafter : Zone.after ∉ zones)
    (h : zones.Pairwise fun y z => y.rank < z.rank) :
    (zones ++ [Zone.after]).Pairwise fun y z => y.rank < z.rank := by
  refine List.pairwise_append.2 ⟨h, List.pairwise_singleton _ _, fun y hy z hz => ?_⟩
  rw [List.mem_singleton.1 hz]
  exact rank_lt_after hafter hy

/-- The after zone is in order anywhere behind the inside zone. -/
theorem pairwise_after_cons {first last : List Zone} (hinside : Zone.inside ∈ first)
    (hafter : Zone.after ∉ first ++ last)
    (h : (first ++ last).Pairwise fun y z => y.rank < z.rank) :
    (first ++ Zone.after :: last).Pairwise fun y z => y.rank < z.rank := by
  obtain ⟨hfirst, _, hacross⟩ := List.pairwise_append.1 h
  -- Only the after zone could follow the inside zone, and it is not there.
  have hnone : last = [] := by
    refine List.eq_nil_iff_forall_not_mem.2 fun z hz => ?_
    have hlt := hacross _ hinside z hz
    have hmem := List.mem_append_right first hz
    cases z with
    | after => exact hafter hmem
    | _ => exact absurd hlt (by decide)
  rw [hnone]
  exact pairwise_append_after (fun hmem => hafter (List.mem_append_left _ hmem)) hfirst

/-- Without an inside zone, both may be made up for at the end. -/
theorem pairwise_append_inside_after {zones : List Zone} (hinside : Zone.inside ∉ zones)
    (hafter : Zone.after ∉ zones) (h : zones.Pairwise fun y z => y.rank < z.rank) :
    (zones ++ [Zone.inside, Zone.after]).Pairwise fun y z => y.rank < z.rank := by
  refine List.pairwise_append.2 ⟨h, by decide, fun y hy z hz => ?_⟩
  cases y with
  | before => cases z <;> simp_all [Zone.rank]
  | inside => exact absurd hy hinside
  | after => exact absurd hy hafter

theorem zoneEvents_trimBreaks (lines : List Text) :
    zoneEvents (trimBreaks lines) = zoneEvents lines := zoneEvents_congr (skeleton_trimBreaks lines)

/-- The events of a segment. -/
theorem zoneEvents_segment {line : Text} {t : Option Template} {rest : List Text}
    (hline : Line.classify line = .template t)
    (hrest : ∀ l ∈ rest, (Line.classify l).isTemplate = false) :
    zoneEvents (line :: rest) = .template t :: (requests rest).map .zone := by
  rw [zoneEvents_cons_template hline, zoneEvents_eq_map hrest]

/-- The after zone is entered behind the inside zone, which is there or made up for. -/
theorem zoneEvents_enterAfterZone (segment : List Text) :
    (∃ first last, zoneEvents segment = first ++ last ∧ .zone .inside ∈ first ∧
      zoneEvents (enterAfterZone segment) = first ++ .zone .after :: last) ∨
    (.zone .inside ∉ zoneEvents segment ∧ zoneEvents (enterAfterZone segment)
      = zoneEvents segment ++ [.zone .inside, .zone .after]) := by
  rcases enterAfterZone_cases segment with ⟨front, request, inner, rest, rfl, hinside, _, heq⟩ |
    ⟨front, request, back, rfl, hinside, _, heq⟩ | ⟨hinside, heq⟩
  · have hrequest := zoneEvent?_of_zone? hinside
    refine .inl ⟨zoneEvents front ++ .zone .inside :: zoneEvents inner, zoneEvents rest, ?_,
      by simp, ?_⟩
    · simp [zoneEvents_cons, hrequest]
    · simp [heq, zoneEvents_cons, hrequest]
  · have hrequest := zoneEvent?_of_zone? hinside
    refine .inl ⟨zoneEvents front ++ .zone .inside :: zoneEvents back, [], ?_, by simp, ?_⟩
    · simp [zoneEvents_cons, hrequest]
    · simp [heq, zoneEvents_cons, hrequest, zoneEvents_trimBreaks]
  · refine .inr ⟨fun hmem => hinside ?_, by simp [heq, zoneEvents_cons, zoneEvents_trimBreaks]⟩
    obtain ⟨l, hl, hevent⟩ := List.mem_filterMap.1 hmem
    exact List.mem_filterMap.2 ⟨l, hl, zone?_of_zoneEvent? hevent⟩

/-- The template that a segment starts with stays where it is. -/
theorem exists_enterAfterZone_eq_cons {line : Text} {t : Option Template}
    (hline : Line.classify line = .template t) (rest : List Text) :
    ∃ rest', enterAfterZone (line :: rest) = line :: rest' := by
  -- the request stands behind the template
  have hfront {front back : List Text} {request : Text}
      (hsplit : line :: rest = front ++ request :: back)
      (hinside : (Line.classify request).zone? = some .inside) :
      ∃ front', front = line :: front' := by
    cases front with
    | nil =>
      rw [← (List.cons.inj hsplit).1, hline] at hinside
      cases hinside
    | cons first front => exact ⟨front, by rw [(List.cons.inj hsplit).1]⟩
  have hbreak : (Line.classify line).isBreak = false := by
    rw [hline]
    rfl
  rcases enterAfterZone_cases (line :: rest) with ⟨front, request, inner, last, hsplit, hinside,
    _, heq⟩ | ⟨front, request, back, hsplit, hinside, _, heq⟩ | ⟨_, heq⟩
  · obtain ⟨front, rfl⟩ := hfront hsplit hinside
    exact ⟨_, heq⟩
  · obtain ⟨front, rfl⟩ := hfront hsplit hinside
    exact ⟨_, heq⟩
  · have htrim : trimBreaks (line :: rest) = line :: trimBreaks rest :=
      trimBreaks_append_cons [] hbreak rest
    rw [htrim] at heq
    exact ⟨_, heq⟩

/-- In a segment, the after zone is entered behind the request for the inside zone, which is there
    or made up for. -/
theorem exists_enterAfterZone_eq {line : Text} {t : Option Template} {rest : List Text}
    (hline : Line.classify line = .template t)
    (hrest : ∀ l ∈ rest, (Line.classify l).isTemplate = false) :
    ∃ rest', enterAfterZone (line :: rest) = line :: rest' ∧
      (∀ l ∈ rest', (Line.classify l).isTemplate = false) ∧
      ((∃ first last, requests rest = first ++ last ∧ Zone.inside ∈ first ∧
          requests rest' = first ++ .after :: last) ∨
        (Zone.inside ∉ requests rest ∧ requests rest' = requests rest ++ [.inside, .after])) := by
  obtain ⟨rest', heq⟩ := exists_enterAfterZone_eq_cons hline rest
  have hevents := zoneEvents_enterAfterZone (line :: rest)
  rw [heq, zoneEvents_segment hline hrest, zoneEvents_cons_template hline] at hevents
  rcases hevents with ⟨first, last, hsplit, hinside, hadded⟩ | ⟨hinside, hadded⟩
  · cases first with
    | nil => exact absurd hinside List.not_mem_nil
    | cons e first =>
      rw [List.cons_append] at hsplit hadded
      obtain ⟨rfl, hmap⟩ := List.cons.inj hsplit
      obtain ⟨first, last, hzones, rfl, rfl⟩ := List.map_eq_append_iff.1 hmap
      have hrest' : zoneEvents rest' = (first ++ Zone.after :: last).map .zone := by
        simpa using (List.cons.inj hadded).2
      obtain ⟨htemplates, hrequests⟩ := requests_eq_of_zoneEvents hrest'
      exact ⟨rest', heq, htemplates, .inl ⟨first, last, hzones, by simpa using hinside, hrequests⟩⟩
  · have hrest' : zoneEvents rest' = (requests rest ++ [Zone.inside, Zone.after]).map .zone := by
      simpa using (List.cons.inj hadded).2
    obtain ⟨htemplates, hrequests⟩ := requests_eq_of_zoneEvents hrest'
    exact ⟨rest', heq, htemplates, .inr ⟨by simpa using hinside, hrequests⟩⟩

/-- The after zone is entered behind all others. -/
theorem inOrder_enterAfterZone {line : Text} {t : Option Template} {rest : List Text}
    (hline : Line.classify line = .template t)
    (hrest : ∀ l ∈ rest, (Line.classify l).isTemplate = false)
    (hafter : Zone.after ∉ requests rest) (h : inOrder (zoneEvents (line :: rest))) :
    IsLed (zoneEvents (enterAfterZone (line :: rest))) ∧
      inOrder (zoneEvents (enterAfterZone (line :: rest))) := by
  obtain ⟨rest', heq, hrest', hrequests⟩ := exists_enterAfterZone_eq hline hrest
  rw [zoneEvents_segment hline hrest] at h
  rw [heq, zoneEvents_segment hline hrest']
  refine ⟨fun e he => ⟨t, (Option.some.inj he).symm⟩, ?_⟩
  cases t with
  | none => exact inOrder_template_none _
  | some t =>
    rw [inOrder_template_zones] at h ⊢
    rcases hrequests with ⟨first, last, hsplit, hinside, hrequests⟩ | ⟨hinside, hrequests⟩
    · rw [hrequests]
      rw [hsplit] at h hafter
      exact pairwise_after_cons hinside hafter h
    · rw [hrequests]
      exact pairwise_append_inside_after hinside hafter h

theorem withoutAfter_cons_template {line : Text} {t : Option Template}
    (h : Line.classify line = .template t) (rest : List Text) :
    withoutAfter (line :: rest) = line :: withoutAfter rest := by
  have hline : requestsAfter line = false := by
    rw [requestsAfter, h]
    rfl
  rw [withoutAfter, List.filter_cons_of_pos (by rw [hline]; rfl), withoutAfter]

/-- Settling the after zone of a segment keeps its order. -/
theorem inOrder_placeInSegment {segment : List Text} (hsegment : IsSegment segment)
    (h : inOrder (zoneEvents segment)) :
    IsLed (zoneEvents (placeInSegment segment)) ∧
      inOrder (zoneEvents (placeInSegment segment)) := by
  obtain ⟨line, rest, t, rfl, hline, hrest⟩ := hsegment
  have hkept {kept : List Text} (hsub : kept.Sublist rest) :
      IsLed (zoneEvents (line :: kept)) ∧ inOrder (zoneEvents (line :: kept)) := by
    refine ⟨?_, inOrder_of_sublist hline hrest hsub h⟩
    rw [zoneEvents_cons_template hline]
    exact fun e he => ⟨t, (Option.some.inj he).symm⟩
  rcases placeInSegment_cases (line :: rest) with ⟨front, choice, behind, hsplit, _, _, heq⟩ |
    ⟨_, _, heq⟩ | ⟨_, _, heq⟩
  · rw [heq]
    cases front with
    | nil =>
      injection hsplit with hfirst hsplit
      subst hfirst hsplit
      exact hkept List.filter_sublist
    | cons first front =>
      injection hsplit with hfirst hsplit
      subst hfirst hsplit
      exact hkept ((List.Sublist.refl front).append (List.filter_sublist.cons_cons choice))
  · rw [heq, withoutAfter_cons_template hline]
    exact hkept List.filter_sublist
  · rw [heq, withoutAfter_cons_template hline]
    have hsub : (withoutAfter rest).Sublist rest := List.filter_sublist
    exact inOrder_enterAfterZone hline (fun l hl => hrest l (hsub.mem hl))
      (after_not_mem_requests_withoutAfter rest) (hkept hsub).2

/-- The lines before the first template stay without one. -/
theorem isTemplate_of_mem_placeInSegment {lines : List Text}
    (h : ∀ l ∈ lines, (Line.classify l).isTemplate = false) :
    ∀ l ∈ placeInSegment lines, (Line.classify l).isTemplate = false := by
  rcases placeInSegment_cases lines with ⟨front, choice, behind, rfl, _, _, heq⟩ | ⟨_, _, heq⟩ |
    ⟨_, ⟨t, ht⟩, _⟩
  · rw [heq]
    exact fun l hl =>
      h l (((List.Sublist.refl front).append (List.filter_sublist.cons_cons choice)).mem hl)
  · rw [heq]
    exact fun l hl => h l (List.filter_sublist.mem hl)
  · exfalso
    cases lines with
    | nil => simp [segmentTemplate?] at ht
    | cons line lines =>
      have hline := h line List.mem_cons_self
      simp only [segmentTemplate?, List.head?_cons, Option.map_some] at ht
      split at ht
      · next hkind =>
        rw [Option.some.inj hkind] at hline
        simp [Line.isTemplate] at hline
      · simp at ht

theorem IsSegment.isLed {segment : List Text} (h : IsSegment segment) :
    IsLed (zoneEvents segment) := by
  obtain ⟨line, rest, t, rfl, hline, _⟩ := h
  rw [zoneEvents_cons_template hline]
  exact fun e he => ⟨t, (Option.some.inj he).symm⟩

theorem inOrder_placeAfterZone {lines : List Text} (h : inOrder (zoneEvents lines)) :
    inOrder (zoneEvents (placeAfterZone lines)) := by
  obtain ⟨front, more, rfl, hfront, hmore, _, heq⟩ := exists_segments_eq lines
  have horder := inOrder_flatten fun s hs => (hmore s hs).isLed
  rw [zoneEvents_append, inOrder_append horder.1, horder.2] at h
  have hplaced : ∀ s ∈ more.map placeInSegment, IsLed (zoneEvents s) ∧ inOrder (zoneEvents s) := by
    intro s hs
    obtain ⟨segment, hsegment, rfl⟩ := List.mem_map.1 hs
    exact inOrder_placeInSegment (hmore segment hsegment) (h.2 segment hsegment)
  have hflatten := inOrder_flatten fun s hs => (hplaced s hs).1
  rw [heq, zoneEvents_append, List.flatMap_def, inOrder_append hflatten.1,
    zoneEvents_eq_map (isTemplate_of_mem_placeInSegment hfront)]
  exact ⟨inOrder_zones _, hflatten.2.2 fun s hs => (hplaced s hs).2⟩

/-- The zones on the lines of a round are in order. -/
theorem inOrder_roundLines (s : Text) : inOrder (zoneEvents (roundLines s)) := by
  refine inOrder_placeAfterZone ?_
  show inOrder (zoneEvents (layOut _))
  rw [zoneEvents_layOut]
  exact inOrder_orderPlaceholders _

end Scribe.Repair
