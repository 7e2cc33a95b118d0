import Scribe.Proofs.Repair.ContainerDepth
import Scribe.Proofs.Repair.Content

set_option autoImplicit false

/-! # The zones and containers of a normalized script

Every known template without choices ends up with its three zones, once each and in order, and the
after zone right behind the exit that ends the inside zone. With choices, no after zone follows the
last of them. Around all that, every plain container is closed before the next zone. -/

namespace Scribe.Repair

/-! ## The zone before -/

/-- Does every template of a known name request its before zone at once? -/
def EntersBefore (events : List ZoneEvent) : Prop :=
  ∀ (front : List ZoneEvent) (t : Template) (back : List ZoneEvent),
    events = front ++ .template (some t) :: back → back.head? = some (.zone .before)

theorem entersBefore_nil : EntersBefore [] := by
  intro front t back h
  simp at h

theorem EntersBefore.append {a b : List ZoneEvent} (ha : EntersBefore a) (hb : EntersBefore b) :
    EntersBefore (a ++ b) := by
  intro front t back h
  rcases List.append_eq_append_iff.1 h with ⟨more, rfl, hback⟩ | ⟨more, hfront, hback⟩
  · exact hb more t back hback
  · cases more with
    | nil =>
      rw [List.nil_append] at hback
      exact hb [] t back hback.symm
    | cons e more =>
      obtain ⟨rfl, rfl⟩ := List.cons.inj hback
      have hhead := ha front t more hfront
      cases more with
      | nil => simp at hhead
      | cons e more => exact hhead

/-- What is written last first requests the before zone of every known template at once. -/
def WritesBefore (written : List Text) : Prop := EntersBefore (zoneEvents written.reverse)

theorem WritesBefore.cons {written : List Text} (h : WritesBefore written) {line : Text}
    (hline : ∀ t, Line.classify line ≠ .template (some t)) : WritesBefore (line :: written) := by
  unfold WritesBefore
  rw [List.reverse_cons, zoneEvents_append]
  refine EntersBefore.append h fun front t back hevents => ?_
  have hmem : ZoneEvent.template (some t) ∈ zoneEvents [line] := by
    rw [hevents]
    simp
  obtain ⟨l, hl, hevent⟩ := List.mem_filterMap.1 hmem
  rw [List.mem_singleton.1 hl, zoneEvent?] at hevent
  unfold Line.zoneEvent? at hevent
  split at hevent
  · next hkind => simp_all
  · simp at hevent
  · simp at hevent

theorem WritesBefore.template {written : List Text} (h : WritesBefore written) {line : Text}
    {t : Option Template} (hline : Line.classify line = .template t) :
    WritesBefore (Zone.before.focusLine :: line :: written) := by
  have hevents : zoneEvents [line, Zone.before.focusLine] = [.template t, .zone .before] := by
    rw [zoneEvents_cons_template hline, zoneEvents_cons, zoneEvent?_focusLine]
    rfl
  have hrev : (Zone.before.focusLine :: line :: written).reverse
      = written.reverse ++ [line, Zone.before.focusLine] := by simp
  unfold WritesBefore
  rw [hrev, zoneEvents_append, hevents]
  refine EntersBefore.append h fun front t' back hsplit => ?_
  cases front with
  | nil =>
    obtain ⟨_, rfl⟩ := List.cons.inj hsplit
    rfl
  | cons e front =>
    have htail := (List.cons.inj hsplit).2
    cases front with
    | nil => simp at htail
    | cons e' front => simp at htail

/-! ### The walk -/

theorem ZoneWalk.IsAdded.classify_ne {line : Text} (h : ZoneWalk.IsAdded line) (t : Template) :
    Line.classify line ≠ .template (some t) := by
  rcases h with rfl | rfl | ⟨z, rfl⟩
  · simp [classify_exitBoxLine]
  · simp [classify_openBoxLine]
  · simp [classify_focusLine]

theorem WritesBefore.of_adds {old new : List Text} (h : WritesBefore old)
    (hadds : ZoneWalk.Adds old new) : WritesBefore new := by
  obtain ⟨added, rfl, hadded⟩ := hadds
  induction added with
  | nil => exact h
  | cons line added ih =>
    exact (ih fun l hl => hadded l (List.mem_cons_of_mem _ hl)).cons
      (hadded line List.mem_cons_self).classify_ne

/-- A line that is taken back is no template, so what stands before it is as before. -/
theorem WritesBefore.takeBack {last : Text} {earlier : List Text}
    (h : WritesBefore (last :: earlier)) (hlast : Line.classify last = .alignJustify) :
    WritesBefore earlier := by
  unfold WritesBefore at h ⊢
  rwa [List.reverse_cons, zoneEvents_append, zoneEvents_cons_of_none
    (by rw [zoneEvent?, hlast]; rfl), zoneEvents_nil, List.append_nil] at h

theorem WritesBefore.of_extends {dual : Bool} {line : Text} {old new : List Text}
    (h : WritesBefore old) (hextends : ZoneWalk.Extends dual line old new) : WritesBefore new := by
  cases hextends with
  | leftOut hadds _ => exact h.of_adds hadds
  | kept hadds hline => exact (h.of_adds hadds).cons hline
  | opened hadds hline => exact (h.of_adds hadds).template hline
  | justified hold hlast hadds hline =>
    subst hold
    exact (((h.takeBack hlast).of_adds hadds).cons (by simp [hlast])).cons hline

/-- The walk enters the before zone of every known template. -/
theorem entersBefore_orderPlaceholders (lines : List Text) :
    EntersBefore (zoneEvents (orderPlaceholders lines)) := by
  have hwalk (w : ZoneWalk) (h : WritesBefore w.written) :
      WritesBefore (ZoneWalk.walk (isDual lines) w lines).written := by
    generalize isDual lines = dual
    induction lines generalizing w with
    | nil => exact h
    | cons line ahead ih => exact ih _ (h.of_extends (w.extends_step dual line ahead))
  exact hwalk {} entersBefore_nil

/-! ## The segments of a settled script -/

theorem cutAtTemplates_append {front : List Text}
    (hfront : ∀ l ∈ front, (Line.classify l).isTemplate = false) (lines : List Text) :
    cutAtTemplates (front ++ lines)
      = (front ++ (cutAtTemplates lines).1, (cutAtTemplates lines).2) := by
  induction front with
  | nil => rfl
  | cons line front ih =>
    have hline := hfront line List.mem_cons_self
    rw [List.cons_append, cutAtTemplates, ih fun l hl => hfront l (List.mem_cons_of_mem _ hl)]
    simp [hline]

/-- Cutting finds the segments that a script is put together from. -/
theorem cutAtTemplates_flatten_eq {more : List (List Text)} (hmore : ∀ s ∈ more, IsSegment s) :
    cutAtTemplates more.flatten = ([], more) := by
  induction more with
  | nil => rfl
  | cons segment more ih =>
    obtain ⟨line, rest, t, rfl, hline, hrest⟩ := hmore segment List.mem_cons_self
    have htail := cutAtTemplates_append hrest more.flatten
    rw [ih fun s hs => hmore s (List.mem_cons_of_mem _ hs), List.append_nil] at htail
    rw [List.flatten_cons, List.cons_append, cutAtTemplates, htail]
    simp [hline, Line.isTemplate]

theorem mem_segments_append_flatten {front : List Text} {more : List (List Text)}
    (hfront : ∀ l ∈ front, (Line.classify l).isTemplate = false) (hmore : ∀ s ∈ more, IsSegment s)
    {segment : List Text} (h : segment ∈ segments (front ++ more.flatten)) :
    segment = front ∨ segment ∈ more := by
  have hcut := cutAtTemplates_append hfront more.flatten
  rw [cutAtTemplates_flatten_eq hmore, List.append_nil] at hcut
  unfold segments at h
  rw [hcut] at h
  split at h
  · next heq =>
    cases heq
    exact Or.inr h
  · next heq =>
    cases heq
    exact List.mem_cons.1 h

/-- A segment keeps its template, and no other comes into it. -/
theorem exists_placeInSegment_eq {line : Text} {t : Option Template} {rest : List Text}
    (hline : Line.classify line = .template t)
    (hrest : ∀ l ∈ rest, (Line.classify l).isTemplate = false) :
    ∃ rest', placeInSegment (line :: rest) = line :: rest' ∧
      ∀ l ∈ rest', (Line.classify l).isTemplate = false := by
  have hkept : ∀ l ∈ withoutAfter rest, (Line.classify l).isTemplate = false := fun l hl =>
    hrest l (List.filter_sublist.mem hl)
  rcases placeInSegment_cases (line :: rest) with ⟨front, choice, behind, hsplit, _, _, heq⟩ |
    ⟨_, _, heq⟩ | ⟨_, _, heq⟩
  · cases front with
    | nil =>
      obtain ⟨rfl, rfl⟩ := List.cons.inj hsplit
      exact ⟨_, heq, hkept⟩
    | cons first front =>
      obtain ⟨rfl, rfl⟩ := List.cons.inj hsplit
      refine ⟨_, heq, fun l hl => hrest l ?_⟩
      exact ((List.Sublist.refl front).append (List.filter_sublist.cons_cons choice)).mem hl
  · rw [withoutAfter_cons_template hline] at heq
    exact ⟨_, heq, hkept⟩
  · rw [withoutAfter_cons_template hline] at heq
    obtain ⟨rest', heq', hrest', _⟩ := exists_enterAfterZone_eq hline hkept
    exact ⟨rest', heq.trans heq', hrest'⟩

/-! ## The zones of one segment -/

/-- Zones in order, with none of them missing, are all there are. -/
theorem eq_all_of_pairwise {zones : List Zone}
    (h : zones.Pairwise fun y z => y.rank < z.rank) (hbefore : Zone.before ∈ zones)
    (hinside : Zone.inside ∈ zones) (hafter : Zone.after ∈ zones) : zones = Zone.all := by
  have hperm : zones.Perm Zone.all := by
    refine (List.perm_ext_iff_of_nodup ?_ (by decide)).2 fun z => ?_
    · exact h.imp fun hlt heq => by simp [heq] at hlt
    · cases z <;> simp [Zone.all, hbefore, hinside, hafter]
  exact hperm.eq_of_pairwise (fun y z _ _ hyz hzy => by omega) h (by decide)

theorem placeInSegment_eq_enterAfterZone {line : Text} {t : Template} {rest : List Text}
    (hline : Line.classify line = .template (some t))
    (hnone : ∀ l ∈ line :: rest, insertsChoice l = false) :
    placeInSegment (line :: rest) = enterAfterZone (line :: withoutAfter rest) := by
  rcases placeInSegment_cases (line :: rest) with ⟨front, choice, behind, hsplit, hchoice, _, _⟩ |
    ⟨_, htemplate, _⟩ | ⟨_, _, heq⟩
  · have hno := hnone choice (by rw [hsplit]; simp)
    rw [hno] at hchoice
    exact absurd hchoice (by decide)
  · simp [segmentTemplate?, hline] at htemplate
  · rw [heq, withoutAfter_cons_template hline]

/-- A segment without choices requests every zone. -/
theorem requests_placeInSegment {line : Text} {t : Template} {rest : List Text}
    (hline : Line.classify line = .template (some t))
    (hrest : ∀ l ∈ rest, (Line.classify l).isTemplate = false)
    (hnone : ∀ l ∈ line :: rest, insertsChoice l = false)
    (horder : inOrder (zoneEvents (line :: rest))) (hbefore : Zone.before ∈ requests rest) :
    requests (placeInSegment (line :: rest)) = Zone.all := by
  have hzone : (Line.classify line).zone? = none := by
    rw [hline]
    rfl
  have hplaced := (inOrder_placeInSegment ⟨line, rest, _, rfl, hline, hrest⟩ horder).2
  have hremain : ∀ l ∈ withoutAfter rest, (Line.classify l).isTemplate = false := fun l hl =>
    hrest l (List.filter_sublist.mem hl)
  obtain ⟨rest', heq, hrest', hrequests⟩ := exists_enterAfterZone_eq hline hremain
  rw [placeInSegment_eq_enterAfterZone hline hnone, heq] at hplaced ⊢
  rw [zoneEvents_segment hline hrest', inOrder_template_zones] at hplaced
  rw [requests_cons_of_none hzone]
  -- Only requests for the after zone were left out before it was entered.
  have hkept : Zone.before ∈ requests (withoutAfter rest) := by
    obtain ⟨l, hl, hbefore⟩ := List.mem_filterMap.1 hbefore
    refine List.mem_filterMap.2 ⟨l, List.mem_filter.2 ⟨hl, ?_⟩, hbefore⟩
    simp [requestsAfter, hbefore]
  rcases hrequests with ⟨first, last, hsplit, hinside, hrequests⟩ | ⟨_, hrequests⟩
  · rw [hsplit] at hkept
    rw [hrequests] at hplaced ⊢
    refine eq_all_of_pairwise hplaced ?_ ?_ ?_
    · rcases List.mem_append.1 hkept with h | h
      · exact List.mem_append_left _ h
      · exact List.mem_append_right _ (List.mem_cons_of_mem _ h)
    · exact List.mem_append_left _ hinside
    · exact List.mem_append_right _ List.mem_cons_self
  · rw [hrequests] at hplaced ⊢
    exact eq_all_of_pairwise hplaced (List.mem_append_left _ hkept) (by simp) (by simp)

theorem exists_eq_trimBreaks_append (lines : List Text) :
    ∃ breaks, lines = trimBreaks lines ++ breaks := by
  refine ⟨(lines.reverse.takeWhile fun l => (Line.classify l).isBreak).reverse, ?_⟩
  rw [trimBreaks, dropBreaks, ← List.reverse_append, List.takeWhile_append_dropWhile,
    List.reverse_reverse]

theorem StaysInside.of_append {depth : Nat} {a b : List Text} (h : StaysInside depth (a ++ b)) :
    StaysInside depth a := by
  rintro front line back rfl hline
  exact h front line (back ++ b) (by simp) hline

/-- The after zone is entered directly behind the exit that ends the inside zone. -/
theorem exists_exit_enterAfterZone {lines : List Text} (h : IsBalanced lines)
    (hlines : ∀ l ∈ lines.tail, (Line.classify l).isTemplate = false) :
    ∃ front request body exit after back,
      enterAfterZone lines = front ++ request :: (body ++ exit :: after :: back) ∧
      (Line.classify request).zone? = some .inside ∧ Line.classify exit = .exit ∧
      (Line.classify after).zone? = some .after ∧
      depthBehind 0 body = 0 ∧ StaysInside 0 body := by
  rcases enterAfterZone_cases lines with ⟨front, request, inner, rest, _, hinside, hthrough, heq⟩ |
    ⟨front, request, back, rfl, hinside, hthrough, heq⟩ | ⟨_, heq⟩
  · obtain ⟨body, exit, rfl, hexit, hclosed, hstays⟩ := exists_of_throughExit? hthrough
    refine ⟨front, request, body, exit, Zone.after.focusLine, rest, ?_, hinside, hexit,
      zone?_focusLine _, hclosed, hstays⟩
    rw [heq]
    simp
  · have hback : ∀ l ∈ back, (Line.classify l).isTemplate = false := fun l hl => by
      refine hlines l ?_
      cases front with
      | nil => exact hl
      | cons first front => simp [hl]
    have hrequest : (Line.classify request).depthBehind 0 = 0 :=
      Line.depthBehind_of_isSome_zoneEvent? (isSome_zoneEvent?_of_zone? hinside) 0
    have hclosed := h.depthBehind_eq
    rw [depthBehind_append, h.depthBehind_front (isSome_zoneEvent?_of_zone? hinside),
      depthBehind_cons, hrequest] at hclosed
    refine ⟨front, request, trimBreaks back, exitBoxLine, Zone.after.focusLine, [], heq, hinside,
      classify_exitBoxLine, zone?_focusLine _, ?_, ?_⟩
    · rw [depthBehind_congr (skeleton_trimBreaks back), hclosed]
    · have hstays := staysInside_of_throughExit?_eq_none hthrough hback
      obtain ⟨breaks, hbreaks⟩ := exists_eq_trimBreaks_append back
      rw [hbreaks] at hstays
      exact hstays.of_append
  · exact ⟨trimBreaks lines, Zone.inside.focusLine, [], exitBoxLine, Zone.after.focusLine, [], heq,
      zone?_focusLine _, classify_exitBoxLine, zone?_focusLine _, rfl, staysInside_nil 0⟩

/-- Settling a segment neither adds nor removes a choice. -/
theorem mem_placeInSegment_iff_of_insertsChoice {segment : List Text} {line : Text}
    (hline : insertsChoice line = true) : line ∈ placeInSegment segment ↔ line ∈ segment := by
  have htyped : (Line.classify line).isTyped = true := by
    unfold insertsChoice at hline
    cases hkind : Line.classify line <;> simp_all [Line.literal?, Line.isTyped]
  have hfilter := (edits_placeInSegment false segment).filter_isTyped_eq
  have hmem (lines : List Text) :
      line ∈ lines ↔ line ∈ lines.filter fun l => (Line.classify l).isTyped := by
    rw [List.mem_filter]
    exact ⟨fun h => ⟨h, htyped⟩, fun h => h.1⟩
  rw [hmem, hfilter, ← hmem]

/-- Behind the last choice of a settled segment, the after zone is not requested. -/
theorem requestsAfter_behind_choice {segment front : List Text} {choice : Text} {back : List Text}
    (hsplit : placeInSegment segment = front ++ choice :: back)
    (hchoice : insertsChoice choice = true) (hback : ∀ l ∈ back, insertsChoice l = false) :
    ∀ l ∈ back, requestsAfter l = false := by
  have hmem : choice ∈ segment := by
    rw [← mem_placeInSegment_iff_of_insertsChoice hchoice, hsplit]
    simp
  have hsome : ¬∀ l ∈ segment, insertsChoice l = false := fun hnone => by
    rw [hnone choice hmem] at hchoice
    exact absurd hchoice (by decide)
  rcases placeInSegment_cases segment with ⟨front', choice', behind, _, hchoice', hbehind, heq⟩ |
    ⟨hnone, _⟩ | ⟨hnone, _⟩
  · -- The last choice is found from the end, so both splits are the same.
    have hkept : ∀ l ∈ withoutAfter behind, insertsChoice l = false := fun l hl =>
      hbehind l (List.filter_sublist.mem hl)
    have hlast := behindChoices_eq front hchoice hback
    rw [← hsplit, heq, behindChoices_eq front' hchoice' hkept] at hlast
    rw [← hlast]
    intro l hl
    simpa using (List.mem_filter.1 hl).2
  · exact absurd hnone hsome
  · exact absurd hnone hsome

/-! ## The structure of a script -/

/-- Is the after zone of a segment requested directly behind the first exit without a plain
    container that follows the request for its inside zone? The containers are counted from the
    start of the script; `ahead` are the lines in front of the segment. -/
def EntersAfterBehindExit (ahead segment : List Text) : Prop :=
  ∃ front request body exit after back,
    segment = front ++ request :: (body ++ exit :: after :: back) ∧
    (Line.classify request).zone? = some .inside ∧ Line.classify exit = .exit ∧
    (Line.classify after).zone? = some .after ∧
    depthBehind 0 (ahead ++ front ++ request :: body) = 0 ∧
    ∀ head line tail, body = head ++ line :: tail → Line.classify line = .exit →
      0 < depthBehind 0 (ahead ++ front ++ request :: head)

/-- How containers and zones stand in a script that is normalized. -/
structure HasZoneStructure (lines : List Text) : Prop where
  /-- No plain container is open at a template or at a zone request. -/
  depth_eq_zero : ∀ front line back, lines = front ++ line :: back → (zoneEvent? line).isSome →
    depthBehind 0 front = 0
  /-- No plain container is open at the end. -/
  closed : depthBehind 0 lines = 0
  /-- Behind a known template, without choices, every zone is requested once and in order, and the
      after zone as soon as the inside zone is left. -/
  zones : ∀ earlier segment later t, segments lines = earlier ++ segment :: later →
    segmentTemplate? segment = some t → (∀ l ∈ segment, insertsChoice l = false) →
      requests segment = Zone.all ∧ EntersAfterBehindExit earlier.flatten segment
  /-- Behind the last choice of a segment, the after zone is not requested. -/
  choices : ∀ segment ∈ segments lines, ∀ front choice back, segment = front ++ choice :: back →
    insertsChoice choice = true → (∀ l ∈ back, insertsChoice l = false) →
      ∀ l ∈ back, requestsAfter l = false

/-- Where no container is open at the request for the inside zone, the exit is found by counting
    from there. -/
theorem EntersAfterBehindExit.of_request {ahead front back body : List Text}
    {request exit after : Text} {later : List Text}
    (hlines : IsBalanced (ahead ++ (front ++ request :: (body ++ exit :: after :: back)) ++ later))
    (hinside : (Line.classify request).zone? = some .inside) (hexit : Line.classify exit = .exit)
    (hafter : (Line.classify after).zone? = some .after) (hclosed : depthBehind 0 body = 0)
    (hstays : StaysInside 0 body) :
    EntersAfterBehindExit ahead (front ++ request :: (body ++ exit :: after :: back)) := by
  have hrequest := isSome_zoneEvent?_of_zone? hinside
  have happ : ahead ++ (front ++ request :: (body ++ exit :: after :: back)) ++ later
      = (ahead ++ front) ++ request :: (body ++ exit :: after :: back ++ later) := by simp
  rw [happ] at hlines
  have hdepth (head : List Text) :
      depthBehind 0 (ahead ++ front ++ request :: head) = depthBehind 0 head := by
    rw [depthBehind_append, hlines.depthBehind_front hrequest, depthBehind_cons,
      Line.depthBehind_of_isSome_zoneEvent? hrequest]
  refine ⟨front, request, body, exit, after, back, rfl, hinside, hexit, hafter, ?_, ?_⟩
  · rw [hdepth, hclosed]
  · intro head line tail hbody hline
    rw [hdepth]
    exact hstays head line tail hbody hline

theorem segmentTemplate?_eq_none {lines : List Text}
    (h : ∀ l ∈ lines, (Line.classify l).isTemplate = false) : segmentTemplate? lines = none := by
  cases lines with
  | nil => rfl
  | cons line lines =>
    have hline := h line List.mem_cons_self
    simp only [segmentTemplate?, List.head?_cons, Option.map_some]
    split
    · next hkind =>
      rw [Option.some.inj hkind] at hline
      simp [Line.isTemplate] at hline
    · rfl

/-- Every segment of a known template requests its before zone, in order with the others. -/
theorem before_mem_requests {front : List Text} {more : List (List Text)}
    (hmore : ∀ s ∈ more, IsSegment s)
    (h : EntersBefore (zoneEvents (front ++ more.flatten)))
    {line : Text} {t : Template} {rest : List Text}
    (hline : Line.classify line = .template (some t))
    (hrest : ∀ l ∈ rest, (Line.classify l).isTemplate = false) (hmem : line :: rest ∈ more) :
    Zone.before ∈ requests rest := by
  obtain ⟨earlier, later, rfl⟩ := List.append_of_mem hmem
  have hled : IsLed (zoneEvents later.flatten) :=
    (inOrder_flatten fun s hs => (hmore s (by simp [hs])).isLed).1
  have hhead := h (zoneEvents (front ++ earlier.flatten)) t
    ((requests rest).map .zone ++ zoneEvents later.flatten) (by
      rw [List.flatten_append, List.flatten_cons, ← List.append_assoc, zoneEvents_append,
        zoneEvents_append _ later.flatten, zoneEvents_segment hline hrest, List.cons_append])
  cases hzones : requests rest with
  | nil =>
    -- What follows then starts with the next template, which is no request.
    rw [hzones, List.map_nil, List.nil_append] at hhead
    obtain ⟨t', ht'⟩ := hled _ hhead
    simp at ht'
  | cons z zones =>
    rw [hzones, List.map_cons, List.cons_append, List.head?_cons, Option.some.injEq] at hhead
    rw [ZoneEvent.zone.inj hhead]
    exact List.mem_cons_self

/-- A known template without choices ends up with all its zones. -/
theorem zones_placeInSegment {earlier later : List Text} {line : Text} {t : Template}
    {rest : List Text} (hline : Line.classify line = .template (some t))
    (hrest : ∀ l ∈ rest, (Line.classify l).isTemplate = false)
    (hno : ∀ l ∈ line :: rest, insertsChoice l = false)
    (horder : inOrder (zoneEvents (line :: rest))) (hbefore : Zone.before ∈ requests rest)
    (hsegment : IsBalanced (line :: rest))
    (hlines : IsBalanced (earlier ++ placeInSegment (line :: rest) ++ later)) :
    requests (placeInSegment (line :: rest)) = Zone.all ∧
      EntersAfterBehindExit earlier (placeInSegment (line :: rest)) := by
  refine ⟨requests_placeInSegment hline hrest hno horder hbefore, ?_⟩
  have hkept : IsBalanced (line :: withoutAfter rest) :=
    LeavesOpen.append_withoutAfter (a := [line]) hsegment
  obtain ⟨front, request, body, exit, after, back, hsplit, hinside, hexit, hafter, hclosed,
    hstays⟩ := exists_exit_enterAfterZone hkept fun l hl => hrest l (List.filter_sublist.mem hl)
  rw [placeInSegment_eq_enterAfterZone hline hno, hsplit] at hlines ⊢
  exact .of_request hlines hinside hexit hafter hclosed hstays

/-- The segments behind the repair are the settled segments in front of it. -/
theorem mem_segments_placeInSegment {front : List Text} {more : List (List Text)}
    (hfront : ∀ l ∈ front, (Line.classify l).isTemplate = false) (hmore : ∀ s ∈ more, IsSegment s)
    {segment : List Text}
    (h : segment ∈ segments (placeInSegment front ++ more.flatMap placeInSegment)) :
    segment = placeInSegment front ∨ ∃ s ∈ more, placeInSegment s = segment := by
  have hsettled : ∀ s ∈ more.map placeInSegment, IsSegment s := by
    intro s hs
    obtain ⟨segment, hsegment, rfl⟩ := List.mem_map.1 hs
    obtain ⟨line, rest, t, rfl, hline, hrest⟩ := hmore segment hsegment
    obtain ⟨rest', heq', hrest'⟩ := exists_placeInSegment_eq hline hrest
    exact ⟨line, rest', t, heq', hline, hrest'⟩
  rw [List.flatMap_def] at h
  rcases mem_segments_append_flatten (isTemplate_of_mem_placeInSegment hfront) hsettled h with h | h
  · exact Or.inl h
  · exact Or.inr (List.mem_map.1 h)

/-- What is asked of a segment in front of the repair follows from what holds of the whole
    script. -/
theorem zones_of_mem {front : List Text} {more : List (List Text)}
    (hmore : ∀ s ∈ more, IsSegment s) (hbalanced : IsBalanced (front ++ more.flatten))
    (horder : inOrder (zoneEvents (front ++ more.flatten)))
    (hbefore : EntersBefore (zoneEvents (front ++ more.flatten))) {s : List Text} (hs : s ∈ more)
    {t : Template} (htemplate : segmentTemplate? (placeInSegment s) = some t)
    (hno : ∀ l ∈ placeInSegment s, insertsChoice l = false) {earlier later : List Text}
    (hlines : IsBalanced (earlier ++ placeInSegment s ++ later)) :
    requests (placeInSegment s) = Zone.all ∧ EntersAfterBehindExit earlier (placeInSegment s) := by
  have hled := inOrder_flatten fun s hs => (hmore s hs).isLed
  have hsegment := (isBalanced_of_flatten hmore hbalanced).2 s hs
  rw [zoneEvents_append, inOrder_append hled.1, hled.2] at horder
  obtain ⟨line, rest, t', rfl, hline, hrest⟩ := hmore s hs
  obtain ⟨rest', heq, _⟩ := exists_placeInSegment_eq hline hrest
  have ht' : t' = some t := by
    rw [heq] at htemplate
    simpa [segmentTemplate?, hline] using htemplate
  subst ht'
  refine zones_placeInSegment hline hrest (fun l hl => ?_) (horder.2 _ hs)
    (before_mem_requests hmore hbefore hline hrest hs) hsegment hlines
  by_cases hl' : insertsChoice l = true
  · rw [← hno l ((mem_placeInSegment_iff_of_insertsChoice hl').2 hl)]
  · simpa using hl'

/-- Settling the after zones completes the structure. -/
theorem hasZoneStructure_placeAfterZone {lines : List Text} (hbalanced : IsBalanced lines)
    (horder : inOrder (zoneEvents lines)) (hbefore : EntersBefore (zoneEvents lines)) :
    HasZoneStructure (placeAfterZone lines) := by
  have hplaced := isBalanced_placeAfterZone hbalanced
  obtain ⟨front, more, rfl, hfront, hmore, _, heq⟩ := exists_segments_eq lines
  rw [heq] at hplaced ⊢
  refine ⟨fun head line back hsplit hline => ?_, hplaced.depthBehind_eq,
    fun earlier segment later t hsplit htemplate hno => ?_,
    fun segment hsegment head choice back hsplit hchoice hback => ?_⟩
  · rw [hsplit] at hplaced
    exact hplaced.depthBehind_front hline
  · have hflat := segments_flatten (placeInSegment front ++ more.flatMap placeInSegment)
    rw [hsplit, List.flatten_append, List.flatten_cons, ← List.append_assoc] at hflat
    rw [← hflat] at hplaced
    have hsegments :
        segment ∈ segments (placeInSegment front ++ more.flatMap placeInSegment) := by
      rw [hsplit]
      simp
    rcases mem_segments_placeInSegment hfront hmore hsegments with rfl | ⟨s, hs, rfl⟩
    · rw [segmentTemplate?_eq_none (isTemplate_of_mem_placeInSegment hfront)] at htemplate
      simp at htemplate
    · exact zones_of_mem hmore hbalanced horder hbefore hs htemplate hno hplaced
  · rcases mem_segments_placeInSegment hfront hmore hsegment with rfl | ⟨s, _, rfl⟩
    · exact requestsAfter_behind_choice hsplit hchoice hback
    · exact requestsAfter_behind_choice hsplit hchoice hback

/-- What a round of repairs leaves has the structure. -/
theorem hasZoneStructure_roundLines (s : Text) : HasZoneStructure (roundLines s) := by
  rw [roundLines, arrange_eq_placeAfterZone]
  refine hasZoneStructure_placeAfterZone (isBalanced_layOut _) ?_ ?_
  · rw [zoneEvents_layOut]
    exact inOrder_orderPlaceholders _
  · rw [zoneEvents_layOut]
    exact entersBefore_orderPlaceholders _

/-- Every normalized script has its containers closed before the next zone, the zones of its known
    templates in place, and no after zone behind its choices. -/
theorem hasZoneStructure_lines_normalize (s : Text) :
    HasZoneStructure (Text.lines (normalize s)) := by
  obtain ⟨t, ht⟩ := exists_lines_normalize s
  rw [ht]
  exact hasZoneStructure_roundLines t

end Scribe.Repair
