import Scribe.Proofs.Repair.ZoneStructure
import Scribe.Proofs.Script.Layout

set_option autoImplicit false

/-! # Normalized scripts use up their templates

A segment with a known template requests its zones once each and in order, with as many exits as
openings in between, and its after zone behind the exit from the inside zone. Main statement: where
the segments with choices or requests of their own use up their templates, the whole script does. -/

namespace Scribe.Repair

/-! ## Events of lines -/

/-- What a kind of line means for the templates in a document. -/
def Line.layoutEvent? : Line → Option LayoutEvent
  | .template t => some (.template t)
  | .focus placeholder => some (.focus placeholder)
  | .opening _ => some .opening
  | .exit => some .exit
  | _ => none

/-- What lines mean for the templates in a document. -/
def layoutEvents (lines : List Text) : List LayoutEvent :=
  lines.filterMap fun line => (Line.classify line).layoutEvent?

/-- Does a line request a placeholder that is no zone? -/
def requestsCustom (line : Text) : Bool :=
  match Line.classify line with
  | .focus (.custom _) => true
  | _ => false

/-- A line that inserts no template and requests nothing. -/
def IsIdle (line : Text) : Prop :=
  (Line.classify line).isTemplate = false ∧ (Line.classify line).zone? = none ∧
    requestsCustom line = false

theorem layoutEvents_append (a b : List Text) :
    layoutEvents (a ++ b) = layoutEvents a ++ layoutEvents b := List.filterMap_append

theorem layoutEvents_cons (line : Text) (lines : List Text) :
    layoutEvents (line :: lines) =
      (Line.classify line).layoutEvent?.toList ++ layoutEvents lines := by
  cases h : (Line.classify line).layoutEvent? with
  | none => simp [layoutEvents, h]
  | some e => simp [layoutEvents, h]

variable {line : Text} {lines body : List Text} {phase phase' : TemplatePhase} {z : Zone}

/-- What an idle line means. -/
theorem IsIdle.layoutEvent?_cases (h : IsIdle line) :
    (Line.classify line).layoutEvent? = none ∧
        (∀ depth, (Line.classify line).depthBehind depth = depth) ∨
      (Line.classify line).layoutEvent? = some .opening ∧
        (∀ depth, (Line.classify line).depthBehind depth = depth + 1) ∨
      (Line.classify line).layoutEvent? = some .exit ∧ Line.classify line = .exit := by
  obtain ⟨htemplate, hzone, hcustom⟩ := h
  unfold requestsCustom at hcustom
  cases hkind : Line.classify line with
  | template t =>
    rw [hkind] at htemplate
    cases htemplate
  | focus placeholder =>
    rw [hkind] at hzone hcustom
    cases placeholder with
    | zone z => cases hzone
    | custom marker => cases hcustom
  | opening verb => exact .inr (.inl ⟨rfl, fun _ => rfl⟩)
  | exit => exact .inr (.inr ⟨rfl, rfl⟩)
  | _ => exact .inl ⟨rfl, fun _ => rfl⟩

/-! ## Walking over lines -/

/-- Lines lead from phase to phase. -/
def Leads (phase : TemplatePhase) (lines : List Text) (phase' : TemplatePhase) : Prop :=
  phase.run? (layoutEvents lines) = some phase'

theorem Leads.append {a b : List Text} {phase'' : TemplatePhase} (ha : Leads phase a phase')
    (hb : Leads phase' b phase'') : Leads phase (a ++ b) phase'' := by
  rw [Leads, layoutEvents_append, TemplatePhase.run?_append, ha]
  exact hb

theorem Leads.cons {phase'' : TemplatePhase}
    (hline : phase.run? (Line.classify line).layoutEvent?.toList = some phase')
    (h : Leads phase' lines phase'') : Leads phase (line :: lines) phase'' := by
  rw [Leads, layoutEvents_cons, TemplatePhase.run?_append, hline]
  exact h

/-- Idle lines change a phase only in the inside zone of a framed template. -/
theorem leads_of_isIdle (h : ∀ l ∈ lines, IsIdle l) (hphase : ∀ n, phase ≠ .within n) :
    Leads phase lines phase := by
  induction lines with
  | nil => rfl
  | cons line lines ih =>
    refine .cons ?_ (ih fun l hl => h l (List.mem_cons_of_mem _ hl))
    rcases (h line List.mem_cons_self).layoutEvent?_cases with
      ⟨hnone, -⟩ | ⟨hopening, -⟩ | ⟨hexit, -⟩
    · rw [hnone]
      rfl
    · rw [hopening]
      exact TemplatePhase.run?_container (.inl rfl) hphase
    · rw [hexit]
      exact TemplatePhase.run?_container (.inr rfl) hphase

theorem StaysInside.tail {depth : Nat} (h : StaysInside depth (line :: lines)) :
    StaysInside ((Line.classify line).depthBehind depth) lines := by
  intro front exit back hsplit hexit
  exact h (line :: front) exit back (by rw [hsplit]; rfl) hexit

/-- In the inside zone of a framed template, idle lines are counted like containers. -/
theorem leads_within (h : ∀ l ∈ lines, IsIdle l) {depth : Nat} (hstays : StaysInside depth lines) :
    Leads (.within (depth + 1)) lines (.within (depthBehind depth lines + 1)) := by
  induction lines generalizing depth with
  | nil => rfl
  | cons line lines ih =>
    refine .cons ?_ (ih (fun l hl => h l (List.mem_cons_of_mem _ hl)) hstays.tail)
    rcases (h line List.mem_cons_self).layoutEvent?_cases with
      ⟨hnone, hdepth⟩ | ⟨hopening, hdepth⟩ | ⟨hevent, hexit⟩
    · rw [hnone, hdepth]
      rfl
    · rw [hopening, hdepth]
      rfl
    · have hpos : 0 < depth := hstays [] line lines rfl hexit
      obtain ⟨depth, rfl⟩ : ∃ d, depth = d + 1 := ⟨depth - 1, by omega⟩
      rw [hevent, hexit]
      rfl

/-- Without a known template nothing is left to be used up. -/
theorem leads_clean (h : ∀ l ∈ lines, ∀ t, Line.classify l ≠ .template (some t)) :
    Leads .clean lines .clean := by
  induction lines with
  | nil => rfl
  | cons line lines ih =>
    refine .cons ?_ (ih fun l hl => h l (List.mem_cons_of_mem _ hl))
    have hne := h line List.mem_cons_self
    cases hkind : Line.classify line with
    | template t =>
      cases t with
      | none => rfl
      | some t => exact absurd hkind (hne t)
    | _ => rfl

/-! ## Segments -/

/-- The event of a request for a zone. -/
theorem layoutEvent?_of_zone? (h : (Line.classify line).zone? = some z) :
    (Line.classify line).layoutEvent? = some (.focus (.zone z)) := by
  cases hkind : Line.classify line with
  | focus placeholder =>
    rw [hkind] at h
    cases placeholder with
    | zone y =>
      obtain rfl := Option.some.inj h
      rfl
    | custom marker => cases h
  | _ =>
    rw [hkind] at h
    cases h

theorem isIdle_of_requests (h : requests lines = [])
    (hrest : ∀ l ∈ lines, (Line.classify l).isTemplate = false ∧ requestsCustom l = false) :
    ∀ l ∈ lines, IsIdle l := by
  intro l hl
  exact ⟨(hrest l hl).1, List.filterMap_eq_nil_iff.1 h l hl, (hrest l hl).2⟩

/-- The request for the zone before opens a template, whatever idle lines stand around it. -/
theorem leads_opened {flavor : TemplateFlavor} (h : requests lines = [.before])
    (hrest : ∀ l ∈ lines, (Line.classify l).isTemplate = false ∧ requestsCustom l = false) :
    Leads (.fresh flavor) lines (.opened flavor) := by
  induction lines with
  | nil => cases h
  | cons line lines ih =>
    have hlines := fun l hl => hrest l (List.mem_cons_of_mem line hl)
    cases hzone : (Line.classify line).zone? with
    | none =>
      rw [requests_cons_of_none hzone] at h
      have hidle : ∀ l ∈ [line], IsIdle l := by
        intro l hl
        obtain rfl := List.mem_singleton.1 hl
        exact ⟨(hrest l List.mem_cons_self).1, hzone, (hrest l List.mem_cons_self).2⟩
      have hfirst : Leads (.fresh flavor) [line] (.fresh flavor) := by
        refine leads_of_isIdle hidle ?_
        intro n hn
        cases hn
      exact hfirst.append (ih h hlines)
    | some y =>
      rw [requests_cons_of_some hzone] at h
      obtain ⟨rfl, hback⟩ := List.cons.inj h
      have hbehind : Leads (.opened flavor) lines (.opened flavor) := by
        refine leads_of_isIdle (isIdle_of_requests hback hlines) ?_
        intro n hn
        cases hn
      refine .cons ?_ hbehind
      rw [layoutEvent?_of_zone? hzone]
      rfl

/-- What stands around the last two requests. -/
theorem eq_of_eq_all {a b c : List Zone} (h : a ++ .inside :: (b ++ .after :: c) = Zone.all) :
    a = [.before] ∧ b = [] ∧ c = [] := by
  rcases a with _ | ⟨x, _ | ⟨y, a⟩⟩
  · simp [Zone.all] at h
  · cases b with
    | nil => simpa [Zone.all] using h
    | cons z b => simp [Zone.all] at h
  · have hlength := congrArg List.length h
    simp [Zone.all] at hlength
    omega

/-- From the inside zone on, a template is used up by the exit from that zone and the request for
    the after zone, with idle lines around. -/
theorem leads_entered (flavor : TemplateFlavor) {back : List Text} {exit after : Text}
    (hbody : ∀ l ∈ body, IsIdle l) (hstays : StaysInside 0 body) (hclosed : depthBehind 0 body = 0)
    (hexit : Line.classify exit = .exit) (hafter : (Line.classify after).zone? = some .after)
    (hback : ∀ l ∈ back, IsIdle l) :
    Leads (TemplatePhase.entered flavor) (body ++ exit :: after :: back) .clean := by
  have hbehind : Leads .clean back .clean := by
    refine leads_of_isIdle hback ?_
    intro n hn
    cases hn
  cases flavor with
  | framed =>
    have hwithin : Leads (.within 1) body (.within 1) := by
      have hwalk := leads_within hbody hstays
      rwa [hclosed] at hwalk
    have hlast : Leads (.within 0) (after :: back) .clean := by
      refine .cons ?_ hbehind
      rw [layoutEvent?_of_zone? hafter]
      rfl
    refine hwithin.append (.cons ?_ hlast)
    rw [hexit]
    rfl
  | plain =>
    have hwithin : Leads .clean body .clean := by
      refine leads_of_isIdle hbody ?_
      intro n hn
      cases hn
    have hlast : Leads .clean (after :: back) .clean := by
      refine .cons ?_ hbehind
      rw [layoutEvent?_of_zone? hafter]
      rfl
    refine hwithin.append (.cons ?_ hlast)
    rw [hexit]
    rfl

/-- A known template whose zones are requested in order, the after zone behind the exit from the
    inside zone, is used up. -/
theorem leads_segment {ahead rest : List Text} {t : Template}
    (hline : Line.classify line = .template (some t))
    (hrest : ∀ l ∈ rest, (Line.classify l).isTemplate = false ∧ requestsCustom l = false)
    (hzones : requests (line :: rest) = Zone.all)
    (hexit : EntersAfterBehindExit ahead (line :: rest))
    (hdepth : ∀ front request back, line :: rest = front ++ request :: back →
      (zoneEvent? request).isSome → depthBehind 0 (ahead ++ front) = 0) :
    Leads .clean (line :: rest) .clean := by
  obtain ⟨front, request, body, exit, after, back, hsplit, hinside, hexits, hafter, hclosed,
    hcount⟩ := hexit
  have hnone : (Line.classify line).zone? = none := by rw [hline]; rfl
  have hoff := hdepth front request _ hsplit (isSome_zoneEvent?_of_zone? hinside)
  obtain ⟨front, rfl⟩ : ∃ more, front = line :: more := by
    cases front with
    | nil =>
      obtain ⟨rfl, -⟩ := List.cons.inj hsplit
      rw [hnone] at hinside
      cases hinside
    | cons first front =>
      obtain ⟨rfl, -⟩ := List.cons.inj hsplit
      exact ⟨front, rfl⟩
  obtain rfl := (List.cons.inj hsplit).2
  have hrequests : requests (front ++ request :: (body ++ exit :: after :: back)) = Zone.all := by
    rwa [requests_cons_of_none hnone] at hzones
  have hexitzone : (Line.classify exit).zone? = none := by rw [hexits]; rfl
  rw [requests_append, requests_cons_of_some hinside, requests_append,
    requests_cons_of_none hexitzone, requests_cons_of_some hafter] at hrequests
  -- no zone is requested twice, so the lines around the two requests are idle
  obtain ⟨hfront, hbody, hback⟩ := eq_of_eq_all hrequests
  have hopened : Leads .clean (line :: front) (.opened t.flavor) := by
    refine .cons (by rw [hline]; rfl) (leads_opened hfront fun l hl => hrest l (by simp [hl]))
  -- containers are counted from the start of the script, and none is open at the request
  have hinner (head : List Text) :
      depthBehind 0 (ahead ++ line :: front ++ request :: head) = depthBehind 0 head := by
    rw [depthBehind_append, hoff, depthBehind_cons,
      Line.depthBehind_of_isSome_zoneEvent? (isSome_zoneEvent?_of_zone? hinside)]
  have hstays : StaysInside 0 body := fun head l tail hsplit hl => by
    rw [← hinner]
    exact hcount head l tail hsplit hl
  have hentered := leads_entered t.flavor
    (isIdle_of_requests hbody fun l hl => hrest l (by simp [hl])) hstays
    ((hinner body).symm.trans hclosed) hexits hafter
    (isIdle_of_requests hback fun l hl => hrest l (by simp [hl]))
  refine hopened.append (.cons ?_ hentered)
  rw [layoutEvent?_of_zone? hinside]
  rfl

/-! ## Scripts -/

/-- Does a segment use up its template? -/
abbrev UsesUp (segment : List Text) : Prop := Completes (layoutEvents segment)

theorem isSegment_or_forall {segment : List Text} (h : segment ∈ segments lines) :
    (∀ l ∈ segment, (Line.classify l).isTemplate = false) ∨ IsSegment segment := by
  obtain ⟨front, more, -, hfront, hmore, hsegments, -⟩ := exists_segments_eq lines
  have hcases : segment = front ∨ segment ∈ more := by
    rcases hsegments with heq | ⟨-, heq⟩
    · exact List.mem_cons.1 (heq ▸ h)
    · exact .inr (heq ▸ h)
  rcases hcases with rfl | hmem
  · exact .inl hfront
  · exact .inr (hmore segment hmem)

theorem ne_template_of_isTemplate (h : (Line.classify line).isTemplate = false) (t : Template) :
    Line.classify line ≠ .template (some t) := by
  intro hkind
  rw [hkind] at h
  cases h

/-- Without choices and requests of its own, a segment of a script with such a structure uses up its
    template. -/
theorem usesUp_of_hasZoneStructure (h : HasZoneStructure lines)
    {earlier later : List (List Text)} {segment : List Text}
    (hsplit : segments lines = earlier ++ segment :: later)
    (hchoice : ∀ l ∈ segment, insertsChoice l = false)
    (hcustom : ∀ l ∈ segment, requestsCustom l = false) : UsesUp segment := by
  have hmem : segment ∈ segments lines := by simp [hsplit]
  rcases isSegment_or_forall hmem with hnone | ⟨line, rest, t, rfl, hline, hrest⟩
  · exact leads_clean fun l hl => ne_template_of_isTemplate (hnone l hl)
  · cases t with
    | none =>
      refine leads_clean fun l hl t => ?_
      rcases List.mem_cons.1 hl with rfl | hl
      · rw [hline]
        intro hkind
        cases hkind
      · exact ne_template_of_isTemplate (hrest l hl) t
    | some t =>
      have htemplate : segmentTemplate? (line :: rest) = some t := by
        simp [segmentTemplate?, hline]
      obtain ⟨hzones, hexit⟩ := h.zones earlier _ later t hsplit htemplate hchoice
      refine leads_segment hline
        (fun l hl => ⟨hrest l hl, hcustom l (List.mem_cons_of_mem _ hl)⟩) hzones hexit
        fun front request back hparts hevent => ?_
      refine h.depth_eq_zero _ request (back ++ later.flatten) ?_ hevent
      rw [← segments_flatten lines, hsplit, List.flatten_append, List.flatten_cons, hparts]
      simp

/-- A script with such a structure uses up its templates when the segments with choices or requests
    of their own do. -/
theorem completes_of_hasZoneStructure (h : HasZoneStructure lines)
    (hsegments : ∀ segment ∈ segments lines, ∀ l ∈ segment,
      insertsChoice l ∨ requestsCustom l → UsesUp segment) :
    Completes (layoutEvents lines) := by
  have hsuffix {later : List (List Text)} :
      ∀ earlier, segments lines = earlier ++ later → Completes (layoutEvents later.flatten) := by
    induction later with
    | nil => exact fun _ _ => rfl
    | cons segment later ih =>
      intro earlier hsplit
      have hrest := ih (earlier ++ [segment]) (by simp [hsplit])
      rw [List.flatten_cons, layoutEvents_append]
      refine Completes.append ?_ hrest
      by_cases hspecial : ∃ l ∈ segment, insertsChoice l ∨ requestsCustom l
      · obtain ⟨l, hl, hkind⟩ := hspecial
        exact hsegments segment (by simp [hsplit]) l hl hkind
      · have hplain (l : Text) (hl : l ∈ segment) :
            insertsChoice l = false ∧ requestsCustom l = false := by
          have hnot : ¬ (insertsChoice l ∨ requestsCustom l) := fun hkind => hspecial ⟨l, hl, hkind⟩
          simpa using hnot
        exact usesUp_of_hasZoneStructure h hsplit (fun l hl => (hplain l hl).1)
          fun l hl => (hplain l hl).2
  rw [← segments_flatten lines]
  exact hsuffix [] rfl

end Scribe.Repair
