import Scribe.Proofs.Repair.ZoneEvents
import Scribe.Proofs.Repair.ZoneSteps

set_option autoImplicit false

/-! # The order of zones on the lines of a round

Behind a template of a known name, zones are requested in the order before, inside, after and no
zone twice. The walk over the lines establishes this: the zone that it takes for the current one is
the last one it wrote, and the zones it takes for used up are those up to it. Settling the after
zones keeps it, since an after zone is moved to a place behind all the others of its segment. -/

namespace Scribe.Repair

/-! ## Order -/

/-- Behind every template of a known name, up to the next template, zones are entered in order. -/
def ZonesInOrder (events : List ZoneEvent) : Prop :=
  ∀ (front : List ZoneEvent) (t : Template) (zones : List Zone) (back : List ZoneEvent),
    events = front ++ .template (some t) :: (zones.map .zone ++ back) →
      zones.Pairwise fun y z => y.rank < z.rank

/-- How far the zones of the last template have advanced. -/
structure ZoneProgress where
  /-- Was the last template one of a known name? -/
  opened : Bool := false
  /-- The zone requested last. -/
  last : Option Zone := none
  deriving DecidableEq, Repr

namespace ZoneProgress

/-- The progress behind an event; none if the event goes backward or repeats a zone. -/
def step? (p : ZoneProgress) : ZoneEvent → Option ZoneProgress
  | .template t => some ⟨t.isSome, none⟩
  | .zone z =>
    if p.opened && !p.last.all (fun y => y.rank < z.rank) then none
    else some { p with last := some z }

/-- The progress behind several events. -/
def run? (p : ZoneProgress) (events : List ZoneEvent) : Option ZoneProgress :=
  events.foldlM step? p

@[simp] theorem run?_nil (p : ZoneProgress) : p.run? [] = some p := rfl

theorem run?_cons (p : ZoneProgress) (e : ZoneEvent) (events : List ZoneEvent) :
    p.run? (e :: events) = (p.step? e).bind fun q => q.run? events := rfl

theorem run?_append (p : ZoneProgress) (a b : List ZoneEvent) :
    p.run? (a ++ b) = (p.run? a).bind fun q => q.run? b := List.foldlM_append

theorem step?_zone_of_lt {c z : Zone} (h : c.rank < z.rank) :
    step? ⟨true, some c⟩ (.zone z) = some ⟨true, some z⟩ := by
  simp [step?, h]

/-- Zones are accepted one after the other just if they are in order. -/
theorem isSome_run?_zones (last : Option Zone) (zones : List Zone) :
    (run? ⟨true, last⟩ (zones.map .zone)).isSome ↔
      (last.toList ++ zones).Pairwise fun y z => y.rank < z.rank := by
  induction zones generalizing last with
  | nil => cases last <;> simp
  | cons z zones ih =>
    rw [List.map_cons, run?_cons]
    cases last with
    | none => simpa [step?] using ih (some z)
    | some y =>
      by_cases h : y.rank < z.rank
      · rw [step?_zone_of_lt h, Option.bind_some, ih (some z)]
        constructor
        · intro hz
          refine List.pairwise_cons.2 ⟨fun x hx => ?_, hz⟩
          rcases List.mem_cons.1 hx with rfl | hx
          · exact h
          · exact Nat.lt_trans h ((List.pairwise_cons.1 hz).1 x hx)
        · exact fun hyz => (List.pairwise_cons.1 hyz).2
      · have hnone : step? ⟨true, some y⟩ (.zone z) = none := by simp [step?, h]
        rw [hnone]
        refine iff_of_false (by simp) fun hyz => h ?_
        exact (List.pairwise_cons.1 hyz).1 z List.mem_cons_self

/-- Without a known template every order is accepted. -/
theorem isSome_run?_zones_of_not_opened (last : Option Zone) (zones : List Zone) :
    (run? ⟨false, last⟩ (zones.map .zone)).isSome := by
  induction zones generalizing last with
  | nil => rfl
  | cons z zones ih => exact ih (some z)

end ZoneProgress

/-- Are the zones of these events in order, as one pass over them finds out? -/
def inOrder (events : List ZoneEvent) : Bool := (ZoneProgress.run? {} events).isSome

theorem inOrder_template_zones (t : Template) (zones : List Zone) :
    inOrder (.template (some t) :: zones.map .zone) ↔
      zones.Pairwise fun y z => y.rank < z.rank := ZoneProgress.isSome_run?_zones none zones

theorem inOrder_template_none (zones : List Zone) :
    inOrder (.template none :: zones.map .zone) :=
  ZoneProgress.isSome_run?_zones_of_not_opened none zones

theorem inOrder_zones (zones : List Zone) : inOrder (zones.map .zone) :=
  ZoneProgress.isSome_run?_zones_of_not_opened none zones

theorem inOrder_of_append_left {a b : List ZoneEvent} (h : inOrder (a ++ b)) : inOrder a := by
  unfold inOrder at *
  rw [ZoneProgress.run?_append] at h
  cases ha : ZoneProgress.run? {} a with
  | none => simp [ha] at h
  | some q => rfl

/-- Does a template come first, if there is anything? -/
def IsLed (events : List ZoneEvent) : Prop := ∀ e ∈ events.head?, ∃ t, e = .template t

/-- What starts with a template may be looked at on its own. -/
theorem inOrder_append {a b : List ZoneEvent} (hb : IsLed b) :
    inOrder (a ++ b) ↔ inOrder a ∧ inOrder b := by
  have hrun (q : ZoneProgress) : (q.run? b).isSome = inOrder b := by
    cases b with
    | nil => rfl
    | cons e b =>
      obtain ⟨t, rfl⟩ := hb e rfl
      rfl
  unfold inOrder
  rw [ZoneProgress.run?_append]
  cases ha : ZoneProgress.run? {} a with
  | none => simp
  | some q =>
    rw [Option.bind_some, hrun]
    simp [inOrder]

theorem zonesInOrder_of_inOrder {events : List ZoneEvent} (h : inOrder events) :
    ZonesInOrder events := by
  rintro front t zones back rfl
  have hled : IsLed (.template (some t) :: (zones.map .zone ++ back)) := by
    rintro e he
    exact ⟨some t, (Option.some.inj he).symm⟩
  have hback := ((inOrder_append hled).1 h).2
  rw [← List.cons_append] at hback
  exact (inOrder_template_zones t zones).1 (inOrder_of_append_left hback)

/-- From a progress on, events in order whose first zones go on from it are all accepted. -/
theorem ZoneProgress.isSome_run?_of_zonesInOrder {p : ZoneProgress} {events : List ZoneEvent}
    (h : ZonesInOrder events)
    (hfirst : p.opened = true → ∀ zones back, events = zones.map .zone ++ back →
      (p.last.toList ++ zones).Pairwise fun y z => y.rank < z.rank) :
    (p.run? events).isSome := by
  induction events generalizing p with
  | nil => rfl
  | cons e events ih =>
    have htail : ZonesInOrder events := by
      rintro front t zones back rfl
      exact h (e :: front) t zones back rfl
    rw [run?_cons]
    cases e with
    | template t =>
      refine ih htail fun hopened zones back hevents => ?_
      obtain ⟨t, rfl⟩ := Option.isSome_iff_exists.1 hopened
      exact h [] t zones back (by rw [hevents]; rfl)
    | zone z =>
      have hstep : p.step? (.zone z) = some { p with last := some z } := by
        by_cases hopened : p.opened = true
        · have hz := hfirst hopened [z] events rfl
          cases hlast : p.last with
          | none => simp [step?, hlast]
          | some y =>
            rw [hlast] at hz
            simpa [step?, hlast] using fun _ => hz
        · simp [step?, hopened]
      rw [hstep, Option.bind_some]
      refine ih htail fun hopened zones back hevents => ?_
      have hz := hfirst hopened (z :: zones) back (by rw [hevents]; rfl)
      exact (List.pairwise_append.1 hz).2.1

theorem inOrder_iff {events : List ZoneEvent} : inOrder events ↔ ZonesInOrder events :=
  ⟨zonesInOrder_of_inOrder,
    fun h => ZoneProgress.isSome_run?_of_zonesInOrder h fun hopened => absurd hopened (by decide)⟩

instance (events : List ZoneEvent) : Decidable (ZonesInOrder events) :=
  decidable_of_iff _ inOrder_iff

/-! ## The walk -/

/-- How far the zones of lines that were written last first have advanced. -/
def progress? (written : List Text) : Option ZoneProgress :=
  ZoneProgress.run? {} (zoneEvents written.reverse)

theorem progress?_cons (line : Text) (written : List Text) :
    progress? (line :: written)
      = (progress? written).bind fun p => p.run? (zoneEvent? line).toList := by
  rw [progress?, List.reverse_cons, zoneEvents_append, ZoneProgress.run?_append, progress?]
  rfl

theorem progress?_cons_of_none {line : Text} (h : zoneEvent? line = none) (written : List Text) :
    progress? (line :: written) = progress? written := by
  rw [progress?_cons, h]
  cases progress? written <;> rfl

theorem progress?_cons_of_some {line : Text} {e : ZoneEvent} (h : zoneEvent? line = some e)
    (written : List Text) :
    progress? (line :: written) = (progress? written).bind fun p => p.step? e := by
  rw [progress?_cons, h]
  cases progress? written with
  | none => rfl
  | some p =>
    show (p.step? e).bind some = p.step? e
    cases p.step? e <;> rfl

theorem progress?_replicate_exitBoxLine (n : Nat) (written : List Text) :
    progress? (List.replicate n exitBoxLine ++ written) = progress? written := by
  unfold progress?
  rw [List.reverse_append, zoneEvents_append, List.reverse_replicate,
    zoneEvents_replicate_exitBoxLine, List.append_nil]

namespace ZoneWalk

/-- The walk knows how far the zones of what it wrote have advanced: the current zone is the last
    one requested, and the zones up to it are used up. -/
def Tracks (w : ZoneWalk) : Prop :=
  match w.template with
  | none => ∃ last, progress? w.written = some ⟨false, last⟩
  | some _ => ∃ c, w.current = some c ∧ progress? w.written = some ⟨true, some c⟩ ∧
      ∀ z, z ∈ w.consumed ↔ z.rank ≤ c.rank

theorem tracks_start : Tracks {} := ⟨none, rfl⟩

/-- The invariant sees the lines only through their events. -/
theorem Tracks.congr {w v : ZoneWalk} (h : w.Tracks) (htemplate : v.template = w.template)
    (hcurrent : v.current = w.current) (hconsumed : v.consumed = w.consumed)
    (hprogress : progress? v.written = progress? w.written) : v.Tracks := by
  unfold Tracks at *
  rw [htemplate, hcurrent, hconsumed, hprogress]
  exact h

theorem Tracks.write {w : ZoneWalk} (h : w.Tracks) {line : Text} (hline : zoneEvent? line = none) :
    (w.write line).Tracks := h.congr rfl rfl rfl (progress?_cons_of_none hline _)

theorem Tracks.closeContainers {w : ZoneWalk} (h : w.Tracks) : w.closeContainers.Tracks :=
  h.congr rfl rfl rfl (progress?_replicate_exitBoxLine _ _)

/-! ### Moving forward -/

/-- Moving forward to a zone keeps track of the progress. -/
theorem Tracks.advanceTo {w : ZoneWalk} (h : w.Tracks) {t : Template}
    (ht : w.template = some t) {z : Zone} (hz : w.current.all fun c => c.rank < z.rank) :
    (w.advanceTo z).Tracks := by
  unfold Tracks at h
  rw [ht] at h
  obtain ⟨c, hcurrent, hprogress, hconsumed⟩ := h
  have hc : c.rank < z.rank := by simpa [hcurrent] using hz
  have hsome : w.template.isSome = true := by rw [ht]; rfl
  have hclosed : progress? w.closeContainers.written = some ⟨true, some c⟩ :=
    (progress?_replicate_exitBoxLine _ _).trans hprogress
  have hwritten : progress? (w.advanceTo z).written = some ⟨true, some z⟩ := by
    rcases advanceTo_cases hsome hconsumed hc with ⟨_, heq⟩ | ⟨rfl, rfl, heq⟩
    · rw [heq]
      show progress? (z.focusLine :: w.closeContainers.written) = _
      rw [progress?_cons_of_some (zoneEvent?_focusLine z), hclosed]
      exact ZoneProgress.step?_zone_of_lt hc
    · -- The inside zone is requested on the way.
      rw [heq]
      show progress? (Zone.after.focusLine :: exitBoxLine :: Zone.inside.focusLine ::
        w.closeContainers.written) = _
      rw [progress?_cons_of_some (zoneEvent?_focusLine _),
        progress?_cons_of_none zoneEvent?_exitBoxLine,
        progress?_cons_of_some (zoneEvent?_focusLine _), hclosed]
      rfl
  unfold Tracks
  rw [template_advanceTo, ht]
  exact ⟨z, rfl, hwritten, fun y => mem_consumed_advanceTo_iff hsome hconsumed hc⟩

/-! ### The lines -/

/-- A zone that is not used up lies ahead. -/
theorem Tracks.isAheadOf {w : ZoneWalk} (h : w.Tracks) {t : Template} (ht : w.template = some t)
    {z : Zone} (hz : w.consumed.contains z = false) :
    w.current.all fun c => c.rank < z.rank := by
  unfold Tracks at h
  rw [ht] at h
  obtain ⟨c, hcurrent, _, hconsumed⟩ := h
  have hz : z ∉ w.consumed := by simpa using hz
  rw [hconsumed] at hz
  rw [hcurrent]
  simpa using hz

theorem Tracks.countRequest {w : ZoneWalk} (h : w.Tracks) (z : Zone) : (w.countRequest z).Tracks :=
  h.congr (template_countRequest w z) (current_countRequest w z) (consumed_countRequest w z)
    (by rw [written_countRequest])

theorem Tracks.focus {w : ZoneWalk} (h : w.Tracks) {line : Text} {z : Zone}
    (hline : zoneEvent? line = some (.zone z)) (dual : Bool) : (w.focus dual z line).Tracks := by
  cases ht : w.template with
  | none =>
    rw [focus_eq_of_isSome_eq_false (by rw [ht]; rfl)]
    split
    · unfold Tracks at *
      rw [ht] at h
      obtain ⟨last, hlast⟩ := h
      show match w.template with | none => _ | some _ => _
      rw [ht]
      refine ⟨some z, ?_⟩
      show progress? (line :: w.written) = _
      rw [progress?_cons_of_some hline, hlast]
      rfl
    · exact h
  | some t =>
    -- Counting the requests for the inside zone touches nothing that is tracked.
    have hcounted := h.countRequest z
    rw [focus_eq (by rw [ht]; rfl)]
    split
    · split
      · exact hcounted.closeContainers
      · exact hcounted
    · next hfresh =>
      split
      · exact (hcounted.write zoneEvent?_openBoxLine).congr rfl rfl rfl rfl
      · refine hcounted.advanceTo ((template_countRequest w z).trans ht) ?_
        rw [current_countRequest]
        exact h.isAheadOf ht (by simpa using hfresh)

theorem Tracks.content {w : ZoneWalk} (h : w.Tracks) {line : Text}
    (hline : zoneEvent? line = none) (literal : Text) : (w.content literal line).Tracks := by
  have hadvance {v : ZoneWalk} (hv : v.Tracks) {z : Zone} (hmay : v.MayMoveTo z) :
      (v.advanceTo z).Tracks := by
    obtain ⟨t, ht⟩ := Option.isSome_iff_exists.1 hmay.template
    exact hv.advanceTo ht hmay.ahead
  rcases w.content_cases literal line with ⟨_, _, heq⟩ | ⟨_, _, hmay, heq⟩ | ⟨_, hmay, heq⟩ |
    ⟨_, hmay, last, earlier, hwritten, hlast, heq⟩
  · rw [heq]
    exact h.write hline
  · rw [heq]
    exact (hadvance h hmay).write hline
  · rw [heq]
    exact (hadvance h hmay).write hline
  · -- The line before is taken back, and written again behind the request.
    have hnone : zoneEvent? last = none := by rw [zoneEvent?, hlast]; rfl
    have hearlier : ({ w with written := earlier } : ZoneWalk).Tracks :=
      h.congr rfl rfl rfl (by rw [hwritten, progress?_cons_of_none hnone])
    rw [heq]
    exact ((hadvance hearlier ⟨hmay.template, hmay.plainDepth, hmay.ahead⟩).write hnone).write hline

theorem Tracks.start {w : ZoneWalk} (h : w.Tracks) {line : Text} {t : Option Template}
    (hline : zoneEvent? line = some (.template t)) (dual : Bool) (ahead : List Text) :
    (w.start dual t line ahead).Tracks := by
  unfold ZoneWalk.start
  split
  · exact h
  · obtain ⟨p, hp⟩ : ∃ p, progress? w.closeContainers.written = some p := by
      have hclosed := h.closeContainers
      unfold Tracks at hclosed
      split at hclosed
      · obtain ⟨last, hlast⟩ := hclosed
        exact ⟨_, hlast⟩
      · obtain ⟨c, _, hc, _⟩ := hclosed
        exact ⟨_, hc⟩
    have hwrite : progress? (line :: w.closeContainers.written) = some ⟨t.isSome, none⟩ := by
      rw [progress?_cons_of_some hline, hp]
      rfl
    cases t with
    | none => exact ⟨none, hwrite⟩
    | some t =>
      refine ⟨.before, rfl, ?_, fun z => ?_⟩
      · show progress? (Zone.before.focusLine :: line :: w.closeContainers.written) = _
        rw [progress?_cons_of_some (zoneEvent?_focusLine _), hwrite]
        rfl
      · show z ∈ [Zone.before] ↔ _
        cases z <;> decide

/-- A line keeps track of the progress. -/
theorem Tracks.step {w : ZoneWalk} (h : w.Tracks) (dual : Bool) (line : Text)
    (ahead : List Text) : (w.step dual line ahead).Tracks := by
  have hevent : zoneEvent? line = (Line.classify line).zoneEvent? := rfl
  unfold ZoneWalk.step
  split
  · next t hkind => exact h.start (by rw [hevent, hkind]; rfl) dual ahead
  · next z hkind => exact h.focus (by rw [hevent, hkind]; rfl) dual
  · next hkind =>
    exact (h.write (by rw [hevent, hkind]; rfl)).congr rfl rfl rfl rfl
  · next hkind =>
    have hwrite : (w.write line).Tracks := h.write (by rw [hevent, hkind]; rfl)
    split
    · exact hwrite.congr rfl rfl rfl rfl
    · exact hwrite.congr rfl rfl rfl rfl
  · next hkind => exact h.content (by rw [hevent, hkind]; rfl) _
  · next hkind => exact h.content (by rw [hevent, hkind]; rfl) _
  · next htemplate hzone _ _ _ _ =>
    refine h.write ?_
    rw [hevent]
    unfold Line.zoneEvent?
    split
    · next hkind => exact absurd hkind (htemplate _)
    · next hkind => exact absurd hkind (hzone _)
    · rfl

theorem Tracks.walk {w : ZoneWalk} (h : w.Tracks) (dual : Bool) (lines : List Text) :
    (ZoneWalk.walk dual w lines).Tracks := by
  induction lines generalizing w with
  | nil => exact h
  | cons line ahead ih => exact ih (h.step dual line ahead)

end ZoneWalk

/-- The walk puts the zones in order. -/
theorem inOrder_orderPlaceholders (lines : List Text) :
    inOrder (zoneEvents (orderPlaceholders lines)) := by
  have h := ZoneWalk.tracks_start.walk (isDual lines) lines
  unfold ZoneWalk.Tracks at h
  show (progress? _).isSome = true
  split at h
  · obtain ⟨last, hlast⟩ := h
    rw [hlast]
    rfl
  · obtain ⟨c, _, hc, _⟩ := h
    rw [hc]
    rfl

end Scribe.Repair
