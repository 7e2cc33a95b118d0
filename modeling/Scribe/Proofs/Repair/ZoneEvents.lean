import Scribe.Proofs.Repair.Skeleton

set_option autoImplicit false

/-! # Templates and zone requests on the lines of a script

What the lines of a script mean for the order of zones. Once the requests are put in order, the
repairs up to the last one move, drop and add other lines only. -/

namespace Scribe.Repair

/-! ## Events -/

/-- A template is inserted, or a zone is requested. -/
inductive ZoneEvent where
  /-- Inserts a template; none if the name means no known fragment. -/
  | template (template : Option Template)
  | zone (zone : Zone)
  deriving DecidableEq, Repr

/-- What a kind of line means for the order of zones. -/
def Line.zoneEvent? : Line → Option ZoneEvent
  | .template t => some (.template t)
  | .focus (.zone z) => some (.zone z)
  | _ => none

/-- What a line means for the order of zones. -/
def zoneEvent? (line : Text) : Option ZoneEvent := (Line.classify line).zoneEvent?

/-- The templates inserted and the zones requested by the lines of a script. -/
def zoneEvents (lines : List Text) : List ZoneEvent := lines.filterMap zoneEvent?

@[simp] theorem zoneEvents_nil : zoneEvents [] = [] := rfl

@[simp] theorem zoneEvents_append (a b : List Text) :
    zoneEvents (a ++ b) = zoneEvents a ++ zoneEvents b := List.filterMap_append

theorem zoneEvents_cons (line : Text) (lines : List Text) :
    zoneEvents (line :: lines) = (zoneEvent? line).toList ++ zoneEvents lines := by
  cases h : zoneEvent? line with
  | none => simp [zoneEvents, h]
  | some e => simp [zoneEvents, h]

@[simp] theorem zoneEvents_reverse (lines : List Text) :
    zoneEvents lines.reverse = (zoneEvents lines).reverse := List.filterMap_reverse

/-- A line without an event does not count. -/
theorem zoneEvents_cons_of_none {line : Text} (h : zoneEvent? line = none) (lines : List Text) :
    zoneEvents (line :: lines) = zoneEvents lines := List.filterMap_cons_none h

theorem zoneEvents_eq_nil {lines : List Text} (h : ∀ l ∈ lines, zoneEvent? l = none) :
    zoneEvents lines = [] := by
  rw [zoneEvents, List.filterMap_eq_nil_iff]
  exact h

/-- The events of a script can be told from its skeleton. -/
theorem zoneEvents_congr {a b : List Text} (h : skeleton a = skeleton b) :
    zoneEvents a = zoneEvents b := by
  have heq := filterMap_classify_eq (f := Line.zoneEvent?) fun kind hkind => by
    cases kind with
    | focus p => cases p <;> simp_all [Line.isStructural, Line.zoneEvent?]
    | _ => simp_all [Line.isStructural, Line.zoneEvent?]
  exact (heq a).trans ((congrArg _ h).trans (heq b).symm)

/-! ## Requests -/

/-- The zones that lines request, in order. -/
def requests (lines : List Text) : List Zone := lines.filterMap fun l => (Line.classify l).zone?

@[simp] theorem requests_nil : requests [] = [] := rfl

@[simp] theorem requests_append (a b : List Text) :
    requests (a ++ b) = requests a ++ requests b := List.filterMap_append

theorem requests_cons_of_none {line : Text} (h : (Line.classify line).zone? = none)
    (lines : List Text) : requests (line :: lines) = requests lines := List.filterMap_cons_none h

theorem requests_cons_of_some {line : Text} {z : Zone} (h : (Line.classify line).zone? = some z)
    (lines : List Text) : requests (line :: lines) = z :: requests lines :=
  List.filterMap_cons_some h

/-- Lines that insert no template only request zones. -/
theorem zoneEvents_eq_map {lines : List Text}
    (h : ∀ l ∈ lines, (Line.classify l).isTemplate = false) :
    zoneEvents lines = (requests lines).map .zone := by
  induction lines with
  | nil => rfl
  | cons line lines ih =>
    have hline := h line List.mem_cons_self
    have hevent : zoneEvent? line = (Line.classify line).zone?.map .zone := by
      unfold zoneEvent?
      cases hkind : Line.classify line with
      | template t => simp [hkind, Line.isTemplate] at hline
      | focus p => cases p <;> rfl
      | _ => rfl
    rw [zoneEvents_cons, ih fun l hl => h l (List.mem_cons_of_mem _ hl), hevent]
    simp only [requests, List.filterMap_cons]
    cases (Line.classify line).zone? <;> rfl

/-! ## Events of written lines -/

@[simp] theorem zoneEvent?_enterLine : zoneEvent? enterLine = none := by
  rw [zoneEvent?, classify_enterLine]
  rfl

@[simp] theorem zoneEvent?_openBoxLine : zoneEvent? openBoxLine = none := by
  rw [zoneEvent?, classify_openBoxLine]
  rfl

@[simp] theorem zoneEvent?_exitBoxLine : zoneEvent? exitBoxLine = none := by
  rw [zoneEvent?, classify_exitBoxLine]
  rfl

@[simp] theorem zoneEvent?_alignJustifyLine : zoneEvent? alignJustifyLine = none := by
  rw [zoneEvent?, classify_alignJustifyLine]
  rfl

@[simp] theorem zone?_focusLine (z : Zone) : (Line.classify z.focusLine).zone? = some z := by
  rw [classify_focusLine]
  rfl

@[simp] theorem zone?_exitBoxLine : (Line.classify exitBoxLine).zone? = none := by
  rw [classify_exitBoxLine]
  rfl

@[simp] theorem zoneEvent?_focusLine (z : Zone) : zoneEvent? z.focusLine = some (.zone z) := by
  rw [zoneEvent?, classify_focusLine]
  rfl

theorem zoneEvents_replicate_exitBoxLine (n : Nat) :
    zoneEvents (List.replicate n exitBoxLine) = [] := by
  refine zoneEvents_eq_nil fun l hl => ?_
  rw [List.eq_of_mem_replicate hl, zoneEvent?_exitBoxLine]

/-! ## Kinds of lines without an event -/

theorem zoneEvent?_of_zone? {line : Text} {z : Zone} (h : (Line.classify line).zone? = some z) :
    zoneEvent? line = some (.zone z) := by
  unfold zoneEvent? Line.zoneEvent?
  unfold Line.zone? at h
  split at h <;> simp_all

theorem zone?_of_zoneEvent? {line : Text} {z : Zone} (h : zoneEvent? line = some (.zone z)) :
    (Line.classify line).zone? = some z := by
  unfold zoneEvent? Line.zoneEvent? at h
  unfold Line.zone?
  split at h <;> simp_all

/-- Lines that mean only requests insert no template. -/
theorem requests_eq_of_zoneEvents {lines : List Text} {zones : List Zone}
    (h : zoneEvents lines = zones.map .zone) :
    (∀ l ∈ lines, (Line.classify l).isTemplate = false) ∧ requests lines = zones := by
  have hnone : ∀ l ∈ lines, (Line.classify l).isTemplate = false := by
    intro l hl
    cases hkind : Line.classify l with
    | template t =>
      have hmem : .template t ∈ zoneEvents lines :=
        List.mem_filterMap.2 ⟨l, hl, by rw [zoneEvent?, hkind]; rfl⟩
      simp [h] at hmem
    | _ => rfl
  rw [zoneEvents_eq_map hnone] at h
  exact ⟨hnone, (List.map_inj_right fun _ _ heq => ZoneEvent.zone.inj heq).1 h⟩

/-! ## Repairs that keep the events -/

theorem zoneEvents_dropBreaks (written : List Text) :
    zoneEvents (dropBreaks written) = zoneEvents written :=
  zoneEvents_congr (skeleton_dropBreaks written)

/-- A repair that writes lines last first keeps the events if each of its steps adds the event of
    its line. -/
theorem zoneEvents_foldl {σ : Type} {f : σ → Text → σ} (w : σ → List Text)
    (hstep : ∀ state line,
      zoneEvents (w (f state line)) = (zoneEvent? line).toList ++ zoneEvents (w state))
    (state : σ) (lines : List Text) :
    zoneEvents (w (lines.foldl f state))
      = (zoneEvents lines).reverse ++ zoneEvents (w state) := by
  induction lines generalizing state with
  | nil => rfl
  | cons line lines ih =>
    rw [List.foldl_cons, ih, hstep, zoneEvents_cons, List.reverse_append, List.append_assoc]
    congr 1
    cases zoneEvent? line <;> rfl

theorem zoneEvents_closeDepth (depth : Nat) (written : List Text) :
    zoneEvents (closeDepth depth written) = zoneEvents written := by
  unfold closeDepth
  split
  · rfl
  · rw [zoneEvents_append, zoneEvents_replicate_exitBoxLine, zoneEvents_dropBreaks, List.nil_append]

theorem zoneEvents_closeOpenContainers (lines : List Text) :
    zoneEvents (closeOpenContainers lines) = zoneEvents lines := by
  simp only [closeOpenContainers]
  rw [zoneEvents_reverse, zoneEvents_closeDepth, zoneEvents_foldl Prod.snd]
  · simp
  · rintro ⟨depth, written⟩ line
    simp only [closeStep]
    split <;> simp [zoneEvents_cons, zoneEvents_closeDepth]

theorem zoneEvent?_of_endsBlock {line : Text} (h : endsBlock line = false) :
    zoneEvent? line = none := by
  unfold endsBlock at h
  unfold zoneEvent? Line.zoneEvent?
  split at h <;> simp_all

theorem zoneEvents_splitDualContent (lines : List Text) :
    zoneEvents (splitDualContent lines) = zoneEvents lines := by
  unfold splitDualContent
  split
  · rfl
  · cases hb : HeaderBlock.ofLines? lines with
    | none => rfl
    | some b =>
      obtain ⟨request, hrequest, hlines, hblock⟩ := HeaderBlock.exists_of_ofLines? hb
      have hnone : ∀ l ∈ b.block, zoneEvent? l = none := fun l hl =>
        zoneEvent?_of_endsBlock (hblock l hl)
      have hsplit := splitQuestion_append b.block
      have hcondition : zoneEvents (splitQuestion b.block).1 = [] :=
        zoneEvents_eq_nil fun l hl => hnone l (hsplit ▸ List.mem_append_left _ hl)
      have hquestion (p : Text → Bool) : zoneEvents ((splitQuestion b.block).2.filter p) = [] :=
        zoneEvents_eq_nil fun l hl =>
          hnone l (hsplit ▸ List.mem_append_right _ (List.mem_filter.1 hl).1)
      rw [Option.bind_some]
      simp only [HeaderBlock.split?]
      split
      · -- Only the inside request passes over other events, and there are none.
        rw [Option.getD_some, hlines]
        have hbreak (c : Prop) [Decidable c] : zoneEvents (if c then [enterLine] else []) = [] := by
          split
          · exact zoneEvents_cons_of_none zoneEvent?_enterLine []
          · rfl
        simp only [zoneEvents_append, zoneEvents_cons, zoneEvent?_openBoxLine,
          zoneEvent?_exitBoxLine, zoneEvent?_alignJustifyLine, zoneEvent?_focusLine, hcondition,
          hquestion, hbreak, zoneEvent?_of_zone? hrequest, zoneEvents_eq_nil hnone]
        simp
      · rfl

/-! ## Everything but the after zones -/

/-- What arranging makes of the lines before it settles their after zones. -/
def layOut (lines : List Text) : List Text :=
  stripChoiceLeadingSpace (pruneTabIndicators (isolateScoreLines (closeOpenContainers
    (dropBreakAfterExit (compactContainerBreaks (splitDualContent (orderPlaceholders lines)))))))

theorem arrange_eq_placeAfterZone (lines : List Text) :
    arrange lines = placeAfterZone (layOut lines) := rfl

/-- Behind the closing of containers the skeleton is settled, but for the after zones. -/
theorem skeleton_layOut (lines : List Text) :
    skeleton (layOut lines) = skeleton (closeOpenContainers (dropBreakAfterExit
      (compactContainerBreaks (splitDualContent (orderPlaceholders lines))))) := by
  rw [layOut, skeleton_stripChoiceLeadingSpace, skeleton_pruneTabIndicators,
    skeleton_isolateScoreLines]

/-- Once the requests are put in order, they stay as they are. -/
theorem zoneEvents_layOut (lines : List Text) :
    zoneEvents (layOut lines) = zoneEvents (orderPlaceholders lines) := by
  rw [zoneEvents_congr (skeleton_layOut lines), zoneEvents_closeOpenContainers,
    zoneEvents_congr ((skeleton_dropBreakAfterExit _).trans (skeleton_compactContainerBreaks _)),
    zoneEvents_splitDualContent]

end Scribe.Repair
