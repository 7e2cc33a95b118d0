import Scribe.Proofs.Repair.AfterZone

set_option autoImplicit false

/-! # Containers are closed before the next zone

A walk over the lines counts the plain containers that are open. Closing open containers brings the
count to zero wherever a template is inserted or a zone is requested, and at the end. The repairs
behind it keep the skeleton of the script, and the after zones are entered only where the count is
zero already. -/

namespace Scribe.Repair

/-! ## Counting containers -/

/-- The plain containers open behind a line of this kind; an exit closes none if none is open. -/
def Line.depthBehind (depth : Nat) : Line → Nat
  | .opening _ => depth + 1
  | .exit => depth - 1
  | _ => depth

theorem Line.depthBehind_of_isSome_zoneEvent? {kind : Line} (h : kind.zoneEvent?.isSome = true)
    (depth : Nat) : kind.depthBehind depth = depth := by
  cases kind with
  | focus p => cases p <;> simp_all [zoneEvent?, depthBehind]
  | _ => simp_all [zoneEvent?, depthBehind]

theorem Line.depthBehind_of_isStructural {kind : Line} (h : kind.isStructural = false)
    (depth : Nat) : kind.depthBehind depth = depth ∧ kind.zoneEvent? = none := by
  cases kind with
  | focus p => cases p <;> simp_all [isStructural, depthBehind, zoneEvent?]
  | _ => simp_all [isStructural, depthBehind, zoneEvent?]

/-- The plain containers open behind several lines. -/
def depthBehind (depth : Nat) (lines : List Text) : Nat :=
  (lines.map Line.classify).foldl Line.depthBehind depth

@[simp] theorem depthBehind_nil (depth : Nat) : depthBehind depth [] = depth := rfl

@[simp] theorem depthBehind_cons (depth : Nat) (line : Text) (lines : List Text) :
    depthBehind depth (line :: lines)
      = depthBehind ((Line.classify line).depthBehind depth) lines := rfl

@[simp] theorem depthBehind_append (depth : Nat) (a b : List Text) :
    depthBehind depth (a ++ b) = depthBehind (depthBehind depth a) b := by
  rw [depthBehind, List.map_append, List.foldl_append, depthBehind, depthBehind]

/-- The count can be told from the skeleton. -/
theorem depthBehind_congr {a b : List Text} (h : skeleton a = skeleton b) (depth : Nat) :
    depthBehind depth a = depthBehind depth b := by
  have hkind (depth : Nat) (kind : Line) :
      (if kind.isStructural then kind.depthBehind depth else depth) = kind.depthBehind depth := by
    by_cases hs : kind.isStructural = true
    · rw [if_pos hs]
    · rw [if_neg hs, (Line.depthBehind_of_isStructural (by simpa using hs) depth).1]
  have hskeleton (lines : List Text) :
      depthBehind depth lines = (skeleton lines).foldl Line.depthBehind depth := by
    rw [skeleton, List.foldl_filter, depthBehind]
    simp only [hkind]
  rw [hskeleton, hskeleton, h]

theorem depthBehind_replicate_exitBoxLine (depth n : Nat) :
    depthBehind depth (List.replicate n exitBoxLine) = depth - n := by
  induction n generalizing depth with
  | zero => rfl
  | succ n ih =>
    have hexit : (Line.classify exitBoxLine).depthBehind depth = depth - 1 := by
      rw [classify_exitBoxLine]
      rfl
    rw [List.replicate_succ, depthBehind_cons, hexit, ih]
    omega

/-! ## At rest -/

/-- Is no plain container open at any template and at any zone request? -/
def AtRest (depth : Nat) : List Line → Prop
  | [] => True
  | kind :: kinds => (kind.zoneEvent?.isSome → depth = 0) ∧ AtRest (kind.depthBehind depth) kinds

theorem atRest_append {depth : Nat} {a b : List Line} :
    AtRest depth (a ++ b) ↔ AtRest depth a ∧ AtRest (a.foldl Line.depthBehind depth) b := by
  induction a generalizing depth with
  | nil => simp [AtRest]
  | cons kind a ih => rw [List.cons_append, AtRest, ih, AtRest, List.foldl_cons, and_assoc]

/-- Lines that are not structural do not disturb the rest. -/
theorem atRest_filter {depth : Nat} {kinds : List Line} :
    AtRest depth (kinds.filter Line.isStructural) ↔ AtRest depth kinds := by
  induction kinds generalizing depth with
  | nil => exact Iff.rfl
  | cons kind kinds ih =>
    by_cases hs : kind.isStructural = true
    · rw [List.filter_cons_of_pos hs, AtRest, AtRest, ih]
    · obtain ⟨hdepth, hevent⟩ := Line.depthBehind_of_isStructural (by simpa using hs) depth
      rw [List.filter_cons_of_neg hs, AtRest, hdepth, hevent, ih]
      simp

theorem atRest_of_zoneEvent?_eq_none {depth : Nat} {lines : List Text}
    (h : ∀ l ∈ lines, zoneEvent? l = none) : AtRest depth (lines.map Line.classify) := by
  induction lines generalizing depth with
  | nil => trivial
  | cons line lines ih =>
    refine ⟨fun hevent => ?_, ih fun l hl => h l (List.mem_cons_of_mem _ hl)⟩
    have hnone : (Line.classify line).zoneEvent? = none := h line List.mem_cons_self
    rw [hnone] at hevent
    simp at hevent

/-- No plain container is open at a template or at a zone request, and `depth` of them are open at
    the end. -/
structure LeavesOpen (depth : Nat) (lines : List Text) : Prop where
  atRest : AtRest 0 (lines.map Line.classify)
  depthBehind_eq : depthBehind 0 lines = depth

/-- Every plain container is closed before the next template, before the next zone request and
    before the end. -/
abbrev IsBalanced (lines : List Text) : Prop := LeavesOpen 0 lines

namespace LeavesOpen

variable {depth : Nat} {a b : List Text}

theorem nil : LeavesOpen 0 [] := ⟨trivial, rfl⟩

theorem congr (h : LeavesOpen depth a) (hab : skeleton a = skeleton b) : LeavesOpen depth b := by
  refine ⟨?_, by rw [← depthBehind_congr hab, h.depthBehind_eq]⟩
  rw [← atRest_filter, ← skeleton, ← hab, skeleton, atRest_filter]
  exact h.atRest

/-- Lines without a template and without a zone request may follow anywhere. -/
theorem append_of_none (h : LeavesOpen depth a) (hb : ∀ l ∈ b, zoneEvent? l = none) :
    LeavesOpen (depthBehind depth b) (a ++ b) := by
  refine ⟨?_, by rw [depthBehind_append, h.depthBehind_eq]⟩
  rw [List.map_append, atRest_append]
  exact ⟨h.atRest, atRest_of_zoneEvent?_eq_none hb⟩

/-- What follows where nothing is open may be looked at on its own. -/
theorem append_iff (ha : depthBehind 0 a = 0) :
    LeavesOpen depth (a ++ b) ↔ IsBalanced a ∧ LeavesOpen depth b := by
  have hrest : AtRest 0 ((a ++ b).map Line.classify)
      ↔ AtRest 0 (a.map Line.classify) ∧ AtRest 0 (b.map Line.classify) := by
    rw [List.map_append, atRest_append, ← Repair.depthBehind, ha]
  have hdepth : depthBehind 0 (a ++ b) = depthBehind 0 b := by rw [depthBehind_append, ha]
  constructor
  · rintro ⟨hab, hclosed⟩
    exact ⟨⟨(hrest.1 hab).1, ha⟩, (hrest.1 hab).2, by rw [← hdepth, hclosed]⟩
  · rintro ⟨⟨hfront, _⟩, hback, hclosed⟩
    exact ⟨hrest.2 ⟨hfront, hback⟩, by rw [hdepth, hclosed]⟩

theorem append (ha : IsBalanced a) (hb : LeavesOpen depth b) : LeavesOpen depth (a ++ b) :=
  (append_iff ha.depthBehind_eq).2 ⟨ha, hb⟩

/-- What stands in front of a template or of a zone request leaves no container open. -/
theorem depthBehind_front {front : List Text} {line : Text} {back : List Text}
    (h : LeavesOpen depth (front ++ line :: back)) (hline : (zoneEvent? line).isSome) :
    depthBehind 0 front = 0 := by
  have hrest := h.atRest
  rw [List.map_append, List.map_cons, atRest_append] at hrest
  exact hrest.2.1 hline

/-- Balanced lines may be put in where nothing is open. -/
theorem insert (h : LeavesOpen depth (a ++ b)) (ha : depthBehind 0 a = 0) {more : List Text}
    (hmore : IsBalanced more) : LeavesOpen depth (a ++ (more ++ b)) := by
  obtain ⟨hfront, hback⟩ := (append_iff ha).1 h
  exact append hfront (append hmore hback)

theorem singleton {line : Text} (h : (Line.classify line).depthBehind 0 = 0) :
    IsBalanced [line] := ⟨⟨fun _ => rfl, trivial⟩, h⟩

end LeavesOpen

theorem isBalanced_focusLine (z : Zone) : IsBalanced [z.focusLine] :=
  .singleton (by rw [classify_focusLine]; rfl)

theorem isBalanced_exitBoxLine : IsBalanced [exitBoxLine] :=
  .singleton (by rw [classify_exitBoxLine]; rfl)

/-! ## Closing containers -/

theorem LeavesOpen.closeDepth {depth : Nat} {written : List Text}
    (h : LeavesOpen depth written.reverse) : IsBalanced (closeDepth depth written).reverse := by
  unfold Repair.closeDepth
  split
  · next hzero => rwa [hzero] at h
  · have hskeleton : skeleton written.reverse = skeleton (dropBreaks written).reverse := by
      rw [skeleton_reverse, skeleton_reverse, skeleton_dropBreaks]
    rw [List.reverse_append, List.reverse_replicate]
    have hclosed := (h.congr hskeleton).append_of_none (b := List.replicate depth exitBoxLine)
      fun l hl => by rw [List.eq_of_mem_replicate hl, zoneEvent?_exitBoxLine]
    rwa [depthBehind_replicate_exitBoxLine, Nat.sub_self] at hclosed

/-- Closing open containers keeps count: the depth is the number of containers that the lines
    written so far leave open. -/
theorem LeavesOpen.closeStep {state : Nat × List Text} (h : LeavesOpen state.1 state.2.reverse)
    (line : Text) : LeavesOpen (closeStep state line).1 (closeStep state line).2.reverse := by
  obtain ⟨depth, written⟩ := state
  have hquiet (hnone : zoneEvent? line = none) :
      LeavesOpen ((Line.classify line).depthBehind depth) (line :: written).reverse := by
    rw [List.reverse_cons]
    exact h.append_of_none fun l hl => by rw [List.mem_singleton.1 hl, hnone]
  have hclosed (hzero : (Line.classify line).depthBehind 0 = 0) :
      LeavesOpen 0 (line :: Repair.closeDepth depth written).reverse := by
    rw [List.reverse_cons]
    exact h.closeDepth.append (.singleton hzero)
  have hevent : zoneEvent? line = (Line.classify line).zoneEvent? := rfl
  unfold Repair.closeStep
  cases hkind : Line.classify line with
  | template t =>
    exact hclosed (by rw [hkind]; rfl)
  | focus p =>
    cases p with
    | zone z =>
      exact hclosed (by rw [hkind]; rfl)
    | custom marker =>
      have hopen := hquiet (by rw [hevent, hkind]; rfl)
      rw [hkind] at hopen
      exact hopen
  | _ =>
    have hopen := hquiet (by rw [hevent, hkind]; rfl)
    rw [hkind] at hopen
    exact hopen

theorem isBalanced_closeOpenContainers (lines : List Text) :
    IsBalanced (closeOpenContainers lines) := by
  have hfold : LeavesOpen (lines.foldl closeStep (0, [])).1
      (lines.foldl closeStep (0, [])).2.reverse :=
    List.foldlRecOn lines closeStep
      (motive := fun (state : Nat × List Text) => LeavesOpen state.1 state.2.reverse)
      LeavesOpen.nil fun _ h line _ => h.closeStep line
  exact hfold.closeDepth

/-- The repairs behind it leave the containers as they are. -/
theorem isBalanced_layOut (lines : List Text) : IsBalanced (layOut lines) :=
  (isBalanced_closeOpenContainers _).congr (skeleton_layOut lines).symm

/-! ## The after zones -/

/-- Leaving out a request for a zone changes no count. -/
theorem depthBehind_withoutAfter (depth : Nat) (lines : List Text) :
    depthBehind depth (withoutAfter lines) = depthBehind depth lines ∧
      (AtRest depth (lines.map Line.classify) →
        AtRest depth ((withoutAfter lines).map Line.classify)) := by
  induction lines generalizing depth with
  | nil => exact ⟨rfl, id⟩
  | cons line lines ih =>
    obtain ⟨hdepth, hrest⟩ := ih ((Line.classify line).depthBehind depth)
    by_cases hafter : requestsAfter line = true
    · have hzone : (Line.classify line).zone? = some .after := by
        simpa [requestsAfter] using hafter
      have hevent : (Line.classify line).zoneEvent?.isSome = true := by
        rw [show (Line.classify line).zoneEvent? = _ from zoneEvent?_of_zone? hzone]
        rfl
      have hsame := Line.depthBehind_of_isSome_zoneEvent? hevent depth
      have hdrop : withoutAfter (line :: lines) = withoutAfter lines :=
        List.filter_cons_of_neg (by simp [hafter])
      rw [hdrop, depthBehind_cons, List.map_cons, AtRest, hsame]
      rw [hsame] at hdepth hrest
      exact ⟨hdepth, fun h => hrest h.2⟩
    · have hkeep : withoutAfter (line :: lines) = line :: withoutAfter lines :=
        List.filter_cons_of_pos (by simp [hafter])
      rw [hkeep, depthBehind_cons, depthBehind_cons, List.map_cons, List.map_cons, AtRest, AtRest]
      exact ⟨hdepth, fun h => ⟨h.1, hrest h.2⟩⟩

theorem LeavesOpen.append_withoutAfter {depth : Nat} {a b : List Text}
    (h : LeavesOpen depth (a ++ b)) : LeavesOpen depth (a ++ withoutAfter b) := by
  obtain ⟨hrest, hdepth⟩ := h
  rw [List.map_append, atRest_append] at hrest
  obtain ⟨hsame, hkept⟩ := depthBehind_withoutAfter (depthBehind 0 a) b
  refine ⟨?_, ?_⟩
  · rw [List.map_append, atRest_append]
    exact ⟨hrest.1, hkept hrest.2⟩
  · rw [depthBehind_append, hsame, ← depthBehind_append, hdepth]

/-! ### The exit of a container -/

/-- Does every exit in these lines close a container that stands in them as well, or one of the
    `depth` that are open in front? -/
def StaysInside (depth : Nat) (lines : List Text) : Prop :=
  ∀ front line back, lines = front ++ line :: back → Line.classify line = .exit →
    0 < depthBehind depth front

theorem StaysInside.cons {depth : Nat} {line : Text} {lines : List Text}
    (hline : Line.classify line = .exit → 0 < depth)
    (h : StaysInside ((Line.classify line).depthBehind depth) lines) :
    StaysInside depth (line :: lines) := by
  intro front exit back hsplit hexit
  cases front with
  | nil =>
    rw [(List.cons.inj hsplit).1] at hline
    exact hline hexit
  | cons first front =>
    obtain ⟨rfl, rfl⟩ := List.cons.inj hsplit
    exact h front exit back rfl hexit

theorem staysInside_nil (depth : Nat) : StaysInside depth [] := by
  intro front line back hsplit
  simp at hsplit

/-- The first exit that closes the container: what precedes it closes whatever it opens. -/
theorem exists_of_throughExit? {depth : Nat} {lines inner rest : List Text}
    (h : throughExit? depth lines = some (inner, rest)) :
    ∃ body exit, inner = body ++ [exit] ∧ Line.classify exit = .exit ∧
      depthBehind depth body = 0 ∧ StaysInside depth body := by
  induction lines generalizing depth inner with
  | nil => simp [throughExit?] at h
  | cons line lines ih =>
    -- A line that does not end the container is one more line of the body.
    have hgo {depth' : Nat} (hdepth : (Line.classify line).depthBehind depth = depth')
        (hline : Line.classify line = .exit → 0 < depth)
        (h : ((throughExit? depth' lines).map fun r => (line :: r.1, r.2)) = some (inner, rest)) :
        ∃ body exit, inner = body ++ [exit] ∧ Line.classify exit = .exit ∧
          depthBehind depth body = 0 ∧ StaysInside depth body := by
      obtain ⟨⟨i, r⟩, hir, heq⟩ := Option.map_eq_some_iff.1 h
      cases heq
      obtain ⟨body, exit, rfl, hexit, hclosed, hinside⟩ := ih hir
      refine ⟨line :: body, exit, rfl, hexit, ?_, .cons hline ?_⟩
      · rwa [depthBehind_cons, hdepth]
      · rwa [hdepth]
    unfold throughExit? at h
    cases hkind : Line.classify line with
    | opening verb =>
      rw [hkind] at h
      exact hgo (by rw [hkind]; rfl) (fun he => by rw [hkind] at he; simp at he) h
    | exit =>
      rw [hkind] at h
      by_cases hzero : depth = 0
      · simp only [hzero, if_true] at h
        cases h
        exact ⟨[], line, rfl, hkind, hzero, staysInside_nil depth⟩
      · simp only [hzero, if_false] at h
        exact hgo (by rw [hkind]; rfl) (fun _ => Nat.pos_of_ne_zero hzero) h
    | template t =>
      rw [hkind] at h
      simp at h
    | _ =>
      rw [hkind] at h
      exact hgo (by rw [hkind]; rfl) (fun he => by rw [hkind] at he; simp at he) h

/-- Without such an exit, the container stays open up to the next template. -/
theorem staysInside_of_throughExit?_eq_none {depth : Nat} {lines : List Text}
    (h : throughExit? depth lines = none)
    (hlines : ∀ l ∈ lines, (Line.classify l).isTemplate = false) : StaysInside depth lines := by
  induction lines generalizing depth with
  | nil => exact staysInside_nil depth
  | cons line lines ih =>
    have hline := hlines line List.mem_cons_self
    -- A line that the search passes does not end the container.
    have hgo {depth' : Nat} (hdepth : (Line.classify line).depthBehind depth = depth')
        (hexit : Line.classify line = .exit → 0 < depth)
        (h : ((throughExit? depth' lines).map fun r => (line :: r.1, r.2)) = none) :
        StaysInside depth (line :: lines) := by
      refine .cons hexit ?_
      rw [hdepth]
      exact ih (Option.map_eq_none_iff.1 h) fun l hl => hlines l (List.mem_cons_of_mem _ hl)
    unfold throughExit? at h
    cases hkind : Line.classify line with
    | opening verb =>
      rw [hkind] at h
      exact hgo (by rw [hkind]; rfl) (fun he => by rw [hkind] at he; simp at he) h
    | exit =>
      rw [hkind] at h
      by_cases hzero : depth = 0
      · simp [hzero] at h
      · simp only [hzero, if_false] at h
        exact hgo (by rw [hkind]; rfl) (fun _ => Nat.pos_of_ne_zero hzero) h
    | template t => simp [hkind, Line.isTemplate] at hline
    | _ =>
      rw [hkind] at h
      exact hgo (by rw [hkind]; rfl) (fun he => by rw [hkind] at he; simp at he) h

/-! ### One segment -/

theorem isSome_zoneEvent?_of_zone? {line : Text} {z : Zone}
    (h : (Line.classify line).zone? = some z) : (zoneEvent? line).isSome := by
  rw [zoneEvent?_of_zone? h]
  rfl

/-- Entering the after zone leaves no container open. -/
theorem isBalanced_enterAfterZone {lines : List Text} (h : IsBalanced lines) :
    IsBalanced (enterAfterZone lines) := by
  have hafter := isBalanced_focusLine .after
  have htrim : IsBalanced (trimBreaks lines) := h.congr (skeleton_trimBreaks lines).symm
  rcases enterAfterZone_cases lines with
    ⟨front, request, inner, rest, rfl, hinside, hthrough, heq⟩ |
    ⟨front, request, back, rfl, hinside, _, heq⟩ | ⟨_, heq⟩
  · have hfront := h.depthBehind_front (isSome_zoneEvent?_of_zone? hinside)
    have hrequest : (Line.classify request).depthBehind 0 = 0 :=
      Line.depthBehind_of_isSome_zoneEvent? (isSome_zoneEvent?_of_zone? hinside) 0
    obtain ⟨body, exit, rfl, hexit, hclosed, _⟩ := exists_of_throughExit? hthrough
    have hhead : depthBehind 0 (front ++ request :: (body ++ [exit])) = 0 := by
      rw [depthBehind_append, hfront, depthBehind_cons, hrequest, depthBehind_append, hclosed,
        depthBehind_cons, hexit]
      rfl
    have happ : front ++ request :: (body ++ [exit] ++ rest)
        = (front ++ request :: (body ++ [exit])) ++ rest := by simp
    rw [happ] at h
    have hinsert := h.insert hhead hafter
    rw [heq]
    simpa using hinsert
  · have hbreak := Line.isBreak_of_zone? hinside
    rw [trimBreaks_append_cons front hbreak] at htrim
    rw [heq]
    have hmore := htrim.append (isBalanced_exitBoxLine.append hafter)
    simpa using hmore
  · have hmore := (isBalanced_focusLine .inside).append (isBalanced_exitBoxLine.append hafter)
    rw [heq]
    exact htrim.append hmore

theorem isBalanced_placeInSegment {segment : List Text} (h : IsBalanced segment) :
    IsBalanced (placeInSegment segment) := by
  have hkept : IsBalanced (withoutAfter segment) := LeavesOpen.append_withoutAfter (a := []) h
  rcases placeInSegment_cases segment with ⟨front, choice, behind, rfl, _, _, heq⟩ | ⟨_, _, heq⟩ |
    ⟨_, _, heq⟩
  · rw [heq]
    have happ (lines : List Text) : front ++ choice :: lines = (front ++ [choice]) ++ lines := by
      simp
    rw [happ] at h ⊢
    exact h.append_withoutAfter
  · rw [heq]
    exact hkept
  · rw [heq]
    exact isBalanced_enterAfterZone hkept

/-! ### All segments -/

/-- Where segments start with their templates, each is balanced in itself. -/
theorem isBalanced_of_flatten {front : List Text} {more : List (List Text)}
    (hmore : ∀ s ∈ more, IsSegment s) (h : IsBalanced (front ++ more.flatten)) :
    IsBalanced front ∧ ∀ s ∈ more, IsBalanced s := by
  induction more generalizing front with
  | nil =>
    rw [List.flatten_nil, List.append_nil] at h
    exact ⟨h, fun s hs => absurd hs List.not_mem_nil⟩
  | cons segment more ih =>
    obtain ⟨line, rest, t, rfl, hline, _⟩ := hmore segment List.mem_cons_self
    have hevent : (zoneEvent? line).isSome := by
      rw [zoneEvent?, hline]
      rfl
    rw [List.flatten_cons, List.cons_append] at h
    obtain ⟨hfront, hback⟩ := (LeavesOpen.append_iff (h.depthBehind_front hevent)).1 h
    rw [← List.cons_append] at hback
    obtain ⟨hsegment, hsegments⟩ := ih (fun s hs => hmore s (List.mem_cons_of_mem _ hs)) hback
    exact ⟨hfront, List.forall_mem_cons.2 ⟨hsegment, hsegments⟩⟩

theorem isBalanced_placeAfterZone {lines : List Text} (h : IsBalanced lines) :
    IsBalanced (placeAfterZone lines) := by
  obtain ⟨front, more, rfl, _, hmore, _, heq⟩ := exists_segments_eq lines
  obtain ⟨hfront, hsegments⟩ := isBalanced_of_flatten hmore h
  have hflat (more : List (List Text)) (h : ∀ s ∈ more, IsBalanced s) :
      IsBalanced (more.flatMap placeInSegment) := by
    induction more with
    | nil => exact .nil
    | cons segment more ih =>
      rw [List.flatMap_cons]
      exact (isBalanced_placeInSegment (h segment List.mem_cons_self)).append
        (ih fun s hs => h s (List.mem_cons_of_mem _ hs))
  rw [heq]
  exact (isBalanced_placeInSegment hfront).append (hflat more hsegments)

end Scribe.Repair
