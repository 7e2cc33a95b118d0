import Mathlib.Data.List.Induction
import Scribe.Proofs.Repair.ContainerDepth

set_option autoImplicit false

/-! # Tidy containers

Three repairs settle breaks and exits one after the other: the first leaves single breaks in
containers and none in front of an exit, the second drops those behind an exit, and the third closes
what is still open. Main statement: none undoes what those before it have done. The containers that
the first repair sees open are not those of the result, since the third adds exits; but what is open
in the result was open for the first repair too, and that is enough. -/

namespace Scribe.Repair

/-! ## Nesting behind lines -/

/-- The containers open behind lines. -/
def Nesting.behind (lines : List Text) : Nesting :=
  (lines.map Line.classify).foldl Nesting.observe {}

section Nesting

theorem Nesting.behind_concat (lines : List Text) (line : Text) :
    behind (lines ++ [line]) = (behind lines).observe (Line.classify line) := by
  rw [behind, List.map_append, List.foldl_append]
  rfl

theorem Nesting.observe_of_isBreak {kind : Line} (h : kind.isBreak = true) (n : Nesting) :
    n.observe kind = n := by
  cases kind with
  | lineBreak => rfl
  | _ => cases h

/-- Plain containers are counted as ever. -/
theorem Nesting.plainDepth_observe (n : Nesting) (kind : Line) :
    (n.observe kind).plainDepth = kind.depthBehind n.plainDepth := by
  cases kind with
  | exit =>
    simp only [observe, Line.depthBehind]
    split
    · rfl
    · show n.plainDepth = n.plainDepth - 1
      omega
  | _ => rfl

theorem Nesting.plainDepth_behind (lines : List Text) :
    (behind lines).plainDepth = depthBehind 0 lines := by
  induction lines using List.reverseRecOn with
  | nil => rfl
  | append_singleton lines line ih =>
    rw [behind_concat, plainDepth_observe, ih, depthBehind_append]
    rfl

/-- Whatever is open in the one nesting is open in the other. -/
structure Nesting.Within (n m : Nesting) : Prop where
  plainDepth_le : n.plainDepth ≤ m.plainDepth
  inZone_of : n.inZone = true → m.inZone = true

theorem Nesting.Within.inside_eq_false {n m : Nesting} (h : n.Within m) (hm : m.inside = false) :
    n.inside = false := by
  have hdepth := h.plainDepth_le
  have hzone := h.inZone_of
  cases hn : n.inZone <;> simp_all [inside]

/-- An exit from a plain container that is open for the one only leaves the zone of the other. -/
theorem Nesting.Within.observe {n m : Nesting} (h : n.Within m) (kind : Line) :
    (n.observe kind).Within (m.observe kind) := by
  obtain ⟨hdepth, hzone⟩ := h
  cases kind with
  | opening _ => exact ⟨Nat.succ_le_succ hdepth, hzone⟩
  | exit =>
    simp only [Nesting.observe]
    split
    · next hn =>
      rw [if_pos (Nat.lt_of_lt_of_le hn hdepth)]
      exact ⟨Nat.sub_le_sub_right hdepth 1, hzone⟩
    · next hn =>
      have hzero : n.plainDepth = 0 := by omega
      split
      · exact ⟨by simp [hzero], nofun⟩
      · exact ⟨hdepth, nofun⟩
  | focus _ => exact ⟨hdepth, id⟩
  | template _ => exact ⟨hdepth, id⟩
  | _ => exact ⟨hdepth, hzone⟩

end Nesting

/-! ## Tidy lines -/

/-- No break is doubled inside a container, none stands before the exit that closes a container and
    none behind an exit; and every plain container is closed before each template, before each
    request for a zone and at the end. -/
structure HasTidyContainers (lines : List Text) : Prop where
  single : ∀ front a b back, lines = front ++ a :: b :: back →
    (Line.classify a).isBreak = true → (Line.classify b).isBreak = true →
    (Nesting.behind front).inside = false
  beforeExit : ∀ front a b back, lines = front ++ a :: b :: back →
    (Line.classify a).isBreak = true → (Line.classify b).isExit = true →
    (Nesting.behind (front ++ [a])).inside = false
  behindExit : ∀ front a b back, lines = front ++ a :: b :: back →
    (Line.classify a).isExit = true → (Line.classify b).isBreak = false
  closed : ∀ front line back, lines = front ++ line :: back →
    (Line.classify line).isTemplate = true ∨ (Line.classify line).zone?.isSome = true →
    (Nesting.behind front).plainDepth = 0
  closed_end : (Nesting.behind lines).plainDepth = 0

/-! ## Lines written last first -/

/-- Is the last line that was written an exit? -/
def endsInExit (written : List Text) : Bool :=
  written.head?.any fun line => (Line.classify line).isExit

/-- A break or an exit may follow a break only where no container is open. -/
def BreaksApart (written : List Text) (line : Text) : Prop :=
  endsInBreak written = true →
    (Line.classify line).isBreak = true ∨ (Line.classify line).isExit = true →
    (Nesting.behind written.reverse).inside = false

/-- No break may follow an exit. -/
def ExitsApart (written : List Text) (line : Text) : Prop :=
  (Line.classify line).isBreak = true → endsInExit written = false

/-- Of lines written last first, does each satisfy `p` behind those that were written before? -/
def Each (p : List Text → Text → Prop) : List Text → Prop
  | [] => True
  | line :: written => p written line ∧ Each p written

section Written

variable {p : List Text → Text → Prop} {written : List Text} {line : Text}

theorem Each.of_append {more : List Text} (h : Each p (more ++ written)) : Each p written := by
  induction more with
  | nil => exact h
  | cons line more ih => exact ih h.2

theorem Each.of_eq {lines front back : List Text} (h : Each p lines.reverse)
    (hlines : lines = front ++ line :: back) : p front.reverse line := by
  subst hlines
  rw [List.reverse_append, List.reverse_cons, List.append_assoc] at h
  exact h.of_append.1

theorem each_dropBreaks (h : Each p written) : Each p (dropBreaks written) := by
  rw [← List.takeWhile_append_dropWhile (p := fun l => (Line.classify l).isBreak) (l := written)]
    at h
  exact h.of_append

theorem endsInBreak_dropBreaks (written : List Text) :
    endsInBreak (dropBreaks written) = false := by
  have h := List.head?_dropWhile_not (fun l => (Line.classify l).isBreak) written
  rw [endsInBreak, dropBreaks]
  cases hhead : (written.dropWhile fun l => (Line.classify l).isBreak).head? with
  | none => rfl
  | some l => simpa [hhead] using h

theorem behind_dropBreaks (written : List Text) :
    Nesting.behind (dropBreaks written).reverse = Nesting.behind written.reverse := by
  induction written with
  | nil => rfl
  | cons line written ih =>
    unfold dropBreaks at ih ⊢
    rw [List.dropWhile_cons]
    split
    · next h => rw [ih, List.reverse_cons, Nesting.behind_concat, Nesting.observe_of_isBreak h]
    · rfl

theorem Line.isExit_of_isBreak {kind : Line} (h : kind.isBreak = true) : kind.isExit = false :=
  Line.isExit_of_isStructural (Line.isStructural_of_isBreak h)

theorem endsInExit_of_endsInBreak (h : endsInBreak written = true) :
    endsInExit written = false := by
  cases written with
  | nil => rfl
  | cons line written => exact Line.isExit_of_isBreak h

end Written

/-- What each line of a script keeps about the lines read and what was written, all of it last line
    first, holds at the end. -/
theorem foldl_keeps {σ : Type} {f : σ → Text → σ} {p : List Text → Text → Prop}
    {inv : List Text → σ → Prop}
    (hstep : ∀ read state line, inv read state → p read line → inv (line :: read) (f state line))
    {lines : List Text} (hlines : Each p lines.reverse) {state : σ} (hstart : inv [] state) :
    inv lines.reverse (lines.foldl f state) := by
  induction lines using List.reverseRecOn with
  | nil => exact hstart
  | append_singleton lines line ih =>
    rw [List.reverse_append, List.reverse_singleton, List.singleton_append] at hlines ⊢
    rw [List.foldl_append]
    exact hstep _ _ _ (ih hlines.2) hlines.1

/-! ## Breaks inside containers -/

/-- The nesting is that of the lines written, and their breaks are apart. -/
structure Compacted (state : Nesting × List Text) : Prop where
  nesting_eq : state.1 = Nesting.behind state.2.reverse
  breaksApart : Each BreaksApart state.2

theorem Compacted.step {state : Nesting × List Text} (h : Compacted state) (line : Text) :
    Compacted (compactStep state line) := by
  obtain ⟨nesting, written⟩ := state
  obtain ⟨hnesting, hapart⟩ := h
  simp only at hnesting hapart
  subst hnesting
  have hcons {earlier : List Text} (hsame : Nesting.behind earlier.reverse
      = Nesting.behind written.reverse) (hearlier : Each BreaksApart earlier)
      (hline : BreaksApart earlier line) :
      Compacted ((Nesting.behind written.reverse).observe (Line.classify line), line :: earlier) :=
    ⟨by rw [List.reverse_cons, Nesting.behind_concat, hsame], hline, hearlier⟩
  simp only [compactStep]
  split
  · next hbreak =>
    split
    · exact ⟨rfl, hapart⟩
    · next hlast =>
      refine ⟨?_, fun hends => absurd hends hlast, hapart⟩
      rw [List.reverse_cons, Nesting.behind_concat, classify_enterLine]
      rfl
  · next hopen =>
    split
    · refine hcons (behind_dropBreaks written) (each_dropBreaks hapart) fun hends => ?_
      rw [endsInBreak_dropBreaks] at hends
      exact absurd hends (by decide)
    · next hexit =>
      refine hcons rfl hapart fun _ hkind => ?_
      rcases hkind with hkind | hkind
      · simpa [hkind] using hopen
      · simpa [hkind] using hexit

theorem breaksApart_compactContainerBreaks (lines : List Text) :
    Each BreaksApart (compactContainerBreaks lines).reverse := by
  rw [compactContainerBreaks, List.reverse_reverse]
  have hstart : Compacted ({}, []) := ⟨rfl, trivial⟩
  exact (List.foldlRecOn lines compactStep hstart fun _ h line _ => h.step line).breaksApart

/-! ## Breaks behind exits -/

/-- What the lines written have in common with those read: they end in an exit, or in a break just
    if the lines read do. -/
structure Exited (read written : List Text) : Prop where
  behind_eq : Nesting.behind written.reverse = Nesting.behind read.reverse
  breaksApart : Each BreaksApart written
  exitsApart : Each ExitsApart written
  ends : endsInExit written = true ∨ endsInBreak written = endsInBreak read

theorem Exited.step {read written : List Text} {line : Text} (h : Exited read written)
    (hline : BreaksApart read line) : Exited (line :: read) (exitStep written line) := by
  have hcons (hexit : ExitsApart written line) : Exited (line :: read) (line :: written) := by
    refine ⟨?_, ⟨fun hends hkind => ?_, h.breaksApart⟩, ⟨hexit, h.exitsApart⟩, .inr rfl⟩
    · rw [List.reverse_cons, List.reverse_cons, Nesting.behind_concat, Nesting.behind_concat,
        h.behind_eq]
    · rcases h.ends with hexited | hsame
      · rw [endsInExit_of_endsInBreak hends] at hexited
        exact absurd hexited (by decide)
      · rw [h.behind_eq]
        exact hline (hsame ▸ hends) hkind
  unfold exitStep
  split
  · next hdrop =>
    obtain ⟨hbreak, hends⟩ := Bool.and_eq_true_iff.1 hdrop
    refine ⟨?_, h.breaksApart, h.exitsApart, .inl hends⟩
    rw [List.reverse_cons, Nesting.behind_concat, Nesting.observe_of_isBreak hbreak, h.behind_eq]
  · next hkeep =>
    refine hcons fun hbreak => ?_
    rw [hbreak, Bool.true_and] at hkeep
    simpa [endsInExit] using hkeep

theorem exited_dropBreakAfterExit {lines : List Text} (h : Each BreaksApart lines.reverse) :
    Exited lines.reverse (dropBreakAfterExit lines).reverse := by
  rw [dropBreakAfterExit, List.reverse_reverse]
  exact foldl_keeps (fun _ _ _ hinv hline => hinv.step hline) h ⟨rfl, trivial, trivial, .inr rfl⟩

/-! ## Open containers -/

/-- What is open behind the lines written was open behind the lines read, and the depth counts it;
    both end in the same line. -/
structure Closed (read : List Text) (state : Nat × List Text) : Prop where
  within : (Nesting.behind state.2.reverse).Within (Nesting.behind read.reverse)
  depth_eq : state.1 = (Nesting.behind state.2.reverse).plainDepth
  breaksApart : Each BreaksApart state.2
  exitsApart : Each ExitsApart state.2
  head?_eq : state.2.head? = read.head?

section Closing

variable {read written : List Text} {depth : Nat} {line : Text}

theorem behind_replicate_exitBoxLine {n k : Nat} {inZone : Bool}
    (h : Nesting.behind written.reverse = ⟨n + k, inZone⟩) :
    Nesting.behind (List.replicate n exitBoxLine ++ written).reverse = ⟨k, inZone⟩ := by
  induction n generalizing k with
  | zero => simpa using h
  | succ n ih =>
    rw [List.replicate_succ, List.cons_append, List.reverse_cons, Nesting.behind_concat,
      ih (k := k + 1) (by rw [h, Nat.add_right_comm, Nat.add_assoc]), classify_exitBoxLine]
    simp [Nesting.observe]

/-- Closing what is open leaves the zone as it is. -/
theorem behind_closeDepth (hdepth : depth = (Nesting.behind written.reverse).plainDepth) :
    Nesting.behind (closeDepth depth written).reverse
      = { Nesting.behind written.reverse with plainDepth := 0 } := by
  unfold closeDepth
  split
  · next hzero =>
    rw [← hzero, hdepth]
  · refine behind_replicate_exitBoxLine ?_
    rw [behind_dropBreaks, hdepth]
    rfl

theorem each_closeDepth {p : List Text → Text → Prop} (h : Each p written)
    (hexit : ∀ earlier, endsInBreak earlier = false → p earlier exitBoxLine) (depth : Nat) :
    Each p (closeDepth depth written) := by
  unfold closeDepth
  split
  · exact h
  · have hexits (n : Nat) : Each p (List.replicate n exitBoxLine ++ dropBreaks written) ∧
        endsInBreak (List.replicate n exitBoxLine ++ dropBreaks written) = false := by
      induction n with
      | zero => exact ⟨each_dropBreaks h, endsInBreak_dropBreaks written⟩
      | succ n ih =>
        exact ⟨⟨hexit _ ih.2, ih.1⟩, by simp [endsInBreak, List.replicate_succ, Line.isBreak]⟩
    exact (hexits depth).1

theorem breaksApart_exitBoxLine (h : endsInBreak written = false) :
    BreaksApart written exitBoxLine := fun hends _ => by
  rw [h] at hends
  exact absurd hends (by decide)

theorem exitsApart_exitBoxLine : ExitsApart written exitBoxLine := fun hbreak => by
  rw [classify_exitBoxLine] at hbreak
  exact absurd hbreak (by decide)

/-- A line that is written as it is, where the depth follows the nesting. -/
theorem Closed.keep (h : Closed read (depth, written)) (hbreaks : BreaksApart read line)
    (hexits : ExitsApart read line) :
    Closed (line :: read) ((Line.classify line).depthBehind depth, line :: written) := by
  obtain ⟨hwithin, hdepth, hapart, hexited, hhead⟩ := h
  simp only at hwithin hdepth hapart hexited hhead
  have hlast : endsInBreak written = endsInBreak read ∧ endsInExit written = endsInExit read := by
    rw [endsInBreak, endsInExit, hhead]
    exact ⟨rfl, rfl⟩
  refine ⟨?_, ?_, ⟨fun hends hkind => ?_, hapart⟩, ⟨fun hkind => ?_, hexited⟩, rfl⟩
  · simp only [List.reverse_cons, Nesting.behind_concat]
    exact hwithin.observe _
  · simp only [List.reverse_cons, Nesting.behind_concat, Nesting.plainDepth_observe, hdepth]
  · exact hwithin.inside_eq_false (hbreaks (hlast.1 ▸ hends) hkind)
  · rw [hlast.2]
    exact hexits hkind

/-- A line in front of which every plain container is closed. -/
theorem Closed.close (h : Closed read (depth, written))
    (hkind : (Line.classify line).zoneEvent?.isSome = true) :
    Closed (line :: read) (0, line :: closeDepth depth written) := by
  obtain ⟨hwithin, hdepth, hapart, hexited, -⟩ := h
  simp only at hwithin hdepth hapart hexited
  have hclosed := behind_closeDepth hdepth
  have hquiet : (Line.classify line).isBreak = false ∧ (Line.classify line).isExit = false := by
    cases hline : Line.classify line <;> simp_all [Line.zoneEvent?, Line.isBreak, Line.isExit]
  have hdeep : (Nesting.behind (closeDepth depth written).reverse).Within
      (Nesting.behind read.reverse) := by
    rw [hclosed]
    exact ⟨Nat.zero_le _, hwithin.inZone_of⟩
  refine ⟨?_, ?_,
    ⟨fun _ hline => ?_, each_closeDepth hapart (fun _ => breaksApart_exitBoxLine) depth⟩,
    ⟨fun hline => ?_, each_closeDepth hexited (fun _ _ => exitsApart_exitBoxLine) depth⟩, rfl⟩
  · simp only [List.reverse_cons, Nesting.behind_concat]
    exact hdeep.observe _
  · simp only [List.reverse_cons, Nesting.behind_concat, Nesting.plainDepth_observe, hclosed,
      Line.depthBehind_of_isSome_zoneEvent? hkind]
  · rw [hquiet.1, hquiet.2] at hline
    simp at hline
  · rw [hquiet.1] at hline
    exact absurd hline (by decide)

theorem Closed.step {state : Nat × List Text} (h : Closed read state)
    (hbreaks : BreaksApart read line) (hexits : ExitsApart read line) :
    Closed (line :: read) (closeStep state line) := by
  obtain ⟨depth, written⟩ := state
  have hkept := h.keep hbreaks hexits
  unfold closeStep
  cases hkind : Line.classify line with
  | template t => exact h.close (by rw [hkind]; rfl)
  | focus p =>
    cases p with
    | zone z => exact h.close (by rw [hkind]; rfl)
    | custom marker =>
      rw [hkind] at hkept
      exact hkept
  | _ =>
    rw [hkind] at hkept
    exact hkept

end Closing

theorem each_closeOpenContainers {lines : List Text} (hbreaks : Each BreaksApart lines.reverse)
    (hexits : Each ExitsApart lines.reverse) :
    Each BreaksApart (closeOpenContainers lines).reverse ∧
      Each ExitsApart (closeOpenContainers lines).reverse := by
  have hboth : Each (fun read line => BreaksApart read line ∧ ExitsApart read line)
      lines.reverse := by
    generalize lines.reverse = read at hbreaks hexits
    induction read with
    | nil => trivial
    | cons line read ih => exact ⟨⟨hbreaks.1, hexits.1⟩, ih hbreaks.2 hexits.2⟩
  have hstart : Closed [] (0, []) := ⟨⟨Nat.le_refl _, id⟩, rfl, trivial, trivial, rfl⟩
  have h : Closed lines.reverse (lines.foldl closeStep (0, [])) :=
    foldl_keeps (fun _ _ _ hinv hline => hinv.step hline.1 hline.2) hboth hstart
  rw [closeOpenContainers, List.reverse_reverse]
  exact ⟨each_closeDepth h.breaksApart (fun _ => breaksApart_exitBoxLine) _,
    each_closeDepth h.exitsApart (fun _ _ => exitsApart_exitBoxLine) _⟩

theorem hasTidyContainers_of_each {lines : List Text} (hbreaks : Each BreaksApart lines.reverse)
    (hexits : Each ExitsApart lines.reverse) (hbalanced : IsBalanced lines) :
    HasTidyContainers lines := by
  have hcut {front back : List Text} {a b : Text} (h : lines = front ++ a :: b :: back) :
      lines = (front ++ [a]) ++ b :: back := by rw [h, List.append_assoc]; rfl
  refine ⟨fun front a b back h ha hb => ?_, fun front a b back h ha hb => ?_,
    fun front a b back h ha => ?_, fun front line back h hline => ?_, ?_⟩
  · have hinside := hbreaks.of_eq (hcut h)
    rw [List.reverse_append, List.reverse_singleton, List.singleton_append] at hinside
    have hoff := hinside ha (.inl hb)
    rwa [List.reverse_cons, List.reverse_reverse, Nesting.behind_concat,
      Nesting.observe_of_isBreak ha] at hoff
  · have hinside := hbreaks.of_eq (hcut h)
    rw [List.reverse_append, List.reverse_singleton, List.singleton_append] at hinside
    have hoff := hinside ha (.inr hb)
    rwa [List.reverse_cons, List.reverse_reverse] at hoff
  · have hexit := hexits.of_eq (hcut h)
    rw [List.reverse_append, List.reverse_singleton, List.singleton_append] at hexit
    cases hb : (Line.classify b).isBreak with
    | false => rfl
    | true =>
      have hends : (Line.classify a).isExit = false := hexit hb
      rw [ha] at hends
      exact absurd hends (by decide)
  · have hevent : (Line.classify line).zoneEvent?.isSome = true := by
      cases hkind : Line.classify line with
      | focus p => cases p <;> simp_all [Line.isTemplate, Line.zone?, Line.zoneEvent?]
      | _ => simp_all [Line.isTemplate, Line.zone?, Line.zoneEvent?]
    rw [h] at hbalanced
    rw [Nesting.plainDepth_behind]
    exact hbalanced.depthBehind_front hevent
  · rw [Nesting.plainDepth_behind]
    exact hbalanced.depthBehind_eq

/-! ## What changes -/

/-- `b` comes from `a` by leaving out breaks or writing them anew, and by adding exits. -/
inductive Tidies : List Text → List Text → Prop where
  | nil : Tidies [] []
  | keep (line : Text) {a b : List Text} : Tidies a b → Tidies (line :: a) (line :: b)
  | drop {line : Text} {a b : List Text} (h : (Line.classify line).isBreak = true) :
      Tidies a b → Tidies (line :: a) b
  | renew {line : Text} {a b : List Text} (h : (Line.classify line).isBreak = true) :
      Tidies a b → Tidies (line :: a) (enterLine :: b)
  | exit {a b : List Text} : Tidies a b → Tidies a (exitBoxLine :: b)

namespace Tidies

variable {a b c d : List Text}

theorem refl (a : List Text) : Tidies a a := by
  induction a with
  | nil => exact .nil
  | cons line a ih => exact .keep line ih

theorem dropAll {front : List Text} (hfront : ∀ l ∈ front, (Line.classify l).isBreak = true)
    (h : Tidies a b) : Tidies (front ++ a) b := by
  induction front with
  | nil => exact h
  | cons line front ih =>
    exact .drop (hfront line List.mem_cons_self)
      (ih fun l hl => hfront l (List.mem_cons_of_mem _ hl))

/-- Behind breaks that are left out, a line was kept, written anew as a break or added as an
    exit. -/
theorem exists_of_cons {line : Text} (h : Tidies a (line :: b)) :
    ∃ front rest, a = front ++ rest ∧ (∀ l ∈ front, (Line.classify l).isBreak = true) ∧
      ((∃ a', rest = line :: a' ∧ Tidies a' b) ∨
        (∃ l a', rest = l :: a' ∧ (Line.classify l).isBreak = true ∧ line = enterLine ∧
          Tidies a' b) ∨
        (line = exitBoxLine ∧ Tidies rest b)) := by
  generalize hlines : line :: b = lines at h
  induction h with
  | nil => simp at hlines
  | @keep _ a _ hab _ =>
    cases hlines
    exact ⟨[], line :: a, rfl, nofun, .inl ⟨a, rfl, hab⟩⟩
  | drop hbreak _ ih =>
    obtain ⟨front, rest, rfl, hfront, hrest⟩ := ih hlines
    exact ⟨_ :: front, rest, rfl, List.forall_mem_cons.2 ⟨hbreak, hfront⟩, hrest⟩
  | @renew l a _ hbreak hab _ =>
    cases hlines
    exact ⟨[], l :: a, rfl, nofun, .inr (.inl ⟨l, a, rfl, hbreak, rfl, hab⟩)⟩
  | @exit a _ hab _ =>
    cases hlines
    exact ⟨[], a, rfl, nofun, .inr (.inr ⟨rfl, hab⟩)⟩

/-- A break that is left out or written anew may have been written anew before. -/
theorem trans (h : Tidies a b) (h' : Tidies b c) : Tidies a c := by
  have hexit : (Line.classify exitBoxLine).isBreak = false := by rw [classify_exitBoxLine]; rfl
  induction h' generalizing a with
  | nil => exact h
  | exit _ ih => exact .exit (ih h)
  | keep line _ ih =>
    -- In `a` the line is as it is, or a break that was written anew, or an exit that is missing.
    obtain ⟨front, rest, rfl, hfront, hrest⟩ := h.exists_of_cons
    refine dropAll hfront ?_
    rcases hrest with ⟨a, rfl, hab⟩ | ⟨l, a, rfl, hbreak, rfl, hab⟩ | ⟨rfl, hab⟩
    · exact .keep line (ih hab)
    · exact .renew hbreak (ih hab)
    · exact .exit (ih hab)
  | drop hline _ ih =>
    obtain ⟨front, rest, rfl, hfront, hrest⟩ := h.exists_of_cons
    refine dropAll hfront ?_
    rcases hrest with ⟨a, rfl, hab⟩ | ⟨l, a, rfl, hbreak, rfl, hab⟩ | ⟨rfl, hab⟩
    · exact .drop hline (ih hab)
    · exact .drop hbreak (ih hab)
    · rw [hexit] at hline
      exact absurd hline (by decide)
  | renew hline _ ih =>
    obtain ⟨front, rest, rfl, hfront, hrest⟩ := h.exists_of_cons
    refine dropAll hfront ?_
    rcases hrest with ⟨a, rfl, hab⟩ | ⟨l, a, rfl, hbreak, rfl, hab⟩ | ⟨rfl, hab⟩
    · exact .renew hline (ih hab)
    · exact .renew hbreak (ih hab)
    · rw [hexit] at hline
      exact absurd hline (by decide)

theorem append (h : Tidies a b) (h' : Tidies c d) : Tidies (a ++ c) (b ++ d) := by
  induction h with
  | nil => exact h'
  | keep line _ ih => exact .keep line ih
  | drop hbreak _ ih => exact .drop hbreak ih
  | renew hbreak _ ih => exact .renew hbreak ih
  | exit _ ih => exact .exit ih

theorem reverse (h : Tidies a b) : Tidies a.reverse b.reverse := by
  induction h with
  | nil => exact .nil
  | keep line _ ih =>
    rw [List.reverse_cons, List.reverse_cons]
    exact ih.append (.keep line .nil)
  | @drop _ _ b hbreak _ ih =>
    rw [List.reverse_cons, ← List.append_nil b.reverse]
    exact ih.append (.drop hbreak .nil)
  | renew hbreak _ ih =>
    rw [List.reverse_cons, List.reverse_cons]
    exact ih.append (.renew hbreak .nil)
  | @exit a _ _ ih =>
    rw [List.reverse_cons, ← List.append_nil a.reverse]
    exact ih.append (.exit .nil)

theorem dropBreaks (a : List Text) : Tidies a (dropBreaks a) := by
  induction a with
  | nil => exact .nil
  | cons line a ih =>
    unfold Repair.dropBreaks
    rw [List.dropWhile_cons]
    split
    · next hbreak => exact .drop hbreak ih
    · exact refl _

theorem closeDepth (depth : Nat) (written : List Text) :
    Tidies written (closeDepth depth written) := by
  unfold Repair.closeDepth
  split
  · exact refl _
  · generalize depth = n
    induction n with
    | zero => exact dropBreaks written
    | succ n ih => exact .exit ih

/-- A repair that writes lines last first tidies a script if it tidies one line at a time. -/
theorem foldl {σ : Type} {f : σ → Text → σ} (w : σ → List Text)
    (hstep : ∀ state line, Tidies (line :: w state) (w (f state line))) (state : σ)
    (lines : List Text) : Tidies (lines.reverse ++ w state) (w (lines.foldl f state)) := by
  induction lines generalizing state with
  | nil => exact refl _
  | cons line lines ih =>
    rw [List.reverse_cons, List.append_assoc, List.foldl_cons]
    exact ((refl lines.reverse).append (hstep state line)).trans (ih (f state line))

end Tidies

theorem tidies_compactContainerBreaks (lines : List Text) :
    Tidies lines (compactContainerBreaks lines) := by
  have hstep (state : Nesting × List Text) (line : Text) :
      Tidies (line :: state.2) (compactStep state line).2 := by
    obtain ⟨nesting, written⟩ := state
    simp only [compactStep]
    split
    · next hbreak =>
      have hline := (Bool.and_eq_true_iff.1 hbreak).1
      split
      · exact .drop hline (.refl _)
      · exact .renew hline (.refl _)
    · split
      · exact .keep line (.dropBreaks written)
      · exact .refl _
  have h := (Tidies.foldl Prod.snd hstep ({}, []) lines).reverse
  rwa [List.append_nil, List.reverse_reverse] at h

theorem tidies_dropBreakAfterExit (lines : List Text) :
    Tidies lines (dropBreakAfterExit lines) := by
  have hstep (written : List Text) (line : Text) :
      Tidies (line :: written) (exitStep written line) := by
    simp only [exitStep]
    split
    · next hbreak => exact .drop (Bool.and_eq_true_iff.1 hbreak).1 (.refl _)
    · exact .refl _
  have h := (Tidies.foldl (fun written => written) hstep [] lines).reverse
  rwa [List.append_nil, List.reverse_reverse] at h

theorem tidies_closeOpenContainers (lines : List Text) :
    Tidies lines (closeOpenContainers lines) := by
  have hstep (state : Nat × List Text) (line : Text) :
      Tidies (line :: state.2) (closeStep state line).2 := by
    obtain ⟨depth, written⟩ := state
    simp only [closeStep]
    split
    · exact .refl _
    · exact .refl _
    · exact .keep line (.closeDepth depth written)
    · exact .keep line (.closeDepth depth written)
    · exact .refl _
  have hfold := Tidies.foldl Prod.snd hstep (0, []) lines
  have h := (hfold.trans (.closeDepth (lines.foldl closeStep (0, [])).1 _)).reverse
  rwa [List.append_nil, List.reverse_reverse] at h

/-- The three repairs in their order make a script tidy, and all they do is to leave out breaks or
    write them anew, and to add exits. -/
theorem hasTidyContainers_closeOpenContainers (lines : List Text) :
    HasTidyContainers (closeOpenContainers (dropBreakAfterExit (compactContainerBreaks lines))) ∧
      Tidies lines (closeOpenContainers (dropBreakAfterExit (compactContainerBreaks lines))) := by
  have hexited := exited_dropBreakAfterExit (breaksApart_compactContainerBreaks lines)
  obtain ⟨hbreaks, hexits⟩ := each_closeOpenContainers hexited.breaksApart hexited.exitsApart
  exact ⟨hasTidyContainers_of_each hbreaks hexits (isBalanced_closeOpenContainers _),
    (tidies_compactContainerBreaks lines).trans <|
      (tidies_dropBreakAfterExit _).trans (tidies_closeOpenContainers _)⟩

end Scribe.Repair
