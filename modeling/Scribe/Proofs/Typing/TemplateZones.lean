import Scribe.Proofs.Typing.Focusing

set_option autoImplicit false

/-! # The zones of a template in a document

A template brings three markers, and nothing else of a document has glyphs. While the zones before
and inside wait for their requests, typing and moving leave the markers whole, and the request for a
zone takes its marker out wherever the cursor is. The marker of the after zone is found only ahead
of the cursor: it is found as long as no more tables are left than are around the cursor. -/

namespace Scribe

open Element

variable {es a b front rest behind ahead : List Element} {z : Zone} {F G : List Element → Prop}
  {n : Nat}

/-! ## One marker in a run -/

/-- The marker of a zone stands between two runs. -/
def Spells (z : Zone) (F G : List Element → Prop) (es : List Element) : Prop :=
  ∃ front rest, es = front ++ (mark z ++ rest) ∧ F front ∧ G rest

/-- Clean and level elements may be put in between no two glyphs. -/
def Admits (G : List Element → Prop) : Prop :=
  ∀ ⦃a b es⦄, G (a ++ b) → Parted a b → AreClean es → IsLevel es → G (a ++ (es ++ b))

/-- A text may be taken out, and parts no two glyphs. -/
def Sheds (G : List Element → Prop) (needle : Text) : Prop :=
  ∀ ⦃a b⦄, G (a ++ (needle.map .char ++ b)) → Parted a b ∧ G (a ++ b)

/-- The cursor is between no two glyphs of a run. -/
def Placed (G : List Element → Prop) (behind ahead : List Element) : Prop :=
  Parted behind ahead ∧ G (behind ++ ahead)

namespace Element

theorem Parted.of_append_right (h : Parted a (b ++ es)) : Parted a b := by
  refine h.imp_right fun h e he => h e ?_
  rw [List.head?_append, Option.mem_def.1 he]
  rfl

theorem Parted.of_append_left (h : Parted (es ++ a) b) : Parted a b := by
  refine h.imp_left fun h e he => h e ?_
  rw [List.getLast?_append, Option.mem_def.1 he]
  rfl

theorem AreClean.parted_left (h : AreClean a) (b : List Element) : Parted a b :=
  .inl fun e he => (h e (List.mem_of_getLast? he)).isApart

theorem AreClean.parted_right (h : AreClean b) (a : List Element) : Parted a b :=
  .inr fun e he => (h e (List.mem_of_head? he)).isApart

theorem parted_append (h : Parted a b) (hes : AreClean es) : Parted (a ++ es) b := by
  cases hlast : es.getLast? with
  | none =>
    rw [List.getLast?_eq_none_iff.1 hlast, List.append_nil]
    exact h
  | some e =>
    refine .inl fun e' he' => ?_
    rw [List.getLast?_append, hlast] at he'
    obtain rfl := Option.some.inj he'
    exact (hes e (List.mem_of_getLast? hlast)).isApart

theorem not_isApart_of_mem_mark {e : Element} (h : e ∈ mark z) : ¬ e.IsApart := by
  intro hapart
  obtain ⟨c, hc, rfl⟩ := List.mem_map.1 h
  have hglyph := Zone.isGlyph_of_hasGlyph (Zone.hasGlyph_of_mem_marker hc)
  rw [hapart c rfl] at hglyph
  cases hglyph

/-- No marker is parted. -/
theorem eq_nil_of_parted_mark (h : mark z = a ++ b) (hparted : Parted a b) : a = [] ∨ b = [] := by
  rcases hparted with hlast | hhead
  · left
    rw [← List.getLast?_eq_none_iff, Option.eq_none_iff_forall_ne_some]
    intro e he
    have hmem : e ∈ mark z := h ▸ List.mem_append_left _ (List.mem_of_getLast? he)
    exact not_isApart_of_mem_mark hmem (hlast e he)
  · right
    rw [← List.head?_eq_none_iff, Option.eq_none_iff_forall_ne_some]
    intro e he
    have hmem : e ∈ mark z := h ▸ List.mem_append_right _ (List.mem_of_head? he)
    exact not_isApart_of_mem_mark hmem (hhead e he)

/-- The cursor stands on one side of a marker. -/
theorem cases_of_parted (hparted : Parted behind ahead)
    (h : behind ++ ahead = front ++ (mark z ++ rest)) :
    (∃ more, front = behind ++ more ∧ ahead = more ++ (mark z ++ rest)) ∨
      ∃ more, behind = front ++ (mark z ++ more) ∧ rest = more ++ ahead := by
  rcases List.append_eq_append_iff.1 h with ⟨more, rfl, rfl⟩ | ⟨more, rfl, hmore⟩
  · exact .inl ⟨more, rfl, rfl⟩
  · rcases List.append_eq_append_iff.1 hmore with ⟨back, rfl, rfl⟩ | ⟨back, hmark, rfl⟩
    · exact .inr ⟨back, rfl, rfl⟩
    · rcases eq_nil_of_parted_mark hmark hparted.of_append_left.of_append_right with rfl | rfl
      · rw [List.nil_append] at hmark
        exact .inl ⟨[], by simp, by simp [hmark]⟩
      · rw [List.append_nil] at hmark
        exact .inr ⟨[], by simp [hmark], rfl⟩

end Element

/-! ## Typing around a marker -/

theorem admits_areClean : Admits AreClean := by
  intro a b es h _ hclean _
  rw [areClean_append] at h
  exact areClean_append.2 ⟨h.1, areClean_append.2 ⟨hclean, h.2⟩⟩

theorem admits_leadsOut (k : Nat) : Admits fun es => AreClean es ∧ leadsOut k es :=
  fun _ _ _ h hparted hclean hlevel =>
    ⟨admits_areClean h.1 hparted hclean hlevel, leadsOut_insert h.2 hlevel⟩

theorem Admits.spells (hF : Admits F) (hG : Admits G) (z : Zone) : Admits (Spells z F G) := by
  rintro a b es ⟨front, rest, heq, hfront, hrest⟩ hparted hclean hlevel
  rcases cases_of_parted hparted heq with ⟨more, rfl, rfl⟩ | ⟨more, rfl, rfl⟩
  · refine ⟨a ++ (es ++ more), rest, by simp, ?_, hrest⟩
    exact hF hfront hparted.of_append_right hclean hlevel
  · refine ⟨front, more ++ (es ++ b), by simp, hfront, ?_⟩
    rw [← List.append_assoc] at hparted
    exact hG hrest hparted.of_append_left hclean hlevel

theorem sheds_areClean (needle : Text) : Sheds AreClean needle := by
  intro a b h
  rw [areClean_append, areClean_append] at h
  exact ⟨h.1.parted_left b, areClean_append.2 ⟨h.1, h.2.2⟩⟩

theorem sheds_leadsOut (k : Nat) {needle : Text} (hneedle : '\n' ∉ needle) :
    Sheds (fun es => AreClean es ∧ leadsOut k es) needle := by
  intro a b h
  obtain ⟨hparted, hclean⟩ := sheds_areClean needle h.1
  exact ⟨hparted, hclean, leadsOut_remove h.2 hneedle⟩

/-- A text without glyphs is part of no marker. -/
theorem Sheds.spells {needle : Text} (hF : Sheds F needle) (hG : Sheds G needle)
    (hclean : ∀ es, F es → AreClean es) (hapart : ∀ es, G es → ∀ e ∈ es.head?, e.IsApart)
    (hneedle : needle.IsGlyphFree) (hne : needle ≠ []) (z : Zone) :
    Sheds (Spells z F G) needle := by
  have hrun := areClean_chars hneedle
  have hbefore (a b : List Element) : Parted a (needle.map .char ++ b) := by
    obtain ⟨c, needle, rfl⟩ := List.exists_cons_of_ne_nil hne
    exact parted_cons _ _ (hrun _ List.mem_cons_self).isApart
  rintro a b ⟨front, rest, heq, hfront, hrest⟩
  -- the text begins and ends at no glyph, so it lies in front of the marker or behind it
  rcases cases_of_parted (hbefore a b) heq with ⟨more, rfl, hmore⟩ | ⟨more, rfl, rfl⟩
  · rcases cases_of_parted (hrun.parted_left b) hmore with ⟨more, rfl, rfl⟩ | ⟨more, hmark, -⟩
    · have ha := (areClean_append.1 (hclean _ hfront)).1
      exact ⟨ha.parted_left _, a ++ more, rest, by simp, (hF hfront).2, hrest⟩
    · have hmem : .char z.glyphs.1 ∈ mark z := by cases z <;> decide
      have hneedle : .char z.glyphs.1 ∈ needle.map Element.char := by
        rw [hmark]
        exact List.mem_append_right _ (List.mem_append_left _ hmem)
      exact absurd (hrun _ hneedle).isApart (not_isApart_of_mem_mark hmem)
  · obtain ⟨hparted, hrest⟩ := hG hrest
    refine ⟨?_, front, more ++ b, by simp, hfront, hrest⟩
    cases more with
    -- directly behind the marker, what follows the text must be no glyph
    | nil => exact .inr (hapart b hrest)
    | cons e more =>
      refine hparted.imp_left fun hlast e' he' => hlast e' ?_
      simpa [List.getLast?_append, List.getLast?_cons] using he'

theorem Admits.accepts (h : Admits G) : Accepts (Placed G) := by
  intro behind ahead es hS hclean hlevel
  refine ⟨parted_append hS.1 hclean, ?_⟩
  rw [List.append_assoc]
  exact h hS.2 hS.1 hclean hlevel

theorem roams_placed : Roams (Placed G) := by
  intro behind ahead behind' ahead' hS heq hparted
  exact ⟨hparted, heq ▸ hS.2⟩

/-! ## Requests -/

namespace Buffer

/-- What sheds the spellings of a placeholder keeps its form when that is requested. -/
theorem Stands.focus_of_sheds {buffer : Buffer} (h : buffer.Stands (Placed G))
    {placeholder : Placeholder}
    (hsheds : ∀ needle ∈ placeholder.needles, needle ≠ [] → Sheds G needle) :
    (buffer.focus placeholder).Stands (Placed G) := by
  have herase {b b' : Buffer} (hb : b.Stands (Placed G))
      (he : b.erase? placeholder.needles = some b') : b'.Stands (Placed G) := by
    obtain ⟨_, _, hsplits, -, hG⟩ := hb
    obtain ⟨behind, ahead, needle, hmem, hne, helements, hb'⟩ := exists_of_erase? he
    rw [← hsplits.elements, helements] at hG
    exact ⟨behind, ahead, hb', hsheds needle hmem hne hG⟩
  have hmove {b : Buffer} (hb : b.Stands (Placed G)) {command : Command}
      (hcommand : command.isMove) : (b.run command).2.Stands (Placed G) :=
    hb.run roams_placed hcommand
  have hbegin : (buffer.run .moveDocBegin).2.Stands (Placed G) := hmove h rfl
  unfold focus
  cases hfound : buffer.erase? placeholder.needles with
  | some b' => exact herase h hfound
  | none =>
    rw [Option.getD_none]
    split
    · exact h
    · cases hagain : (buffer.goTo 0).erase? placeholder.needles with
      | some b' => exact herase hbegin hagain
      | none =>
        rw [Option.getD_none]
        split
        · have hcell : ((buffer.goTo 0).run .moveToCell).2.Stands (Placed G) := hmove hbegin rfl
          exact hcell
        · exact hbegin

theorem Stands.focus_custom {buffer : Buffer} (h : buffer.Stands (Placed G)) {marker : Text}
    (hsheds : marker ≠ [] → Sheds G marker) :
    (buffer.focus (.custom marker)).Stands (Placed G) := by
  refine h.focus_of_sheds fun needle hneedle hne => ?_
  obtain rfl := List.mem_singleton.1 hneedle
  exact hsheds hne

/-- The request for a zone whose marker waits takes it out. -/
theorem Splits.focus_of_spells {buffer : Buffer} (h : buffer.Splits behind ahead)
    (hplaced : Placed (Spells z F G) behind ahead) (hz : z ≠ .after)
    (hF : ∀ front, F front → AreClean front) (hG : ∀ rest, G rest → Lacks z rest) :
    ∃ front rest, (buffer.focus (.zone z)).Splits front rest ∧ AreClean front ∧ G rest := by
  obtain ⟨hparted, front, rest, heq, hfront, hrest⟩ := hplaced
  have hfront : AreClean front := hF front hfront
  refine ⟨front, rest, ?_, hfront, hrest⟩
  have hneedles : (Placeholder.zone z).needles = z.markerVariants := rfl
  rcases cases_of_parted hparted heq with ⟨more, rfl, rfl⟩ | ⟨more, rfl, rfl⟩
  · obtain ⟨b', herase, hb'⟩ := h.erase?_mark ((areClean_append.1 hfront).2.lacks z)
    rwa [focus, hneedles, herase]
  · -- the cursor is behind the marker: the search ahead misses it and begins anew
    have hmissed := h.erase?_of_lacks (lacks_append.1 (hG _ hrest)).2
    have hbegin : (buffer.goTo 0).Splits [] (front ++ (mark z ++ (more ++ ahead))) :=
      splits_goTo (by rw [h.elements, heq]; rfl) rfl
    obtain ⟨b', herase, hb'⟩ := hbegin.erase?_mark (hfront.lacks z)
    have hz : ¬ (Placeholder.zone z).zone? = some .after := fun hafter =>
      hz (Option.some.inj hafter)
    rwa [focus, hneedles, hmissed, Option.getD_none, if_neg hz, herase]

end Buffer

/-! ## Waiting zones -/

/-- What follows the marker of an inside zone. Behind a framed template the marker of the after zone
    stands outside of the cell; behind a plain one it was taken out at once. -/
def Tail : TemplateFlavor → List Element → Prop
  | .framed => Spells .after (fun es => AreClean es ∧ leadsOut 1 es) AreClean
  | .plain => AreClean

/-- Clean elements, with the opening of the table that a template brings. -/
def OpensTable (es : List Element) : Prop := AreClean es ∧ .tableOpen 1 ∈ es

/-- The zone before was requested, and the others wait. -/
def Opened (flavor : TemplateFlavor) : List Element → Prop :=
  Spells .inside OpensTable (Tail flavor)

/-- No zone was requested. -/
def Fresh (flavor : TemplateFlavor) : List Element → Prop :=
  Spells .before AreClean (Opened flavor)

variable {flavor : TemplateFlavor}

theorem admits_tail (flavor : TemplateFlavor) : Admits (Tail flavor) := by
  cases flavor with
  | framed => exact (admits_leadsOut 1).spells admits_areClean .after
  | plain => exact admits_areClean

theorem admits_opensTable : Admits OpensTable := by
  intro a b es h hparted hclean hlevel
  refine ⟨admits_areClean h.1 hparted hclean hlevel, ?_⟩
  rcases List.mem_append.1 h.2 with ha | hb
  · exact List.mem_append_left _ ha
  · exact List.mem_append_right _ (List.mem_append_right _ hb)

theorem admits_opened (flavor : TemplateFlavor) : Admits (Opened flavor) :=
  admits_opensTable.spells (admits_tail flavor) .inside

theorem admits_fresh (flavor : TemplateFlavor) : Admits (Fresh flavor) :=
  admits_areClean.spells (admits_opened flavor) .before

theorem Spells.lacks {y : Zone} (h : Spells y F G es) (hy : y ≠ z) (hF : ∀ es, F es → Lacks z es)
    (hG : ∀ es, G es → Lacks z es) : Lacks z es := by
  obtain ⟨front, rest, rfl, hfront, hrest⟩ := h
  exact lacks_append.2 ⟨hF _ hfront, lacks_append.2 ⟨lacks_mark hy, hG _ hrest⟩⟩

theorem lacks_of_tail (h : Tail flavor es) (hz : z ≠ .after) : Lacks z es := by
  cases flavor with
  | framed => exact Spells.lacks h hz.symm (fun _ hes => hes.1.lacks z) fun _ hes => hes.lacks z
  | plain => exact AreClean.lacks h z

theorem lacks_of_opened (h : Opened flavor es) (hz : z = .before) : Lacks z es :=
  h.lacks (by rw [hz]; decide) (fun _ hes => hes.1.lacks z)
    fun _ hes => lacks_of_tail hes (by rw [hz]; decide)

/-- Clean elements in front of an opened template belong to it. -/
theorem opened_append (ha : AreClean a) (h : Opened flavor es) : Opened flavor (a ++ es) := by
  obtain ⟨front, rest, rfl, ⟨hclean, hopen⟩, hrest⟩ := h
  exact ⟨a ++ front, rest, by simp, ⟨areClean_append.2 ⟨ha, hclean⟩,
    List.mem_append_right _ hopen⟩, hrest⟩

/-! ### Other placeholders -/

/-- What stands in front of a marker, if anything does, comes first. -/
theorem Spells.head?_isApart (h : Spells z F G es) (hF : ∀ es, F es → AreClean es ∧ es ≠ []) :
    ∀ e ∈ es.head?, e.IsApart := by
  obtain ⟨front, rest, rfl, hfront, -⟩ := h
  obtain ⟨hclean, hne⟩ := hF front hfront
  obtain ⟨e, front, rfl⟩ := List.exists_cons_of_ne_nil hne
  intro e' he'
  obtain rfl := Option.some.inj he'
  exact (hclean _ List.mem_cons_self).isApart

theorem head?_isApart_of_tail (h : Tail flavor es) : ∀ e ∈ es.head?, e.IsApart := by
  cases flavor with
  | plain => exact fun e he => (h e (List.mem_of_head? he)).isApart
  | framed =>
    refine h.head?_isApart fun es hes => ⟨hes.1, ?_⟩
    rintro rfl
    cases hes.2

theorem head?_isApart_of_opened (h : Opened flavor es) : ∀ e ∈ es.head?, e.IsApart :=
  h.head?_isApart fun _ hes => ⟨hes.1, List.ne_nil_of_mem hes.2⟩

/-- A text without glyphs and line breaks may be taken out of a template that waits. -/
theorem sheds_opened (flavor : TemplateFlavor) {needle : Text} (h : needle.IsInline)
    (hne : needle ≠ []) : Sheds (Opened flavor) needle := by
  have htail : Sheds (Tail flavor) needle := by
    cases flavor with
    | plain => exact sheds_areClean needle
    | framed =>
      exact (sheds_leadsOut 1 h.2).spells (sheds_areClean needle) (fun _ hes => hes.1)
        (fun _ hes e he => (hes e (List.mem_of_head? he)).isApart) h.1 hne .after
  have hopens : Sheds OpensTable needle := by
    intro a b hes
    obtain ⟨hparted, hclean⟩ := sheds_areClean needle hes.1
    refine ⟨hparted, hclean, ?_⟩
    simpa using hes.2
  exact hopens.spells htail (fun _ hes => hes.1) (fun _ hes => head?_isApart_of_tail hes) h.1 hne
    .inside

theorem sheds_fresh (flavor : TemplateFlavor) {needle : Text} (h : needle.IsInline)
    (hne : needle ≠ []) : Sheds (Fresh flavor) needle :=
  (sheds_areClean needle).spells (sheds_opened flavor h hne) (fun _ hes => hes)
    (fun _ hes => head?_isApart_of_opened hes) h.1 hne .before

/-- What every template puts in up to the marker of the after zone. -/
def templateFront : List Element :=
  mark .before ++ ([.char '\n', .tableOpen 1] ++ (mark .inside ++ [.tableClose, .char '\n']))

theorem lacks_templateFront : Lacks .after templateFront := by
  refine lacks_append.2 ⟨lacks_mark (by decide), lacks_append.2 ⟨AreClean.lacks ?_ _,
    lacks_append.2 ⟨lacks_mark (by decide), AreClean.lacks ?_ _⟩⟩⟩
  · exact areClean_cons.2 ⟨rfl, areClean_cons.2 ⟨trivial, areClean_nil⟩⟩
  · exact areClean_cons.2 ⟨trivial, areClean_cons.2 ⟨rfl, areClean_nil⟩⟩

/-- No zone of a template was requested when it was put in. -/
theorem fresh_template (hfront : AreClean front)
    (hrest : Tail flavor (.tableClose :: .char '\n' :: rest)) :
    Fresh flavor (front ++ (templateFront ++ rest)) := by
  refine ⟨front, _, ?_, hfront, [.char '\n', .tableOpen 1], .tableClose :: .char '\n' :: rest, rfl,
    ⟨?_, by simp⟩, hrest⟩
  · simp [templateFront]
  · exact areClean_cons.2 ⟨rfl, areClean_cons.2 ⟨trivial, areClean_nil⟩⟩

/-! ### Around the cursor -/

/-- The marker of the after zone stands ahead, behind a run in `L`. -/
def Awaits (L : List Element → Prop) (behind ahead : List Element) : Prop :=
  AreClean behind ∧ Spells .after (fun es => AreClean es ∧ L es) AreClean ahead

/-- Leaving `n` tables and the last one's line stays within the run. -/
def Covers (n : Nat) (es : List Element) : Prop := ∃ d, n ≤ d ∧ leadsOut d es

/-- Leaving `n` tables, each with its line, stays within the run. -/
def Encloses (n : Nat) (es : List Element) : Prop := ∃ d, n ≤ d ∧ (0 < d → leadsOut d es)

theorem Covers.encloses (h : Covers n es) : Encloses n es := by
  obtain ⟨d, hd, hleads⟩ := h
  exact ⟨d, hd, fun _ => hleads⟩

theorem Encloses.covers (h : Encloses (n + 1) es) : Covers (n + 1) es := by
  obtain ⟨d, hd, hleads⟩ := h
  exact ⟨d, hd, hleads (by omega)⟩

theorem Covers.of_succ (h : Covers (n + 1) es) : Covers n es := by
  obtain ⟨d, hd, hleads⟩ := h
  exact ⟨d, by omega, hleads⟩

/-- A new table around the cursor ends with a line of its own. -/
theorem covers_close {line : List Element} (h : Encloses n a)
    (hline : line = [.char '\n'] ∨ line = [] ∧ a.head? = some (.char '\n')) :
    Covers (n + 1) (.tableClose :: (line ++ a)) := by
  obtain ⟨d, hd, hleads⟩ := h
  refine ⟨d + 1, by omega, ?_⟩
  rw [leadsOut_tableClose_succ]
  cases d with
  | zero =>
    rcases hline with rfl | ⟨rfl, hhead⟩
    · rfl
    · obtain ⟨_, rfl⟩ := List.head?_eq_some_iff.1 hhead
      rfl
  | succ d =>
    rcases hline with rfl | ⟨rfl, -⟩
    · simp [hleads (by omega)]
    · exact hleads (by omega)

theorem Covers.append_left (h : Covers n es) (ha : IsLevel a) : Covers n (a ++ es) := by
  obtain ⟨d, hd, hleads⟩ := h
  exact ⟨d, hd, leadsOut_append (ha.depthAfter? d) hleads⟩

theorem accepts_awaits {L : List Element → Prop} : Accepts (Awaits L) :=
  fun _ _ _ h hclean _ => ⟨areClean_append.2 ⟨h.1, hclean⟩, h.2⟩

namespace Buffer

variable {buffer : Buffer} {L L' : List Element → Prop}

theorem Stands.mono {S S' : List Element → List Element → Prop} (h : buffer.Stands S)
    (hS : ∀ behind ahead, S behind ahead → S' behind ahead) : buffer.Stands S' := by
  obtain ⟨behind, ahead, hb, hat⟩ := h
  exact ⟨behind, ahead, hb, hS _ _ hat⟩

theorem Stands.awaits_mono (h : buffer.Stands (Awaits L)) (hL : ∀ es, L es → L' es) :
    buffer.Stands (Awaits L') := by
  refine h.mono ?_
  rintro behind ahead ⟨hbehind, front, rest, rfl, ⟨hfront, hin⟩, hrest⟩
  exact ⟨hbehind, front, rest, rfl, ⟨hfront, hL _ hin⟩, hrest⟩

/-- A table is left into the rest of the run. -/
theorem Stands.leaveTable (h : buffer.Stands (Awaits (Covers (n + 1)))) :
    buffer.leaveTable = (false, buffer) ∨
      buffer.leaveTable.1 = true ∧ buffer.leaveTable.2.Stands (Awaits (Covers n)) := by
  obtain ⟨behind, _, hb, hbehind, front, rest, rfl, ⟨hfront, d, hd, hleads⟩, hrest⟩ := h
  obtain ⟨d, rfl⟩ : ∃ k, d = k + 1 := ⟨d - 1, by omega⟩
  rcases hb.leaveTable_of_leadsOut hleads with hstay | ⟨hleft, u, v, rfl, hv, hsplits⟩
  · exact .inl hstay
  · rw [areClean_append] at hfront
    refine .inr ⟨hleft, _, _, hsplits, areClean_append.2 ⟨hbehind, hfront.1⟩, v, rest, rfl, ?_,
      hrest⟩
    exact ⟨hfront.2, d, by omega, hv⟩

theorem Stands.moveDown (h : buffer.Stands (Awaits (Covers n))) :
    (buffer.run .moveDown).2.Stands (Awaits (Encloses n)) := by
  obtain ⟨behind, _, hb, hbehind, front, rest, rfl, ⟨hfront, d, hd, hleads⟩, hrest⟩ := h
  obtain ⟨u, v, rfl, hsplits, hv⟩ := hb.moveDown_of_leadsOut hleads
  rw [areClean_append] at hfront
  refine ⟨_, _, hsplits, areClean_append.2 ⟨hbehind, hfront.1⟩, v, rest, rfl, ?_, hrest⟩
  exact ⟨hfront.2, d, hd, hv⟩

theorem Stands.moveCells (h : buffer.Stands (Awaits (Covers (n + 1))))
    (target : Nat → Nat → Option Nat) :
    (buffer.moveCells target).2.Stands (Awaits (Covers (n + 1))) := by
  obtain ⟨behind, _, hb, hbehind, front, rest, rfl, ⟨hfront, d, hd, hleads⟩, hrest⟩ := h
  obtain ⟨d, rfl⟩ : ∃ k, d = k + 1 := ⟨d - 1, by omega⟩
  obtain ⟨behind', front', heq, hsplits, hleads'⟩ := hb.moveCells_of_leadsOut hleads target
  have hclean : AreClean (behind' ++ front') := heq ▸ areClean_append.2 ⟨hbehind, hfront⟩
  rw [areClean_append] at hclean
  exact ⟨_, _, hsplits, hclean.1, front', rest, rfl, ⟨hclean.2, d + 1, hd, hleads'⟩, hrest⟩

/-- A new table is around the cursor. -/
theorem Stands.insertTable_awaits (h : buffer.Stands (Awaits (Encloses n))) (cols cells : Nat) :
    (buffer.insertTable cols cells).Stands (Awaits (Covers (n + 1))) := by
  obtain ⟨behind, _, hb, hbehind, front, rest, rfl, ⟨hfront, hencloses⟩, hrest⟩ := h
  let line := Splits.lineEnd (front ++ (mark .after ++ rest))
  have hline : line = [.char '\n'] ∨ line = [] ∧ front.head? = some (.char '\n') := by
    unfold line Splits.lineEnd
    split
    · next hhead =>
      cases front with
      | nil => cases hhead
      | cons e front => exact .inr ⟨rfl, hhead⟩
    · exact .inl rfl
  refine ⟨_, _, hb.insertTable cols cells, areClean_append.2 ⟨hbehind, by simp [IsClean]⟩, ?_⟩
  refine ⟨List.replicate (cells - 1) .cellBreak ++ .tableClose :: (line ++ front), rest,
    by simp [line], ⟨?_, ?_⟩, hrest⟩
  · have hbreaks : AreClean (List.replicate (cells - 1) .cellBreak) := fun e he => by
      obtain rfl := List.eq_of_mem_replicate he
      trivial
    refine areClean_append.2 ⟨hbreaks, areClean_cons.2 ⟨trivial, areClean_append.2 ⟨?_, hfront⟩⟩⟩
    exact areClean_lineEnd _
  · exact (covers_close hencloses hline).append_left (isLevel_replicate_cellBreak _)

/-- The container that is put in is around the cursor. -/
theorem Stands.openContainer (h : buffer.Stands (Awaits (Encloses n))) (framed : Bool) :
    let b := buffer.insert (.tableOpen 1 ::
      ((containerContent framed).map .char ++ [.tableClose, .char '\n']))
    b.moveToCell.1 = true ∧ b.moveToCell.2.Stands (Awaits (Covers (n + 1))) := by
  obtain ⟨behind, _, hb, hbehind, front, rest, rfl, ⟨hfront, hencloses⟩, hrest⟩ := h
  obtain ⟨hmoved, hsplits⟩ := (hb.insert _).moveToCell_into
  have hclean := areClean_container framed
  rw [areClean_cons, areClean_append] at hclean
  refine ⟨hmoved, _, _, hsplits, ?_, .tableClose :: ([.char '\n'] ++ front), rest, rfl, ?_, hrest⟩
  · exact areClean_append.2 ⟨hbehind, areClean_cons.2 ⟨trivial, hclean.2.1⟩⟩
  · refine ⟨areClean_cons.2 ⟨trivial, areClean_cons.2 ⟨rfl, hfront⟩⟩, ?_⟩
    exact covers_close hencloses (.inl rfl)

/-- The request for an after zone ahead takes out its marker, the last one. -/
theorem Stands.focus_after (h : buffer.Stands (Awaits L)) :
    (buffer.focus (.zone .after)).Stands (Placed AreClean) := by
  obtain ⟨behind, _, hb, hbehind, front, rest, rfl, ⟨hfront, -⟩, hrest⟩ := h
  obtain ⟨b', herase, hb'⟩ := hb.erase?_mark (hfront.lacks .after)
  have hneedles : (Placeholder.zone .after).needles = Zone.after.markerVariants := rfl
  rw [focus, hneedles, herase, Option.getD_some]
  have hclean := areClean_append.2 ⟨hbehind, hfront⟩
  exact ⟨_, _, hb', hclean.parted_left _, areClean_append.2 ⟨hclean, hrest⟩⟩

/-- The request for the before zone opens the template. -/
theorem Stands.focus_before (h : buffer.Stands (Placed (Fresh flavor))) :
    (buffer.focus (.zone .before)).Stands (Placed (Opened flavor)) := by
  obtain ⟨behind, ahead, hb, hplaced⟩ := h
  obtain ⟨front, rest, hsplits, hfront, hrest⟩ :=
    hb.focus_of_spells hplaced (by decide) (fun _ hes => hes) fun _ hes => lacks_of_opened hes rfl
  exact ⟨front, rest, hsplits, hfront.parted_left _, opened_append hfront hrest⟩

/-- The request for the inside zone of a framed template leads into its cell. -/
theorem Stands.focus_inside_framed (h : buffer.Stands (Placed (Opened .framed))) :
    (buffer.focus (.zone .inside)).Stands (Awaits (Encloses 1)) := by
  obtain ⟨behind, ahead, hb, hplaced⟩ := h
  obtain ⟨front, rest, hsplits, hfront, hrest⟩ :=
    hb.focus_of_spells hplaced (by decide) (fun _ hes => hes.1)
      fun _ hes => lacks_of_tail hes (by decide)
  obtain ⟨inner, rest, rfl, ⟨hinner, hleads⟩, hrest⟩ := hrest
  exact ⟨front, _, hsplits, hfront, inner, rest, rfl, ⟨hinner, 1, Nat.le_refl 1, fun _ => hleads⟩,
    hrest⟩

/-- The request for the inside zone of a plain template takes out the last marker. -/
theorem Stands.focus_inside_plain (h : buffer.Stands (Placed (Opened .plain))) :
    (buffer.focus (.zone .inside)).Stands (Placed AreClean) := by
  obtain ⟨behind, ahead, hb, hplaced⟩ := h
  obtain ⟨front, rest, hsplits, hfront, hrest⟩ :=
    hb.focus_of_spells hplaced (by decide) (fun _ hes => hes.1)
      fun _ hes => lacks_of_tail hes (by decide)
  exact ⟨front, rest, hsplits, hfront.parted_left _, areClean_append.2 ⟨hfront, hrest⟩⟩

/-- The zones of a framed template wait. -/
theorem Stands.insert_framed (h : buffer.Stands (Placed AreClean)) :
    (buffer.insert (templateFront ++ mark .after)).Stands (Placed (Fresh .framed)) := by
  obtain ⟨behind, ahead, hb, -, hclean⟩ := h
  rw [areClean_append] at hclean
  refine ⟨_, _, hb.insert _, hclean.2.parted_right _, ?_⟩
  have hsplit : behind ++ (templateFront ++ mark .after) ++ ahead =
      behind ++ (templateFront ++ (mark .after ++ ahead)) := by simp
  rw [hsplit]
  refine fresh_template hclean.1 ⟨[.tableClose, .char '\n'], ahead, rfl, ⟨?_, rfl⟩, hclean.2⟩
  exact areClean_cons.2 ⟨trivial, areClean_cons.2 ⟨rfl, areClean_nil⟩⟩

/-- The zones of a plain template wait, without the after zone that is taken out at once. -/
theorem Stands.insert_plain (h : buffer.Stands (Placed AreClean)) :
    ∃ b', ((buffer.insert (templateFront ++ mark .after)).goTo 0).erase?
        Zone.after.markerVariants = some b' ∧ (b'.goTo 0).Stands (Placed (Fresh .plain)) := by
  obtain ⟨behind, ahead, hb, -, hclean⟩ := h
  rw [areClean_append] at hclean
  have hbegin : ((buffer.insert (templateFront ++ mark .after)).goTo 0).Splits []
      (behind ++ templateFront ++ (mark .after ++ ahead)) :=
    ⟨by simp [goTo, (hb.insert _).elements], rfl, rfl⟩
  obtain ⟨b', herase, hb'⟩ :=
    hbegin.erase?_mark (lacks_append.2 ⟨hclean.1.lacks .after, lacks_templateFront⟩)
  have helements : b'.elements = behind ++ (templateFront ++ ahead) := by simp [hb'.elements]
  refine ⟨b', herase, [], _, splits_begin b', parted_nil _, ?_⟩
  rw [helements]
  exact fresh_template hclean.1 (areClean_cons.2 ⟨trivial, areClean_cons.2 ⟨rfl, hclean.2⟩⟩)

end Buffer

end Scribe
