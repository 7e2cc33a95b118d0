import Scribe.Proofs.Document.Selections
import Scribe.Script.Marker

set_option autoImplicit false

/-! # Markers in documents

A marker is made of glyphs that stand for nothing else. A run of elements is clean when no glyph is
among its characters and no marker in its equations. A clean run shows no marker, however its
elements are put together, and a search for a marker passes over it. -/

namespace Scribe

/-! ## Glyphs -/

/-- Is a character a glyph of the marker of a zone? -/
def Zone.hasGlyph (z : Zone) (c : Char) : Bool := c = z.glyphs.1 || c = z.glyphs.2

/-- Is a character a glyph of any marker? -/
def isGlyph (c : Char) : Bool := Zone.all.any fun z => z.hasGlyph c

namespace Text

/-- No glyph is in a text. -/
def IsGlyphFree (s : Text) : Prop := ∀ c ∈ s, isGlyph c = false

instance (s : Text) : Decidable s.IsGlyphFree :=
  decidable_of_iff (s.all fun c => !isGlyph c) (by simp [IsGlyphFree])

/-- No glyph and no line break is in a text. -/
def IsInline (s : Text) : Prop := s.IsGlyphFree ∧ '\n' ∉ s

instance (s : Text) : Decidable s.IsInline := inferInstanceAs (Decidable (_ ∧ _))

/-- No marker is in a text. -/
def IsMarkerFree (s : Text) : Prop := ∀ z : Zone, ¬ z.marker <:+: s

end Text

theorem Zone.isGlyph_of_hasGlyph {z : Zone} {c : Char} (h : z.hasGlyph c) : isGlyph c = true :=
  List.any_eq_true.2 ⟨z, by cases z <;> decide, h⟩

theorem Zone.hasGlyph_of_mem_marker {z : Zone} {c : Char} (h : c ∈ z.marker) :
    z.hasGlyph c = true := by
  obtain rfl := List.eq_of_mem_replicate h
  simp [hasGlyph]

theorem Zone.exists_of_mem_markerVariants {z : Zone} {needle : Text}
    (h : needle ∈ z.markerVariants) : ∃ c rest, needle = c :: rest ∧ z.hasGlyph c = true := by
  simp only [markerVariants, List.mem_cons, List.not_mem_nil, or_false] at h
  rcases h with rfl | rfl | rfl | rfl <;> exact ⟨_, _, rfl, by simp [hasGlyph]⟩

theorem Text.IsGlyphFree.isMarkerFree {s : Text} (h : s.IsGlyphFree) : s.IsMarkerFree := by
  intro z hz
  have hmem : z.glyphs.1 ∈ z.marker := List.mem_replicate.2 ⟨by decide, rfl⟩
  have hglyph := Zone.isGlyph_of_hasGlyph (Zone.hasGlyph_of_mem_marker hmem)
  rw [h _ (hz.subset hmem)] at hglyph
  cases hglyph

theorem Text.IsMarkerFree.of_infix {s part : Text} (h : s.IsMarkerFree) (hpart : part <:+: s) :
    part.IsMarkerFree := fun z hz => h z (hz.trans hpart)

/-- A run around an element that it does not contain lies on one side of it. -/
theorem infix_or_infix_of_not_mem {α : Type} {l a b : List α} {x : α} (h : l <:+: a ++ x :: b)
    (hx : x ∉ l) : l <:+: a ∨ l <:+: b := by
  obtain ⟨s, t, heq⟩ := h
  rcases List.append_eq_append_iff.1 heq with ⟨more, rfl, -⟩ | ⟨more, hleft, hright⟩
  · exact .inl ⟨s, more, rfl⟩
  · cases more with
    | nil => exact .inl ⟨s, [], by simpa using hleft⟩
    | cons y more =>
      obtain ⟨rfl, rfl⟩ := List.cons.inj hright
      rcases List.append_eq_append_iff.1 hleft with ⟨rest, -, hl⟩ | ⟨rest, -, hl⟩
      · exact absurd (hl ▸ List.mem_append_right _ List.mem_cons_self) hx
      · cases rest with
        | nil =>
          rw [List.nil_append] at hl
          exact absurd (hl ▸ List.mem_cons_self) hx
        | cons z rest =>
          obtain ⟨-, rfl⟩ := List.cons.inj hl
          exact .inr ⟨rest, t, rfl⟩

namespace Element

/-! ## Clean runs -/

/-- An element that is no part of a marker and shows none. -/
def IsClean : Element → Prop
  | .char c => isGlyph c = false
  | .equation text => text.IsMarkerFree
  | _ => True

/-- All elements of a run are clean. -/
def AreClean (es : List Element) : Prop := ∀ e ∈ es, e.IsClean

variable {es front rest : List Element} {y z : Zone}

@[simp] theorem areClean_nil : AreClean [] := nofun

@[simp] theorem areClean_cons {e : Element} : AreClean (e :: es) ↔ e.IsClean ∧ AreClean es :=
  List.forall_mem_cons

@[simp] theorem areClean_append : AreClean (front ++ rest) ↔ AreClean front ∧ AreClean rest :=
  List.forall_mem_append

theorem areClean_chars {text : Text} (h : text.IsGlyphFree) : AreClean (text.map .char) := by
  intro e he
  obtain ⟨c, hc, rfl⟩ := List.mem_map.1 he
  exact h c hc

/-- What clean elements show holds no marker. -/
theorem AreClean.isMarkerFree (h : AreClean es) : Text.IsMarkerFree (renderAll es) := by
  intro z
  have hnil : ¬ z.marker <:+: [] := by
    intro hz
    cases List.infix_nil.1 hz
  have hpass {c : Char} (hc : isGlyph c = false) : c ∉ z.marker := by
    intro hmem
    rw [Zone.isGlyph_of_hasGlyph (Zone.hasGlyph_of_mem_marker hmem)] at hc
    cases hc
  induction es with
  | nil => exact hnil
  | cons e es ih =>
    have hrest := ih fun e he => h e (List.mem_cons_of_mem _ he)
    have hclean := h e List.mem_cons_self
    intro hz
    have hsingle {c : Char} (hrender : e.render = [c]) (hc : isGlyph c = false) : False := by
      have hz' : z.marker <:+: [] ++ c :: renderAll es := by simpa [renderAll, hrender] using hz
      exact hrest ((infix_or_infix_of_not_mem hz' (hpass hc)).resolve_left hnil)
    cases e with
    | char c => exact hsingle rfl hclean
    | equation text =>
      -- an equation is shown between dollar signs, which are in no marker
      have heq : renderAll (.equation text :: es) =
          [] ++ '$' :: (text ++ '$' :: renderAll es) := by simp [renderAll, render]
      rw [heq] at hz
      have hbehind := (infix_or_infix_of_not_mem hz (hpass (by decide))).resolve_left hnil
      rcases infix_or_infix_of_not_mem hbehind (hpass (by decide)) with htext | htail
      · exact hclean z htext
      · exact hrest htail
    | _ => exact hsingle rfl (by decide)

/-! ## Searching -/

/-- The elements that spell the marker of a zone. -/
def mark (z : Zone) : List Element := z.marker.map .char

/-- No glyph of the marker of a zone is among the characters of a run. -/
def Lacks (z : Zone) (es : List Element) : Prop := ∀ c, z.hasGlyph c → .char c ∉ es

theorem lacks_append : Lacks z (front ++ rest) ↔ Lacks z front ∧ Lacks z rest := by
  simp only [Lacks, List.mem_append, not_or]
  exact ⟨fun h => ⟨fun c hc => (h c hc).1, fun c hc => (h c hc).2⟩,
    fun h c hc => ⟨h.1 c hc, h.2 c hc⟩⟩

theorem AreClean.lacks (h : AreClean es) (z : Zone) : Lacks z es := by
  intro c hc hmem
  have hclean : isGlyph c = false := h _ hmem
  rw [Zone.isGlyph_of_hasGlyph hc] at hclean
  cases hclean

theorem lacks_mark (h : y ≠ z) : Lacks z (mark y) := by
  intro c hc hmem
  obtain ⟨d, hd, hdc⟩ := List.mem_map.1 hmem
  cases hdc
  obtain rfl := List.eq_of_mem_replicate hd
  revert hc
  cases y <;> cases z <;> first | exact absurd rfl h | decide

/-- A search for a marker passes over a run that lacks its glyphs. -/
theorem firstSpelling?_eq_none {needle : Text} (h : Lacks z es)
    (hneedle : needle ∈ z.markerVariants) : firstSpelling? needle es = none := by
  obtain ⟨c, rest, rfl, hc⟩ := Zone.exists_of_mem_markerVariants hneedle
  induction es with
  | nil => rfl
  | cons e es ih =>
    have hrest := ih fun d hd hmem => h d hd (List.mem_cons_of_mem _ hmem)
    have hhead : spells (c :: rest) (e :: es) = false := by
      cases e with
      | char d =>
        have hne : c ≠ d := by
          rintro rfl
          exact h c hc List.mem_cons_self
        simp [spells, hne]
      | _ => rfl
    rw [firstSpelling?, hhead, hrest]
    rfl

/-- A search for a marker ends at the first that stands behind a run without its glyphs. -/
theorem firstSpelling?_mark (h : Lacks z front) :
    firstSpelling? z.marker (front ++ (mark z ++ rest)) = some front.length := by
  induction front with
  | nil =>
    have hspells : spells z.marker (mark z ++ rest) = true :=
      spells_iff_prefix.2 (List.prefix_append _ _)
    cases z <;> exact if_pos hspells
  | cons e front ih =>
    have hbehind := ih fun d hd hmem => h d hd (List.mem_cons_of_mem _ hmem)
    have hhead : spells z.marker (e :: (front ++ (mark z ++ rest))) = false := by
      cases e with
      | char d =>
        have hne : z.glyphs.1 ≠ d := by
          rintro rfl
          exact h _ (by simp [Zone.hasGlyph]) List.mem_cons_self
        simp [Zone.marker, List.replicate, spells, hne]
      | _ => rfl
    rw [List.cons_append, firstSpelling?, hhead, hbehind]
    rfl

end Element

end Scribe
