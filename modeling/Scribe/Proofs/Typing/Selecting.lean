import Scribe.Proofs.Document.Moments
import Scribe.Proofs.Typing.Composition

set_option autoImplicit false

/-! # What operations take out

Typing replaces what is selected, so it matters what is selected when a call is made. Main
statement: whatever fails on the way, an operation searches for its own markers only, and a call
that it makes takes out at most a selected text, or an equation that was selected when the operation
began. An operation that succeeds leaves no equation selected that was not selected before. -/

namespace Scribe

variable {σ α : Type}

/-! ## Rules -/

/-- The texts that an operation searches for: the spellings of the marker that it focuses, or those
    that a plain template cleans up. -/
def Operation.markers : Operation → List Text
  | .focusPlaceholder (.zone zone) => zone.markerVariants
  | .focusPlaceholder (.custom marker) => [marker]
  | .insertTemplate template =>
    match template.flavor with
    | .framed => []
    | .plain => Zone.after.markerVariants
  | _ => []

/-- Is a call neither a deletion, nor a search, nor the creation of an equation? -/
def Primitive.isOrdinary : Primitive → Bool
  | .run .delete | .run .deleteBack | .createEquation _ | .findText _ _ => false
  | _ => true

namespace Buffer

/-- A text is selected. -/
def SelectsText (b : Buffer) : Prop :=
  ∃ (start : Nat) (needle : Text), b.Selects start (needle.map .char)

/-- An equation is selected. -/
def SelectsEquation (b : Buffer) : Prop :=
  ∃ (start : Nat) (text : Text), b.Selects start [.equation text]

/-- A call may take out a selected text, or an equation that was selected in `b₀`; and it may search
    for the markers. -/
structure Permits (markers : List Text) (b₀ : Buffer) (p : Primitive) (b : Buffer) : Prop where
  takes (fragments : List (Text × List Element)) : (b.splice fragments p).removed ≠ 0 →
    b.SelectsText ∨ b.SelectsEquation ∧ b.SameSelected b₀
  searches {needle : Text} {direction : Direction} : p = .findText needle direction →
    direction = .forward ∧ needle ∈ markers

variable {b b₀ : Buffer} {p : Primitive} {markers : List Text}

/-- Without a selection only the deletions take anything out. -/
theorem removed_splice_eq_zero (hs : b.selection = none) (hdelete : p ≠ .run .delete)
    (hback : p ≠ .run .deleteBack) (fragments : List (Text × List Element)) :
    (b.splice fragments p).removed = 0 := by
  have hreplacing (es : List Element) : (b.replacing es).removed = 0 := by rw [replacing, hs]
  cases p with
  | insertText text => exact hreplacing _
  | run command =>
    cases command with
    | breakPara => exact hreplacing _
    | delete => exact absurd rfl hdelete
    | deleteBack => exact absurd rfl hback
    | _ => rfl
  | createTable rows cols =>
    simp only [splice]
    split
    · exact hreplacing _
    · rfl
  | createEquation spec => exact hreplacing _
  | insertFragment path =>
    simp only [splice]
    split
    · exact hreplacing _
    · rfl
  | _ => rfl

theorem not_selectsEquation_of_selectsText (h : b.SelectsText) : ¬ b.SelectsEquation := by
  rintro ⟨_, text, hequation⟩
  obtain ⟨_, needle, htext⟩ := h
  have hsame := htext.unique hequation
  cases needle <;> simp at hsame

theorem not_selectsEquation_of_none (h : b.selection = none) : ¬ b.SelectsEquation := by
  rintro ⟨start, text, hequation⟩
  rw [hequation.selection] at h
  cases h

theorem IsProper.selects (h : b.IsProper) :
    b.selection = none ∨ b.SelectsText ∨ b.SelectsEquation := by
  rcases h.selection with hnone | ⟨start, es, hes, hselectable⟩
  · exact .inl hnone
  · cases hselectable with
    | text _ => exact .inr (.inl ⟨start, _, hes⟩)
    | equation text => exact .inr (.inr ⟨start, text, hes⟩)

/-- The buffer is proper, and an equation is selected only if it was so in `b₀`. -/
structure Settled (b₀ b : Buffer) : Prop where
  proper : b.IsProper
  leftover : b.SelectsEquation → b.SameSelected b₀

/-- Every call but a deletion is permitted, when it searches for a marker if it searches. -/
theorem Settled.permits (h : b₀.Settled b) (hdelete : p ≠ .run .delete)
    (hback : p ≠ .run .deleteBack) (hsearch : ∀ needle direction, p = .findText needle direction →
      direction = .forward ∧ needle ∈ markers) : Permits markers b₀ p b := by
  refine ⟨fun fragments hremoved => ?_, hsearch _ _⟩
  rcases h.proper.selects with hnone | htext | hequation
  · exact absurd (removed_splice_eq_zero hnone hdelete hback fragments) hremoved
  · exact .inl htext
  · exact .inr ⟨hequation, h.leftover hequation⟩

/-- Every call but the creation of an equation leaves a settled buffer settled. -/
theorem Settled.of_follows {b' : Buffer} (h : b₀.Settled b) (hb : Follows p b b')
    (hcreate : ∀ spec, p ≠ .createEquation spec) : b₀.Settled b' := by
  refine ⟨h.proper.of_follows hb, fun hequation => ?_⟩
  cases hb.reselects with
  | kept helements hselection =>
    obtain ⟨start, text, hselects⟩ := hequation
    have hsame :=
      h.leftover ⟨start, text, ⟨hselection ▸ hselects.selection, helements ▸ hselects.stands⟩⟩
    exact ⟨helements.trans hsame.elements, hselection.trans hsame.selection⟩
  | released hnone => exact absurd hequation (not_selectsEquation_of_none hnone)
  | found _ _ _ hselects =>
    exact absurd hequation (not_selectsEquation_of_selectsText ⟨_, _, hselects⟩)
  | created hp _ => exact absurd hp (hcreate _)

end Buffer

/-- What a permitted call takes out. -/
theorem Moment.takes_of_permits {m : Moment} {markers : List Text} {b₀ : Buffer}
    (h : Buffer.Permits markers b₀ m.call m.document.buffer) (hremoved : m.splice.removed ≠ 0) :
    (∃ needle : Text, m.Takes (needle.map .char)) ∨
      (∃ text, m.Takes [.equation text]) ∧ m.document.buffer.SameSelected b₀ := by
  rcases h.takes _ (removed_splice_ne_zero hremoved) with
    ⟨_, needle, hselects⟩ | ⟨⟨_, text, hselects⟩, hsame⟩
  · exact .inl ⟨needle, takes_of_selects hselects hremoved⟩
  · exact .inr ⟨⟨text, takes_of_selects hselects hremoved⟩, hsame⟩

/-! ## Actions -/

namespace Document

/-- A conduct under which calls take out what they may. -/
abbrev permitting (markers : List Text) (b₀ : Buffer) : Conduct Document :=
  conduct (Buffer.Permits markers b₀)

variable {markers : List Text} {b₀ : Buffer} {x x' : Document} {p : Primitive}
  {r : Except TargetError Bool}

/-- What a call is answered, and what becomes of the document, when others may disturb it. -/
theorem exists_perform {guard : Primitive → Buffer → Prop}
    (h : (conduct guard).answers (.call p) x r x') :
    ∃ y : Document, x.SameContents y ∧ y.perform p = (r, x') := by
  obtain ⟨_, y, hxy, hy⟩ := h
  exact ⟨y, hxy, hy⟩

theorem follows_answers {guard : Primitive → Buffer → Prop} (hx : x.buffer.IsProper)
    (h : (conduct guard).answers (.call p) x r x') : Buffer.Follows p x.buffer x'.buffer := by
  obtain ⟨y, hxy, hy⟩ := exists_perform h
  have hfollows := follows_perform (hxy.buffer ▸ hx : y.buffer.IsProper) p
  rwa [hy, ← hxy.buffer] at hfollows

theorem buffer_of_error {guard : Primitive → Buffer → Prop} {e : TargetError}
    (h : (conduct guard).answers (.call p) x (.error e) x') : x'.buffer = x.buffer := by
  obtain ⟨y, hxy, hy⟩ := exists_perform h
  exact (hxy.trans (sameContents_of_error hy)).buffer.symm

end Document

namespace Typing

open Buffer Document

variable {markers : List Text} {b₀ : Buffer}

/-- An action that is permitted what it does, and leaves the document settled unless it fails. -/
abbrev Settles (markers : List Text) (b₀ : Buffer) (m : Typing α) : Prop :=
  m.Keeps (permitting markers b₀) (fun x => b₀.Settled x.buffer) fun _ x => x.buffer.IsProper

theorem spares {p : Primitive} (hdelete : p ≠ .run .delete) (hback : p ≠ .run .deleteBack)
    (hcreate : ∀ spec, p ≠ .createEquation spec)
    (hsearch : ∀ needle direction, p = .findText needle direction →
      direction = .forward ∧ needle ∈ markers) :
    Spares (permitting markers b₀) (fun x => b₀.Settled x.buffer) p where
  allowed hx := hx.permits hdelete hback hsearch
  keeps hx h := hx.of_follows (follows_answers hx.proper h) hcreate

theorem spares_of_isOrdinary {p : Primitive} (h : p.isOrdinary) :
    Spares (permitting markers b₀) (fun x => b₀.Settled x.buffer) p :=
  spares (by rintro rfl; cases h) (by rintro rfl; cases h) (by rintro _ rfl; cases h)
    (by rintro _ _ rfl; cases h)

theorem isOrdinary_of_isFormat {p : Primitive} (h : p.isFormat) : p.isOrdinary := by
  cases p with
  | run command => cases command <;> first | rfl | cases h
  | findText _ _ => cases h
  | createEquation _ => cases h
  | _ => rfl

theorem isOrdinary_of_isMove {command : Command} (h : command.isMove) :
    (Primitive.run command).isOrdinary := by
  cases command <;> first | rfl | cases h

theorem settles : Composes (Spares (permitting markers b₀) fun x => b₀.Settled x.buffer)
    fun α (m : Typing α) => m.Settles markers b₀ :=
  Keeps.composes (fun _ _ _ hx => hx.proper) (fun _ _ _ _ _ _ hx => hx.proper)
    fun _ hp => spares_of_isOrdinary (isOrdinary_of_isFormat hp)

namespace Settles

/-- Within the typing of an equation its object is selected, until the selection is given up. -/
theorem insertObject (spec : EquationSpec) : (insertObject spec).Settles markers b₀ := by
  have hproper {p : Primitive} {x x' : Document} {r : Except TargetError Bool}
      (hx : x.buffer.IsProper) (h : (permitting markers b₀).answers (.call p) x r x') :
      x'.buffer.IsProper := hx.of_follows (follows_answers hx h)
  have hcreate : Meets (permitting markers b₀) (fun x => b₀.Settled x.buffer)
      (discard (require (.createEquation spec))) fun _ x => x.buffer.IsProper :=
    .discard_require (fun x hx => hx.permits nofun nofun nofun) (fun x hx => hx.proper)
      (fun x _ _ hx h => hproper hx.proper h) fun x _ _ hx h => hproper hx.proper h
  have hanchor : Meets (permitting markers b₀) (fun x => x.buffer.IsProper)
      (discard (require (.objectAnchor spec.treatAsChar))) fun _ x => x.buffer.IsProper :=
    .discard_require (fun x hx => ⟨fun _ h => absurd rfl h, nofun⟩) (fun x hx => hx)
      (fun x _ _ hx h => hproper hx h) fun x _ _ hx h => hproper hx h
  have hcancel : Meets (permitting markers b₀) (fun x => x.buffer.IsProper)
      (discard (require (.run .cancel)))
      (endsIn (fun _ x => b₀.Settled x.buffer) fun _ x => x.buffer.IsProper) := by
    refine .discard_require (fun x hx => ⟨fun _ h => absurd rfl h, nofun⟩) (fun x hx => hx)
      (fun x _ x' hx h => ⟨hproper hx h, fun hequation => ?_⟩) fun x _ _ hx h => hproper hx h
    obtain ⟨y, -, hy⟩ := exists_perform h
    obtain ⟨z, -, hz⟩ := exists_effect_of_ok hy
    have hbuffer : (z.buffer.run .cancel).2 = x'.buffer :=
      congrArg (fun r => r.2.buffer) hz
    exact absurd hequation (not_selectsEquation_of_none (by rw [← hbuffer]; rfl))
  refine .bind hcreate (fun _ _ h => h) fun _ => .bind hanchor (fun _ _ h => h) fun _ => ?_
  exact .bind hcancel (fun _ _ h => h)
    fun _ => settles.discard (settles.require (spares_of_isOrdinary rfl))

/-- A marker is selected. -/
def Marked (b₀ : Buffer) (x : Document) : Prop := b₀.Settled x.buffer ∧ x.buffer.SelectsText

/-- What holds behind a search. -/
def searched (b₀ : Buffer) : Except TypingError Bool → Document → Prop
  | .ok true => Marked b₀
  | .ok false => fun x => b₀.Settled x.buffer
  | .error _ => fun x => x.buffer.IsProper

theorem findAny {needles : List Text} (h : needles ⊆ markers) :
    Meets (permitting markers b₀) (fun x => b₀.Settled x.buffer) (findAny needles)
      (searched b₀) := by
  induction needles with
  | nil => exact .pure fun _ hx => hx
  | cons needle needles ih =>
    have hsearch : Spares (permitting markers b₀) (fun x => b₀.Settled x.buffer)
        (.findText needle .forward) :=
      spares nofun nofun nofun fun _ _ hp => by cases hp; exact ⟨rfl, h List.mem_cons_self⟩
    -- A search that fails or finds nothing leaves the buffer settled for the next needle.
    refine .bind (Q := searched b₀) (.bestEffort (fun _ => hsearch.allowed) (fun _ hx => hx.proper)
      (fun x found x' hx hr => ?_) fun x e x' hx hr => ?_) (fun _ _ h => h) fun found => ?_
    · have hsettled := hsearch.keeps hx hr
      cases found with
      | false => exact hsettled
      | true =>
        refine ⟨hsettled, ?_⟩
        obtain ⟨y, -, hy⟩ := exists_perform hr
        obtain ⟨z, -, hz⟩ := exists_effect_of_ok hy
        have hfound : (z.buffer.find needle .forward).1 = true :=
          Except.ok.inj (congrArg Prod.fst hz)
        have hbuffer : (z.buffer.find needle .forward).2 = x'.buffer :=
          congrArg (fun r => r.2.buffer) hz
        obtain ⟨start, hselects⟩ := selects_of_find hfound
        exact ⟨start, needle, hbuffer ▸ hselects⟩
    · exact ⟨hsearch.keeps hx hr, (hsearch.keeps hx hr).proper⟩
    · cases found with
      | true => exact .pure fun _ hx => hx
      | false => exact ih fun n hn => h (List.mem_cons_of_mem _ hn)

/-- A selected text may be deleted. -/
theorem permits_of_selectsText {b : Buffer} {p : Primitive} (h : b.SelectsText)
    (hp : ∀ needle direction, p ≠ .findText needle direction) : Permits markers b₀ p b :=
  ⟨fun _ _ => .inl h, fun hsearch => absurd hsearch (hp _ _)⟩

/-- With a marker selected, a deletion takes the marker out or is refused. -/
theorem delete {command : Command} (hcommand : command = .delete ∨ command = .deleteBack) :
    Meets (permitting markers b₀) (Marked b₀) (tryRun command) fun r => match r with
      | .ok true => fun x => b₀.Settled x.buffer
      | .ok false => Marked b₀
      | .error _ => fun x => x.buffer.IsProper := by
  have hallowed (x : Document) (hx : Marked b₀ x) :
      (permitting markers b₀).allows (.call (.run command)) x :=
    permits_of_selectsText hx.2 nofun
  refine .tryRun hallowed (fun x hx => hx.1.proper) (fun x found x' hx h => ?_)
    fun x e x' hx h => ?_
  · have hsettled : b₀.Settled x'.buffer :=
      hx.1.of_follows (follows_answers hx.1.proper h) nofun
    cases found with
    | true => exact hsettled
    | false =>
      -- a deletion that is let through finds the selection, so it does not report false
      obtain ⟨y, hxy, hy⟩ := exists_perform h
      obtain ⟨z, hyz, hz⟩ := exists_effect_of_ok hy
      obtain ⟨start, needle, hselects⟩ := hx.2
      have hselection :
          z.buffer.selection = some (start, start + (needle.map Element.char).length) := by
        rw [← (hxy.trans hyz).buffer]
        exact hselects.selection
      rcases hcommand with rfl | rfl
      · have hfound : (z.buffer.deleteFrom (some z.buffer.cursor)).1 = false :=
          Except.ok.inj (congrArg Prod.fst hz)
        simp [deleteFrom, hselection] at hfound
      · have hfound : (z.buffer.deleteFrom _).1 = false :=
          Except.ok.inj (congrArg Prod.fst hz)
        simp [deleteFrom, hselection] at hfound
  · have hbuffer := buffer_of_error h
    have hmarked : Marked b₀ x' := by rw [Marked, hbuffer]; exact hx
    exact ⟨hmarked, hmarked.1.proper⟩

theorem eraseMarker : Meets (permitting markers b₀) (Marked b₀) eraseMarker
    (endsIn (fun _ x => b₀.Settled x.buffer) fun _ x => x.buffer.IsProper) := by
  refine .bind (delete (.inl rfl)) (fun _ _ h => h) fun deleted => ?_
  cases deleted with
  | true => exact .pure fun _ hx => hx
  | false =>
    refine .bind (delete (.inr rfl)) (fun _ _ h => h) fun deleted => .pure fun x hx => ?_
    cases deleted with
    | true => exact hx
    | false => exact hx.1

theorem focusPlaceholder (placeholder : Placeholder) :
    (focusPlaceholder placeholder).Settles (Operation.focusPlaceholder placeholder).markers b₀ := by
  have hneedles : placeholder.needles ⊆ (Operation.focusPlaceholder placeholder).markers := by
    cases placeholder <;> exact List.Subset.refl _
  have hcell : (discard (tryRun .moveToCell)).Settles
      (Operation.focusPlaceholder placeholder).markers b₀ :=
    settles.run (spares_of_isOrdinary rfl)
  have hbegin : (discard (tryRun .moveDocBegin)).Settles
      (Operation.focusPlaceholder placeholder).markers b₀ :=
    settles.run (spares_of_isOrdinary rfl)
  have henter (zone? : Option Zone) :
      (updateState fun s => s.enterZone zone?).Settles
        (Operation.focusPlaceholder placeholder).markers b₀ := .updateState fun _ hx => hx
  have herase (zone? : Option Zone) : Meets
      (permitting (Operation.focusPlaceholder placeholder).markers b₀) (Marked b₀)
      (do Typing.eraseMarker; updateState fun s => s.enterZone zone?)
      (endsIn (fun _ x => b₀.Settled x.buffer) fun _ x => x.buffer.IsProper) :=
    .bind eraseMarker (fun _ _ h => h) fun _ => henter zone?
  rw [focusPlaceholder_eq]
  refine .bind (findAny hneedles) (fun _ _ h => h) fun found => ?_
  cases found with
  | true => exact herase _
  | false =>
    rw [if_neg Bool.false_ne_true]
    refine settles.ite (settles.bind hbegin fun _ => ?_) (henter _)
    refine .bind (findAny hneedles) (fun _ _ h => h) fun found => ?_
    cases found with
    | true => exact herase _
    | false =>
      rw [if_neg Bool.false_ne_true]
      exact settles.ite (settles.bind hcell fun _ => henter _) (henter _)

theorem insertTemplate (t : Typist σ) (template : Template) :
    (t.insertTemplate template).Settles (Operation.insertTemplate template).markers b₀ := by
  have hbegin : (discard (tryRun .moveDocBegin)).Settles
      (Operation.insertTemplate template).markers b₀ := settles.run (spares_of_isOrdinary rfl)
  have hclean : Typing.Settles (Operation.insertTemplate template).markers b₀ (do
      match template.flavor with
      | .framed => pure ()
      | .plain =>
        discard (tryRun .moveDocBegin)
        if ← Typing.findAny Zone.after.markerVariants then discard (tryRun .delete)
        discard (tryRun .moveDocBegin)) := by
    cases hflavor : template.flavor with
    | framed => exact settles.pure ()
    | plain =>
      refine settles.bind hbegin fun _ => .bind (findAny ?_) (fun _ _ h => h) fun found => ?_
      · rw [Operation.markers, hflavor]
        exact List.Subset.refl _
      · cases found with
        | false => exact hbegin
        | true =>
          refine .bind (.bind (delete (.inl rfl)) (fun _ _ h => h) fun deleted => ?_)
            (fun _ _ h => h) fun _ => hbegin
          cases deleted with
          | true => exact .pure fun _ hx => hx
          | false => exact .pure fun _ hx => hx.1
  refine settles.bind (settles.require (spares_of_isOrdinary rfl))
    fun found => settles.ite hclean ?_
  exact settles.bind (settles.throw nofun rfl) fun _ => hclean

/-- Whatever fails on the way, an operation takes out nothing else than it may. -/
theorem act (t : Typist σ) (op : Operation) : (t.act op).Settles op.markers b₀ := by
  have hspares {p : Primitive} (hp : p.isOrdinary) :
      Spares (permitting op.markers b₀) (fun x => b₀.Settled x.buffer) p := spares_of_isOrdinary hp
  cases op with
  | insertTemplate template => exact insertTemplate t template
  | focusPlaceholder placeholder => exact focusPlaceholder placeholder
  | _ =>
    exact settles.unzoned t rfl (fun _ hmove => hspares (isOrdinary_of_isMove hmove))
      (fun _ _ => hspares rfl) (fun _ => hspares rfl) (hspares rfl) (hspares rfl)
      (fun _ _ => hspares rfl) (fun _ _ => insertObject _) fun _ => .updateState fun _ hx => hx

end Settles

/-- Whatever happens on the way, an operation takes out what it may, and leaves no equation selected
    unless it fails. -/
theorem settles_operation (t : Typist σ) (op : Operation) :
    (t.operation op).Settles op.markers b₀ := by
  intro s x hx
  rw [Typist.run_operation]
  rintro (_ | _) -
  · refine ((Settles.act t op s x hx).mono ?_).bind
    rintro ⟨_ | _, s'⟩ x' h
    · exact h
    · exact h
  · exact hx.proper

end Typing

end Scribe
