import Scribe.Proofs.Text.Paths
import Scribe.Proofs.Typing.Calm

set_option autoImplicit false

/-! # Typing at the cursor

Most operations put clean and level elements behind the cursor, or move it to where no two glyphs
are parted. What does not mind this is kept by them, whatever they type. -/

namespace Scribe

open Element

variable {σ : Type} {S : List Element → List Element → Prop} {t : Typist σ} {op : Operation}

/-! ## What typing does not mind -/

/-- Nothing is selected, and the runs behind and ahead of the cursor are in a relation. -/
def Buffer.Stands (S : List Element → List Element → Prop) (b : Buffer) : Prop :=
  ∃ behind ahead, b.Splits behind ahead ∧ S behind ahead

/-- Clean and level elements may be put behind the cursor. -/
def Accepts (S : List Element → List Element → Prop) : Prop :=
  ∀ ⦃behind ahead es⦄, S behind ahead → AreClean es → IsLevel es → S (behind ++ es) ahead

/-- The cursor may go wherever it is between no two glyphs. -/
def Roams (S : List Element → List Element → Prop) : Prop :=
  ∀ ⦃behind ahead behind' ahead'⦄, S behind ahead → behind' ++ ahead' = behind ++ ahead →
    Parted behind' ahead' → S behind' ahead'

/-- What an operation types has no glyphs, and the equation that it makes shows no marker. -/
structure Typist.TypesNoMarker (t : Typist σ) (op : Operation) : Prop where
  literals : ∀ text ∈ op.literals, text.IsGlyphFree
  equation : (t.equation op).IsMarkerFree

/-- A run that is typed for an operation has no glyph. -/
theorem Typist.TypesNoMarker.isGlyphFree (h : t.TypesNoMarker op) {run : Text}
    (hrun : run ⊆ ' ' :: '\t' :: op.literals.flatten) : run.IsGlyphFree := by
  intro c hc
  have hmem := hrun hc
  simp only [List.mem_cons, List.mem_flatten] at hmem
  rcases hmem with rfl | rfl | ⟨text, htext, hc⟩
  · decide
  · decide
  · exact h.literals text htext c hc

/-! ## Replies -/

namespace Buffer

open Document

variable {b : Buffer}

theorem Stands.insert (h : b.Stands S) (haccepts : Accepts S) {es : List Element}
    (hclean : AreClean es) (hlevel : IsLevel es) : (b.insert es).Stands S := by
  obtain ⟨behind, ahead, hb, hS⟩ := h
  exact ⟨_, _, hb.insert es, haccepts hS hclean hlevel⟩

theorem Stands.run (h : b.Stands S) (hroams : Roams S) {command : Command}
    (hmove : command.isMove) : (b.run command).2.Stands S := by
  obtain ⟨behind, ahead, hb, hS⟩ := h
  rcases hb.lands hmove with hstay | ⟨helements, behind', ahead', hb', hparted⟩
  · rw [hstay]
    exact ⟨behind, ahead, hb, hS⟩
  · refine ⟨behind', ahead', hb', hroams hS ?_ hparted⟩
    rw [← hb'.elements, helements, hb.elements]

theorem areClean_lineEnd (ahead : List Element) : AreClean (Splits.lineEnd ahead) := by
  unfold Splits.lineEnd
  split
  · exact areClean_nil
  · intro e he
    obtain rfl := List.mem_singleton.1 he
    rfl

theorem isLevel_lineEnd (ahead : List Element) : IsLevel (Splits.lineEnd ahead) := by
  unfold Splits.lineEnd
  split <;> rfl

/-- A new table has nothing in its cells. -/
theorem areClean_table (cols cells : Nat) :
    AreClean (.tableOpen cols :: List.replicate cells .cellBreak ++ [.tableClose]) := by
  intro e he
  simp only [List.cons_append, List.mem_cons, List.mem_append, List.mem_replicate,
    List.not_mem_nil, or_false] at he
  rcases he with rfl | ⟨-, rfl⟩ | rfl <;> trivial

theorem Stands.insertTable (h : b.Stands S) (haccepts : Accepts S) (hroams : Roams S)
    (cols cells : Nat) : (b.insertTable cols cells).Stands S := by
  obtain ⟨behind, ahead, hb, hS⟩ := h
  have htable := haccepts hS (areClean_append.2 ⟨areClean_table cols (cells - 1),
    areClean_lineEnd ahead⟩) ((isLevel_table cols (isLevel_replicate_cellBreak _)).append
      (isLevel_lineEnd ahead))
  exact ⟨_, _, hb.insertTable cols cells, hroams htable (by simp) (parted_concat _ _ nofun)⟩

theorem reply_createTable (b : Buffer) (rows cols : Nat) :
    b.reply (.createTable rows cols) = (.ok true, b.insertTable cols (rows * cols)) ∨
      ∃ e, b.reply (.createTable rows cols) = (.error e, b) := by
  simp only [reply, effect]
  split
  · exact .inl rfl
  · exact .inr ⟨_, rfl⟩

theorem reply_objectAnchor (b : Buffer) (treatAsChar : Bool) :
    (b.reply (.objectAnchor treatAsChar)).2 = b := by
  simp only [reply, effect]
  split <;> rfl

/-- A file of the folder of templates is put in as the fragment of its name. -/
theorem reply_insertFragment (b : Buffer) (t : Typist σ) {file : Text} {es : List Element}
    (hfile : Path.IsFileName file)
    (hes : (withStandardFragments []).fragment? file = some es) :
    b.reply (.insertFragment (t.templatePath file)) = (.ok true, b.insert es) := by
  have hname : Path.fileName (t.templatePath file) = file := Path.fileName_join hfile _
  have hfragment : ({ withStandardFragments [] with buffer := b } : Document).fragment? file =
      some es := hes
  simp only [reply, effect, hname, hfragment]

/-- What the only cell of the fragment of a container holds. -/
def containerContent (framed : Bool) : Text :=
  if framed then "< 보 기 >\n".toList else []

theorem areClean_container (framed : Bool) : AreClean (.tableOpen 1 ::
    ((containerContent framed).map .char ++ [.tableClose, .char '\n'])) := by
  have hcontent : (containerContent framed).IsGlyphFree := by cases framed <;> decide
  refine areClean_cons.2 ⟨trivial, areClean_append.2 ⟨areClean_chars hcontent, ?_⟩⟩
  exact areClean_cons.2 ⟨trivial, areClean_cons.2 ⟨rfl, areClean_nil⟩⟩

theorem reply_container (b : Buffer) (t : Typist σ) (framed : Bool) :
    b.reply (.insertFragment (t.templatePath
        (if framed then Typist.framedFragment else Typist.plainFragment))) =
      (.ok true, b.insert (.tableOpen 1 ::
        ((containerContent framed).map .char ++ [.tableClose, .char '\n']))) := by
  cases framed with
  | false =>
    exact b.reply_insertFragment t ⟨by decide, by decide, by decide, by decide⟩ rfl
  | true =>
    exact b.reply_insertFragment t ⟨by decide, by decide, by decide, by decide⟩ rfl

end Buffer

/-! ## Operations -/

namespace Typing

open Buffer

theorem spares_insertText (haccepts : Accepts S) {run : Text} (hrun : run.IsGlyphFree) :
    Spares calmly (Stands S) (.insertText run) :=
  spares_calmly fun _ hb => hb.insert haccepts (areClean_chars hrun) (isLevel_chars run)

theorem spares_breakPara (haccepts : Accepts S) :
    Spares calmly (Stands S) (.run .breakPara) := by
  have hline : Spares calmly (Stands S) (.insertText ['\n']) :=
    spares_insertText haccepts (by decide)
  exact ⟨hline.allowed, hline.keeps⟩

/-- Typing an equation puts it behind the cursor. -/
theorem Yields.insertObject (haccepts : Accepts S) {spec : EquationSpec}
    (hspec : spec.text.IsMarkerFree) :
    Yields (Stands S) (insertObject spec) fun _ => Stands S := by
  have hcreate : Yields (Stands S) (Functor.discard (Typing.require (.createEquation spec)))
      fun _ b' => ∃ b : Buffer, b.Stands S ∧ b' = b.insertEquation spec.text :=
    .discard (.require fun b _ b' hb hr => ⟨b, hb, (congrArg Prod.snd hr).symm⟩)
  have hanchor : Yields (fun b' => ∃ b : Buffer, b.Stands S ∧ b' = b.insertEquation spec.text)
      (Functor.discard (Typing.require (.objectAnchor spec.treatAsChar)))
      fun _ b' => ∃ b : Buffer, b.Stands S ∧ b' = b.insertEquation spec.text := by
    refine .discard (.require fun b _ b' hb hr => ?_)
    rwa [← show (b.reply _).2 = b' from congrArg Prod.snd hr, reply_objectAnchor]
  have hcancel : Yields (fun b' => ∃ b : Buffer, b.Stands S ∧ b' = b.insertEquation spec.text)
      (Functor.discard (Typing.require (.run .cancel)))
      fun _ b' => ∃ b : Buffer, b.Stands S ∧
        b' = ((b.insertEquation spec.text).run .cancel).2 := by
    refine .discard (.require ?_)
    rintro _ _ b' ⟨b, hb, rfl⟩ hr
    exact ⟨b, hb, (congrArg Prod.snd hr).symm⟩
  have hright : Yields (fun b' => ∃ b : Buffer, b.Stands S ∧
        b' = ((b.insertEquation spec.text).run .cancel).2)
      (Functor.discard (Typing.require (.run .moveRight))) fun _ => Stands S := by
    refine .discard (.require ?_)
    rintro _ _ b' ⟨b, ⟨behind, ahead, hb, hS⟩, rfl⟩ hr
    rw [← show (Buffer.reply _ _).2 = b' from congrArg Prod.snd hr]
    refine ⟨_, _, hb.insertEquation spec.text, haccepts hS ?_ rfl⟩
    exact areClean_cons.2 ⟨hspec, areClean_nil⟩
  exact hcreate.bind fun _ => hanchor.bind fun _ => hcancel.bind fun _ => hright

/-- An operation that is neither a move nor about a table keeps what does not mind typing. -/
theorem Yields.plain (haccepts : Accepts S) (hplain : op.isPlain) (h : t.TypesNoMarker op) :
    Yields (Stands S) (t.act op) fun _ => Stands S :=
  (Yields.composes (Stands S)).plain t hplain (spares_breakPara haccepts)
    (fun _ hrun => spares_insertText haccepts (h.isGlyphFree hrun))
    fun _ hspec => .insertObject haccepts (h.equation.of_infix hspec)

/-- An operation that is not about a template keeps what does not mind typing and moving. -/
theorem Yields.unzoned (haccepts : Accepts S) (hroams : Roams S) (hop : op.isZoning = false)
    (h : t.TypesNoMarker op) : Yields (Stands S) (t.act op) fun _ => Stands S := by
  refine (Yields.composes (Stands S)).unzoned t hop
    (fun command hmove => spares_calmly fun b hb => ?_)
    (fun rows cols => spares_calmly fun b hb => ?_) (fun framed => spares_calmly fun b hb => ?_)
    (spares_breakPara haccepts) (spares_insertText haccepts (by decide))
    (fun run hrun => spares_insertText haccepts (h.isGlyphFree hrun))
    (fun spec hspec => .insertObject haccepts ?_) fun _ => .updateState _
  · rw [b.reply_run]
    exact hb.run hroams hmove
  · rcases b.reply_createTable rows cols with htable | ⟨_, hsame⟩
    · rw [htable]
      exact hb.insertTable haccepts hroams cols _
    · rwa [hsame]
  · rw [b.reply_container]
    refine hb.insert haccepts (areClean_container framed) ?_
    cases framed <;> rfl
  · rcases hspec with hspec | ⟨text, htext, hspec⟩
    · exact h.equation.of_infix hspec
    · exact (h.literals text htext).isMarkerFree.of_infix hspec

end Typing

end Scribe
