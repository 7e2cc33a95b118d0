import Scribe.Proofs.Document.Depth
import Scribe.Proofs.Session.Lives
import Scribe.Proofs.Typing.Selecting

set_option autoImplicit false

/-! # Tables stay whole

Main statement: in the whole life of a document whose fragments are balanced, the delimiters of its
tables stay balanced, and no delimiter and no break between cells is ever taken out, whatever fails,
dies, is tried again or is cancelled. -/

namespace Scribe

/-! ## Balanced delimiters -/

namespace Element

/-- Does an element close a table? -/
def isClose : Element → Bool
  | .tableClose => true
  | _ => false

/-- How many tables elements open. -/
def opens (es : List Element) : Nat := es.countP isOpen

/-- How many tables elements close. -/
def closes (es : List Element) : Nat := es.countP isClose

/-- The first elements, however many, open at least as many tables as they close; all of them open
    as many as they close. -/
structure AreBalanced (es : List Element) : Prop where
  closes_take_le (k : Nat) : closes (es.take k) ≤ opens (es.take k)
  closes_eq : closes es = opens es

variable {as bs es : List Element}

@[simp] theorem opens_append (as bs : List Element) : opens (as ++ bs) = opens as + opens bs :=
  List.countP_append

@[simp] theorem closes_append (as bs : List Element) : closes (as ++ bs) = closes as + closes bs :=
  List.countP_append

theorem AreContent.opens_eq (h : AreContent es) : opens es = 0 :=
  List.countP_eq_zero.2 fun e he => by
    have hcontent := h e he
    cases e <;> simp_all [isOpen, isDelimiter]

theorem AreContent.closes_eq (h : AreContent es) : closes es = 0 :=
  List.countP_eq_zero.2 fun e he => by
    have hcontent := h e he
    cases e <;> simp_all [isClose, isDelimiter]

theorem AreContent.areBalanced (h : AreContent es) : AreBalanced es where
  closes_take_le k := by
    have htake : AreContent (es.take k) := fun e he => h e (List.mem_of_mem_take he)
    exact Nat.le_of_eq (htake.closes_eq.trans htake.opens_eq.symm)
  closes_eq := by rw [h.opens_eq, h.closes_eq]

theorem areBalanced_nil : AreBalanced [] := ⟨fun k => by simp [opens, closes], rfl⟩

theorem AreBalanced.append (ha : AreBalanced as) (hb : AreBalanced bs) :
    AreBalanced (as ++ bs) where
  closes_take_le k := by
    rw [List.take_append, closes_append, opens_append]
    exact Nat.add_le_add (ha.closes_take_le k) (hb.closes_take_le _)
  closes_eq := by rw [closes_append, opens_append, ha.closes_eq, hb.closes_eq]

/-- Where elements that are no delimiters give way to balanced ones, the balance stays. -/
theorem AreBalanced.replace {removed inserted : List Element}
    (h : AreBalanced (as ++ removed ++ bs)) (hremoved : AreContent removed)
    (hinserted : AreBalanced inserted) : AreBalanced (as ++ inserted ++ bs) where
  closes_take_le k := by
    have hins := hinserted.closes_take_le (k - as.length)
    rw [List.append_assoc, List.take_append, List.take_append, closes_append, closes_append,
      opens_append, opens_append]
    rcases Nat.le_total k (as.length + inserted.length) with hk | hk
    · have has : closes (as.take k) ≤ opens (as.take k) := by
        have hprefix := h.closes_take_le (min k as.length)
        rwa [List.append_assoc, List.take_append_of_le_length (Nat.min_le_right _ _),
          List.take_eq_take_min.symm] at hprefix
      have hbs : bs.take (k - as.length - inserted.length) = [] := by
        rw [Nat.sub_sub, Nat.sub_eq_zero_of_le hk, List.take_zero]
      rw [hbs]
      simp only [closes, opens, List.countP_nil] at has hins ⊢
      omega
    · -- behind what was put in, the same elements follow as before
      have hrest :=
        h.closes_take_le (as.length + removed.length + (k - as.length - inserted.length))
      rw [← List.length_append, List.take_length_add_append] at hrest
      rw [List.take_of_length_le (by omega : as.length ≤ k),
        List.take_of_length_le (by omega : inserted.length ≤ k - as.length)]
      simp only [closes_append, opens_append, hremoved.opens_eq, hremoved.closes_eq,
        hinserted.closes_eq] at hrest ⊢
      omega
  closes_eq := by
    have htotal := h.closes_eq
    simp only [closes_append, opens_append, hremoved.opens_eq, hremoved.closes_eq,
      hinserted.closes_eq] at htotal ⊢
    omega

instance (es : List Element) : Decidable (AreBalanced es) :=
  decidable_of_iff ((∀ k ≤ es.length, closes (es.take k) ≤ opens (es.take k)) ∧
    closes es = opens es)
    ⟨fun h => ⟨fun k => by
      rcases Nat.le_total k es.length with hk | hk
      · exact h.1 k hk
      · rw [List.take_of_length_le hk]
        exact Nat.le_of_eq h.2, h.2⟩,
    fun h => ⟨fun k _ => h.closes_take_le k, h.closes_eq⟩⟩

theorem areBalanced_table (cols cells : Nat) :
    AreBalanced (.tableOpen cols :: List.replicate cells .cellBreak ++ [.tableClose]) := by
  obtain ⟨table, htable⟩ : ∃ table : List Element,
      table = .tableOpen cols :: List.replicate cells .cellBreak ++ [.tableClose] := ⟨_, rfl⟩
  have hcloses : closes table = 1 := by
    simp [htable, closes, List.countP_cons, List.countP_replicate, isClose]
  have hopens : opens table = 1 := by
    simp [htable, opens, List.countP_cons, List.countP_replicate, isOpen]
  rw [← htable]
  refine ⟨fun k => ?_, hcloses.trans hopens.symm⟩
  cases k with
  | zero => exact Nat.le_refl 0
  | succ k =>
    have hle : closes (table.take (k + 1)) ≤ closes table := (List.take_sublist _ _).countP_le
    have hopen : 1 ≤ opens (table.take (k + 1)) := by
      simp [htable, opens, List.countP_cons, isOpen]
    omega

end Element

/-! ## Edits -/

open Element Buffer

/-- What a call puts in is balanced, when the fragments are. -/
theorem Buffer.areBalanced_inserted (b : Buffer) {fragments : List (Text × List Element)}
    (h : ∀ f ∈ fragments, AreBalanced f.2) (p : Primitive) :
    AreBalanced (b.splice fragments p).inserted := by
  have hreplacing {es : List Element} (hes : AreBalanced es) :
      AreBalanced (b.replacing es).inserted := by
    unfold replacing
    split <;> exact hes
  have hdeleting (start? : Option Nat) : AreBalanced (b.deleting start?).inserted := by
    unfold deleting
    split
    · exact areBalanced_nil
    · split <;> exact areBalanced_nil
    · exact areBalanced_nil
  cases p with
  | insertText text => exact hreplacing (areContent_chars text).areBalanced
  | run command =>
    cases command with
    | breakPara => exact hreplacing (areContent_chars ['\n']).areBalanced
    | delete | deleteBack => exact hdeleting _
    | _ => exact areBalanced_nil
  | createTable rows cols =>
    simp only [splice]
    split
    · refine hreplacing ((areBalanced_table _ _).append ?_)
      split
      · exact areBalanced_nil
      · exact (areContent_chars ['\n']).areBalanced
    · exact areBalanced_nil
  | createEquation spec => exact hreplacing (areContent_equation _).areBalanced
  | insertFragment path =>
    simp only [splice]
    split
    · next es hes =>
      obtain ⟨before, behind, rfl, -⟩ := List.lookup_eq_some_iff.1 hes
      exact hreplacing (h (Path.fileName path, es) (by simp))
    · exact areBalanced_nil
  | _ => exact areBalanced_nil

/-! ## Lives -/

/-- A call takes out content only: a text or an equation that was selected. -/
def Moment.IsCareful (m : Moment) : Prop :=
  m.splice.removed ≠ 0 → ∃ es, m.Takes es ∧ AreContent es

theorem Moment.isCareful_of_permits {m : Moment} {markers : List Text} {b₀ : Buffer}
    (h : Permits markers b₀ m.call m.document.buffer) : m.IsCareful := by
  intro hremoved
  rcases m.takes_of_permits h hremoved with ⟨needle, htakes⟩ | ⟨⟨text, htakes⟩, -⟩
  · exact ⟨_, htakes, areContent_chars needle⟩
  · exact ⟨_, htakes, areContent_equation text⟩

namespace Document

variable {x z : Document} {ms : List Moment}

/-- Every call in a life is careful. -/
theorem Lives.isCareful (h : x.Lives ms z) (hx : x.buffer.IsProper) : ∀ m ∈ ms, m.IsCareful := by
  have hkept : KeptByAttempts fun ms y => y.buffer.IsProper ∧ ∀ m ∈ ms, Moment.IsCareful m := by
    refine ⟨fun {t op s r ms ns y z} hy hgoes => ?_, fun hy hsame => ⟨hsame.buffer ▸ hy.1, hy.2⟩⟩
    have hsettled : y.buffer.Settled y.buffer := ⟨hy.1, fun _ => .refl _⟩
    obtain ⟨hpermits, hends⟩ := hgoes.of_ensures (Typing.settles_operation t op s y hsettled)
    refine ⟨hgoes.course.isProper hy.1, fun m hm => ?_⟩
    rcases List.mem_append.1 hm with hm | hm
    · exact hy.2 m hm
    · exact Moment.isCareful_of_permits (hpermits m hm)
  exact (h.induction ⟨hx, fun _ hm => absurd hm List.not_mem_nil⟩ hkept).2

/-- A careful call keeps the balance. -/
theorem areBalanced_after {m : Moment} (hproper : m.document.buffer.IsProper) (h : m.IsCareful)
    (hfragments : ∀ f ∈ m.document.fragments, AreBalanced f.2)
    (hbalanced : AreBalanced m.document.buffer.elements) :
    AreBalanced m.after.buffer.elements := by
  have hinserted : AreBalanced m.splice.inserted := by
    unfold Moment.splice Document.splice
    split
    · exact Buffer.areBalanced_inserted _ hfragments _
    · exact areBalanced_nil
  rw [Moment.after, elements_perform _ hproper.hasOrderedSelection]
  show AreBalanced (m.splice.apply m.document.buffer.elements)
  obtain ⟨removed, hremoved, helements⟩ : ∃ removed, AreContent removed ∧
      m.document.buffer.elements = m.document.buffer.elements.take m.splice.start ++ removed ++
        m.document.buffer.elements.drop (m.splice.start + m.splice.removed) := by
    by_cases hzero : m.splice.removed = 0
    · exact ⟨[], fun _ he => absurd he List.not_mem_nil, by simp [hzero]⟩
    · obtain ⟨es, htakes, hcontent⟩ := h hzero
      obtain ⟨rest, hrest⟩ := htakes.selects.stands
      refine ⟨es, hcontent, ?_⟩
      rw [htakes.removed, ← List.drop_drop, ← hrest, List.drop_left, List.append_assoc, hrest,
        List.take_append_drop]
  rw [helements] at hbalanced
  exact hbalanced.replace hremoved hinserted

/-- Careful calls keep the balance all along. -/
theorem Course.areBalanced (h : Course x ms z) (hx : x.buffer.IsProper)
    (hcareful : ∀ m ∈ ms, m.IsCareful) (hfragments : ∀ f ∈ x.fragments, AreBalanced f.2)
    (hbalanced : AreBalanced x.buffer.elements) :
    AreBalanced z.buffer.elements ∧
      ∀ m ∈ ms, AreBalanced m.document.buffer.elements ∧ AreBalanced m.after.buffer.elements := by
  induction h with
  | done hxy => exact ⟨hxy.buffer ▸ hbalanced, fun _ hm => absurd hm List.not_mem_nil⟩
  | @call x y z p ms hxy _ ih =>
    have hy : y.buffer.IsProper := hxy.buffer ▸ hx
    have hbefore : AreBalanced y.buffer.elements := hxy.buffer ▸ hbalanced
    have hafter : AreBalanced (y.perform p).2.buffer.elements :=
      areBalanced_after (m := ⟨y, p⟩) hy (hcareful _ List.mem_cons_self)
        (hxy.fragments ▸ hfragments) hbefore
    obtain ⟨hend, hms⟩ := ih (isProper_perform hy p)
      (fun m hm => hcareful m (List.mem_cons_of_mem _ hm))
      (by rw [fragments_perform, ← hxy.fragments]; exact hfragments) hafter
    refine ⟨hend, fun m hm => ?_⟩
    rcases List.mem_cons.1 hm with rfl | hm
    · exact ⟨hbefore, hafter⟩
    · exact hms m hm

/-- Careful calls never take out a delimiter. -/
theorem Course.follow_of_isDelimiter (h : Course x ms z) (hx : x.buffer.IsProper)
    (hcareful : ∀ m ∈ ms, m.IsCareful) {i : Nat} {e : Element}
    (hi : x.buffer.elements[i]? = some e) (he : e.isDelimiter) :
    ∃ j, Splice.followAll? (splicesOf ms) i = some j ∧ z.buffer.elements[j]? = some e := by
  rcases h.follow hx hi with hfound | ⟨before, m, behind, j, rfl, -, hj, hstart, hstop⟩
  · exact hfound
  · obtain ⟨es, htakes, hcontent⟩ := hcareful m (by simp) (by omega)
    have hmem : es[j - m.splice.start]? = some e := by
      rw [htakes.removed] at hstop
      have hget := List.prefix_iff_getElem?.1 htakes.selects.stands (j - m.splice.start) (by omega)
      rw [List.getElem?_drop, Nat.add_sub_cancel' hstart, hj] at hget
      rw [List.getElem?_eq_getElem (by omega), ← hget]
    have hcontentful := hcontent e (List.mem_of_getElem? hmem)
    rw [he] at hcontentful
    cases hcontentful

/-- In the life of a document with balanced fragments the contents stay balanced at every call, and
    every delimiter that is there at any time is there in the end. -/
theorem Lives.keeps_tables (h : x.Lives ms z) (hx : x.buffer.IsProper)
    (hfragments : ∀ f ∈ x.fragments, AreBalanced f.2) (hbalanced : AreBalanced x.buffer.elements) :
    (AreBalanced z.buffer.elements ∧
      ∀ m ∈ ms, AreBalanced m.document.buffer.elements ∧ AreBalanced m.after.buffer.elements) ∧
    ∀ before m behind, ms = before ++ m :: behind → ∀ i e,
      m.document.buffer.elements[i]? = some e → e.isDelimiter →
      ∃ j, Splice.followAll? (splicesOf (m :: behind)) i = some j ∧
        z.buffer.elements[j]? = some e := by
  have hcareful := h.isCareful hx
  refine ⟨h.course.areBalanced hx hcareful hfragments hbalanced, ?_⟩
  rintro before m behind rfl i e hi he
  obtain ⟨hbefore, hbehind⟩ := h.course.split
  refine hbehind.follow_of_isDelimiter (hbefore.isProper hx) (fun m' hm' => ?_) hi he
  exact hcareful m' (List.mem_append_right _ hm')

theorem keeps_tables_box :
    ∃ ms z, (withStandardFragments "doc.hwp".toList).Lives ms z ∧ z.buffer.text = "[ ]\n".toList ∧
      (AreBalanced z.buffer.elements ∧
        ∀ m ∈ ms, AreBalanced m.document.buffer.elements ∧ AreBalanced m.after.buffer.elements) ∧
      ∀ before m behind, ms = before ++ m :: behind → ∀ i e,
        m.document.buffer.elements[i]? = some e → e.isDelimiter →
        ∃ j, Splice.followAll? (splicesOf (m :: behind)) i = some j ∧
          z.buffer.elements[j]? = some e := by
  have hfragments : ∀ f ∈ (withStandardFragments "doc.hwp".toList).fragments,
      AreBalanced f.2 := by decide +kernel
  obtain ⟨ms, hlives⟩ := Session.exists_lives_run {} {} (fun latex _ => latex) .full
    "insert_box()\ninsert_space()".toList none
    { desk := { target := withStandardFragments "doc.hwp".toList }, attached := true }
  exact ⟨ms, _, hlives, by decide +kernel,
    hlives.keeps_tables ⟨Nat.le_refl 0, .inl rfl⟩ hfragments areBalanced_nil⟩

end Document

end Scribe
