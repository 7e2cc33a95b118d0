import Scribe.Proofs.Repair.Stages

set_option autoImplicit false

/-! # The skeleton of a script

Templates, zone requests and the lines that open and close containers make up the skeleton of a
script. Most repairs only touch what stands in between: they keep the skeleton line by line, so
whatever can be told from it holds before them if and only if it holds behind them. -/

namespace Scribe.Repair

/-! ## Kinds of written lines -/

theorem classify_call (verb : Verb) {args : Text} (h : Balance.IsClosed args) :
    Line.classify (verb.name ++ '(' :: args ++ [')']) = Line.ofCall verb args := by
  rw [Line.classify, CallLine.ofLine?_call verb h]
  simp only [Verb.ofName?_name]

theorem classify_renderCall (verb : Verb) (value : Text) :
    Line.classify (renderCall verb value) = Line.ofCall verb (Literal.quote value) :=
  classify_call verb (Literal.isClosed_quote value)

@[simp] theorem classify_renderCall_insertText (value : Text) :
    Line.classify (renderCall .insertText value) = .text value := by
  rw [classify_renderCall, Line.ofCall, singleLiteral?_quote]

@[simp] theorem classify_enterLine : Line.classify enterLine = .lineBreak :=
  classify_call .insertEnter Balance.isClosed_nil

@[simp] theorem classify_spaceLine : Line.classify spaceLine = .space :=
  classify_call .insertSpace Balance.isClosed_nil

@[simp] theorem classify_openBoxLine : Line.classify openBoxLine = .opening .insertBox :=
  classify_call .insertBox Balance.isClosed_nil

@[simp] theorem classify_exitBoxLine : Line.classify exitBoxLine = .exit :=
  classify_call .exitBox Balance.isClosed_nil

@[simp] theorem classify_alignRightLine : Line.classify alignRightLine = .alignRight :=
  classify_call .setAlignRightNextLine Balance.isClosed_nil

@[simp] theorem classify_alignJustifyLine : Line.classify alignJustifyLine = .alignJustify :=
  classify_call .setAlignJustifyNextLine Balance.isClosed_nil

@[simp] theorem classify_focusLine (z : Zone) : Line.classify z.focusLine = .focus (.zone z) := by
  have hmarker : Placeholder.ofMarker z.marker = .zone z := by cases z <;> decide
  rw [Zone.focusLine, classify_renderCall, Line.ofCall, singleLiteral?_quote]
  simp only [hmarker]

/-! ## Structural lines -/

/-- Does a line of this kind bear on zones and containers? -/
def Line.isStructural : Line → Bool
  | .template _ | .focus (.zone _) | .opening _ | .exit => true
  | _ => false

theorem Line.isStructural_of_isBreak {kind : Line} (h : kind.isBreak = true) :
    kind.isStructural = false := by
  cases kind <;> simp_all [isBreak, isStructural]

theorem Line.isStructural_of_literal? {kind : Line} {literal : Text}
    (h : kind.literal? = some literal) : kind.isStructural = false := by
  cases kind <;> simp_all [literal?, isStructural]

theorem Line.isStructural_of_points? {kind : Line} {points : Nat} (h : kind.points? = some points) :
    kind.isStructural = false := by
  obtain ⟨literal, hliteral, _⟩ := Option.bind_eq_some_iff.1 h
  exact isStructural_of_literal? hliteral

theorem Line.isStructural_of_yieldsToScore {kind : Line} (h : kind.yieldsToScore = true) :
    kind.isStructural = false := by
  cases kind <;> simp_all [yieldsToScore, isStructural]

theorem Line.ne_of_isStructural {kind kind' : Line} (h : kind.isStructural = false)
    (h' : kind'.isStructural = true) : kind ≠ kind' := by
  rintro rfl
  rw [h] at h'
  exact absurd h' (by decide)

theorem Line.isTemplate_of_isStructural {kind : Line} (h : kind.isStructural = false) :
    kind.isTemplate = false := by
  cases kind <;> simp_all [isTemplate, isStructural]

theorem Line.isExit_of_isStructural {kind : Line} (h : kind.isStructural = false) :
    kind.isExit = false := by
  cases kind <;> simp_all [isExit, isStructural]

theorem Line.zone?_of_isStructural {kind : Line} (h : kind.isStructural = false) :
    kind.zone? = none := by
  cases hzone : kind.zone? with
  | none => rfl
  | some z =>
    unfold zone? at hzone
    split at hzone
    · exact absurd h (by simp [isStructural])
    · simp at hzone

/-- The kinds of the structural lines of a script. -/
def skeleton (lines : List Text) : List Line :=
  (lines.map Line.classify).filter Line.isStructural

@[simp] theorem skeleton_nil : skeleton [] = [] := rfl

@[simp] theorem skeleton_append (a b : List Text) :
    skeleton (a ++ b) = skeleton a ++ skeleton b := by
  rw [skeleton, List.map_append, List.filter_append, skeleton, skeleton]

@[simp] theorem skeleton_reverse (lines : List Text) :
    skeleton lines.reverse = (skeleton lines).reverse := by
  rw [skeleton, List.map_reverse, List.filter_reverse, skeleton]

theorem skeleton_cons (line : Text) (lines : List Text) :
    skeleton (line :: lines) = skeleton [line] ++ skeleton lines := skeleton_append [line] lines

/-- A line that is not structural does not count. -/
theorem skeleton_cons_of_neg {line : Text} (h : (Line.classify line).isStructural = false)
    (lines : List Text) : skeleton (line :: lines) = skeleton lines := by
  rw [skeleton, List.map_cons, List.filter_cons_of_neg (by rw [h]; decide), skeleton]

theorem reverse_skeleton_singleton (line : Text) :
    (skeleton [line]).reverse = skeleton [line] := by
  rw [← skeleton_reverse]
  rfl

/-- What is told from structural lines only is told from the skeleton. -/
theorem filterMap_classify_eq {α : Type} {f : Line → Option α}
    (hf : ∀ kind, kind.isStructural = false → f kind = none) (lines : List Text) :
    (lines.filterMap fun l => f (Line.classify l)) = (skeleton lines).filterMap f := by
  have hkind (kind : Line) : (if kind.isStructural then f kind else none) = f kind := by
    by_cases h : kind.isStructural = true
    · rw [if_pos h]
    · rw [if_neg h, hf kind (by simpa using h)]
  simp only [skeleton, List.filterMap_filter, hkind, List.filterMap_map]
  rfl

theorem skeleton_dropWhile {p : Text → Bool}
    (hp : ∀ l, p l = true → (Line.classify l).isStructural = false) (lines : List Text) :
    skeleton (lines.dropWhile p) = skeleton lines := by
  induction lines with
  | nil => rfl
  | cons line lines ih =>
    rw [List.dropWhile_cons]
    split
    · next h => rw [ih, skeleton_cons_of_neg (hp line h)]
    · rfl

theorem skeleton_map {f : Text → Text} (hf : ∀ l, skeleton [f l] = skeleton [l])
    (lines : List Text) : skeleton (lines.map f) = skeleton lines := by
  induction lines with
  | nil => rfl
  | cons line lines ih => rw [List.map_cons, skeleton_cons, skeleton_cons line, hf, ih]

theorem skeleton_dropBreaks (written : List Text) :
    skeleton (dropBreaks written) = skeleton written :=
  skeleton_dropWhile (fun _ => Line.isStructural_of_isBreak) written

theorem skeleton_trimBreaks (lines : List Text) :
    skeleton (trimBreaks lines) = skeleton lines := by
  rw [trimBreaks, skeleton_reverse, skeleton_dropBreaks, skeleton_reverse, List.reverse_reverse]

/-! ## Repairs that keep the skeleton -/

/-- A repair that writes lines last first keeps the skeleton if each of its steps adds what its line
    has of it. -/
theorem skeleton_foldl {σ : Type} {f : σ → Text → σ} (w : σ → List Text)
    (hstep : ∀ state line,
      skeleton (w (f state line)) = skeleton [line] ++ skeleton (w state))
    (state : σ) (lines : List Text) :
    skeleton (w (lines.foldl f state)) = (skeleton lines).reverse ++ skeleton (w state) := by
  induction lines generalizing state with
  | nil => rfl
  | cons line lines ih =>
    rw [List.foldl_cons, ih, hstep, skeleton_cons line lines, List.reverse_append,
      reverse_skeleton_singleton, List.append_assoc]

theorem skeleton_compactContainerBreaks (lines : List Text) :
    skeleton (compactContainerBreaks lines) = skeleton lines := by
  rw [compactContainerBreaks, skeleton_reverse, skeleton_foldl Prod.snd]
  · simp
  · rintro ⟨nesting, written⟩ line
    simp only [compactStep]
    split
    · next h =>
      have hbreak := Line.isStructural_of_isBreak (Bool.and_eq_true_iff.1 h).1
      rw [skeleton_cons_of_neg hbreak, skeleton_nil, List.nil_append]
      split
      · rfl
      · exact skeleton_cons_of_neg (by rw [classify_enterLine]; rfl) written
    · rw [skeleton_cons]
      split
      · rw [skeleton_dropBreaks]
      · rfl

theorem skeleton_dropBreakAfterExit (lines : List Text) :
    skeleton (dropBreakAfterExit lines) = skeleton lines := by
  have hfold := skeleton_foldl (f := exitStep) (fun written => written)
    (fun written line => ?_) [] lines
  · rw [dropBreakAfterExit, skeleton_reverse, hfold]
    simp
  · simp only [exitStep]
    split
    · next h =>
      have hbreak := Line.isStructural_of_isBreak (Bool.and_eq_true_iff.1 h).1
      rw [skeleton_cons_of_neg hbreak, skeleton_nil, List.nil_append]
    · exact skeleton_cons line written

theorem skeleton_writeScore (points : Nat) (written : List Text) :
    skeleton (writeScore points written) = skeleton written := by
  have hkept := skeleton_dropWhile (p := fun line => (Line.classify line).yieldsToScore)
    (fun _ => Line.isStructural_of_yieldsToScore) written
  simp only [writeScore]
  rw [skeleton_cons_of_neg (by rw [classify_renderCall_insertText]; rfl),
    skeleton_cons_of_neg (by rw [classify_alignRightLine]; rfl), ← hkept]
  cases List.dropWhile _ written with
  | nil => rfl
  | cons last kept =>
    simp only
    split
    · rfl
    · exact skeleton_cons_of_neg (by rw [classify_enterLine]; rfl) _

theorem skeleton_isolateScoreLines (lines : List Text) :
    skeleton (isolateScoreLines lines) = skeleton lines := by
  have henter : (Line.classify enterLine).isStructural = false := by rw [classify_enterLine]; rfl
  rw [isolateScoreLines, skeleton_reverse, skeleton_foldl Prod.snd]
  · simp
  · rintro ⟨owed, written⟩ line
    simp only [scoreStep]
    split
    · next points h =>
      rw [skeleton_writeScore, skeleton_cons_of_neg (Line.isStructural_of_points? h),
        skeleton_nil, List.nil_append]
    · split
      · next h =>
        rw [skeleton_cons_of_neg henter, skeleton_cons_of_neg (by rw [h]; rfl), skeleton_nil,
          List.nil_append]
      · next h => rw [skeleton_cons_of_neg (by rw [h]; rfl), skeleton_nil, List.nil_append]
      · exact skeleton_cons line written
      · exact skeleton_cons line written
      · exact skeleton_cons line written
      · rw [skeleton_cons, skeleton_cons_of_neg henter]
      · exact skeleton_cons line written

theorem skeleton_pruneTabIndicators (lines : List Text) :
    skeleton (pruneTabIndicators lines) = skeleton lines := by
  induction lines with
  | nil => rfl
  | cons line lines ih =>
    rw [pruneTabIndicators, skeleton_cons, skeleton_cons line, ih]
    split
    · next h =>
      have hnone : (Line.classify line).isStructural = false := by
        have htab := (Bool.and_eq_true_iff.1 h).1
        unfold insertsTab at htab
        split at htab
        · next literal hc => exact Line.isStructural_of_literal? (by rw [hc]; rfl)
        · simp at htab
      rw [skeleton_cons_of_neg hnone, skeleton_cons_of_neg (by rw [classify_spaceLine]; rfl)]
    · rfl

theorem skeleton_stripChoiceLeadingSpace (lines : List Text) :
    skeleton (stripChoiceLeadingSpace lines) = skeleton lines := by
  refine skeleton_map (fun line => ?_) lines
  unfold stripChoice
  split
  · next literal h =>
    split
    · rw [skeleton_cons_of_neg (by rw [classify_renderCall_insertText]; rfl),
        skeleton_cons_of_neg (by rw [h]; rfl)]
    · rfl
  · rfl

end Scribe.Repair
