import Scribe.Proofs.Decimal.Integers
import Scribe.Proofs.Repair.Skeleton

set_option autoImplicit false

/-! # Scores on lines of their own

Whatever surrounds a score in a script, it ends up with a right alignment in front of it and single
breaks around both. The invariant looks back only: which lines may stand behind the ones already
written. A line that may stand where it stands is written as it is, so what the repair makes of a
script is left alone by it; and no step loses a line that a score does not replace. -/

namespace Scribe.Repair

open Text (isWhite isDecimal)

/-! ## Reading a score back -/

theorem isDecimal_of_isDigit {c : Char} (h : c.isDigit = true) : isDecimal c = true := by
  have hbound : c.toNat < 128 := by
    simp only [Char.isDigit, Bool.and_eq_true, decide_eq_true_eq, UInt32.le_iff_toNat_le] at h
    exact Nat.lt_of_le_of_lt h.2 (by decide)
  rw [isDecimal, if_pos hbound, h]

theorem isWhite_of_isDigit {c : Char} (h : c.isDigit = true) : isWhite c = false := by
  simp only [Char.isDigit, Bool.and_eq_true, decide_eq_true_eq, UInt32.le_iff_toNat_le] at h
  have hlow : 48 ≤ c.toNat := h.1
  have hhigh : c.toNat ≤ 57 := h.2
  simp only [isWhite, Bool.or_eq_false_iff, Bool.and_eq_false_iff, decide_eq_false_iff_not,
    beq_eq_false_iff_ne]
  omega

theorem stripStart?_singleton (c : Char) (s : Text) : Text.stripStart? [c] (c :: s) = some s := by
  simp [Text.stripStart?]

/-- A score that was written is read back. -/
theorem scorePoints?_scoreLiteral {n : Nat} (h : n ≤ maxPoints) :
    scorePoints? (scoreLiteral n) = some n := by
  have hstart (s : Text) : (Decimal.natText n ++ s).dropWhile isWhite = Decimal.natText n ++ s := by
    obtain ⟨c, digits, htext, hdigit⟩ := Decimal.exists_natText_eq n
    rw [htext, List.cons_append]
    exact List.dropWhile_cons_of_neg (by simp [isWhite_of_isDigit hdigit])
  have hdecimal : ∀ c ∈ Decimal.natText n, isDecimal c = true :=
    fun _ hc => isDecimal_of_isDigit (Decimal.isDigit_of_mem_natText hc)
  have htake : (Decimal.natText n ++ ['점', ']']).takeWhile isDecimal = Decimal.natText n := by
    rw [List.takeWhile_append_of_pos hdecimal,
      List.takeWhile_cons_of_neg (by decide), List.append_nil]
  have hdrop : (Decimal.natText n ++ ['점', ']']).dropWhile isDecimal = ['점', ']'] := by
    rw [List.dropWhile_append_of_pos hdecimal, List.dropWhile_cons_of_neg (by decide)]
  have hlead : (scoreLiteral n).dropWhile isWhite = '[' :: (Decimal.natText n ++ ['점', ']']) :=
    List.dropWhile_cons_of_neg (by decide)
  have hunit : (['점', ']'] : Text).dropWhile isWhite = ['점', ']'] := by decide
  have hclose : ([']'] : Text).dropWhile isWhite = [']'] := by decide
  simp only [scorePoints?, hlead, stripStart?_singleton, Option.bind_eq_bind, Option.bind_some,
    hstart, htake, hdrop, hunit, hclose, Decimal.digits?_natText, List.all_nil, if_true,
    Option.filter_some, h, decide_true]

theorem le_maxPoints {literal : Text} {n : Nat} (h : scorePoints? literal = some n) :
    n ≤ maxPoints := by
  simp only [scorePoints?, Option.bind_eq_bind, Option.bind_eq_some_iff] at h
  obtain ⟨s, -, t, -, u, -, h⟩ := h
  split at h
  · exact of_decide_eq_true (Option.filter_eq_some_iff.1 h).2
  · cases h

/-- The line that a score is rendered as. -/
def scoreLine (points : Nat) : Text := renderCall .insertText (scoreLiteral points)

theorem points?_scoreLine {line : Line} {n : Nat} (h : line.points? = some n) :
    (Line.classify (scoreLine n)).points? = some n := by
  obtain ⟨literal, -, hliteral⟩ := Option.bind_eq_some_iff.1 h
  rw [scoreLine, classify_renderCall_insertText]
  exact scorePoints?_scoreLiteral (le_maxPoints hliteral)

theorem Line.points?_of_yieldsToScore {kind : Line} (h : kind.yieldsToScore = true) :
    kind.points? = none := by
  cases kind <;> first | rfl | simp [yieldsToScore] at h

theorem Line.eq_lineBreak {kind : Line} (h : kind.isBreak = true) : kind = .lineBreak := by
  cases kind <;> first | rfl | simp [isBreak] at h

theorem Line.eq_exit {kind : Line} (h : kind.isExit = true) : kind = .exit := by
  cases kind <;> first | rfl | simp [isExit] at h

/-! ## Which lines may stand behind others -/

/-- Does the line lead away from a score, so that no break is owed to it? -/
def Line.leadsAway : Line → Bool
  | .exit | .focus _ | .template _ => true
  | _ => false

/-- What the repair does with a line: a score is set off, a line that leads away is written as it
    is, and in front of any other line stands the one break that is owed. -/
theorem scoreStep_cases (owed : AfterScore) (written : List Text) (line : Text) :
    (∃ points, (Line.classify line).points? = some points ∧
      scoreStep (owed, written) line = (.awaitingBreak, writeScore points written)) ∨
    (Line.classify line).points? = none ∧
      (((Line.classify line).leadsAway = true ∧ (Line.classify line).isBreak = false ∧
          scoreStep (owed, written) line = (.idle, line :: written)) ∨
        (Line.classify line = .lineBreak ∧ owed = .awaitingBreak ∧
          scoreStep (owed, written) line = (.collapsing, enterLine :: written)) ∨
        (Line.classify line = .lineBreak ∧ owed = .collapsing ∧
          scoreStep (owed, written) line = (.collapsing, written)) ∨
        ((Line.classify line).isBreak = false ∧ (Line.classify line).leadsAway = false ∧
          owed = .awaitingBreak ∧
            scoreStep (owed, written) line = (.idle, line :: enterLine :: written)) ∨
        (owed ≠ .awaitingBreak ∧ ((Line.classify line).isBreak = true → owed = .idle) ∧
          scoreStep (owed, written) line = (.idle, line :: written))) := by
  simp only [scoreStep]
  cases hpoints : (Line.classify line).points? with
  | some points => exact .inl ⟨points, rfl, rfl⟩
  | none =>
    refine .inr ⟨rfl, ?_⟩
    cases Line.classify line <;> cases owed <;> simp [Line.leadsAway, Line.isBreak]

/-- The lines, given last one first, with the break that a score wants behind them. -/
def spaceForScore : List Text → List Text
  | [] => []
  | last :: earlier =>
    if (Line.classify last).isExit then last :: earlier else enterLine :: last :: earlier

/-- Does the line give way to a score behind it? -/
def yieldsToScore (line : Text) : Bool := (Line.classify line).yieldsToScore

theorem writeScore_eq (points : Nat) (written : List Text) :
    writeScore points written =
      scoreLine points :: alignRightLine :: spaceForScore (written.dropWhile yieldsToScore) := by
  have hdrop : (written.dropWhile fun line => (Line.classify line).yieldsToScore) =
      written.dropWhile yieldsToScore := rfl
  rw [writeScore, hdrop]
  cases written.dropWhile yieldsToScore <;> rfl

@[simp] theorem yieldsToScore_enterLine : yieldsToScore enterLine = true := by
  rw [yieldsToScore, classify_enterLine]
  rfl

@[simp] theorem yieldsToScore_alignRightLine : yieldsToScore alignRightLine = true := by
  rw [yieldsToScore, classify_alignRightLine]
  rfl

/-- Does a line stand last that gives way to a score? -/
def endsYielding (written : List Text) : Bool := written.head?.any yieldsToScore

theorem endsYielding_dropWhile (written : List Text) :
    endsYielding (written.dropWhile yieldsToScore) = false := by
  have hhead := List.head?_dropWhile_not yieldsToScore written
  unfold endsYielding
  cases hlast : (written.dropWhile yieldsToScore).head? with
  | none => rfl
  | some last =>
    rw [hlast] at hhead
    simpa using hhead

/-- A score makes room for itself only once. -/
theorem dropWhile_spaceForScore {kept : List Text} (h : endsYielding kept = false) :
    (alignRightLine :: spaceForScore kept).dropWhile yieldsToScore = kept := by
  rw [List.dropWhile_cons_of_pos yieldsToScore_alignRightLine]
  cases kept with
  | nil => rfl
  | cons last earlier =>
    have hlast : ¬yieldsToScore last = true := by simpa [endsYielding] using h
    rw [spaceForScore]
    split
    · rw [List.dropWhile_cons_of_neg hlast]
    · rw [List.dropWhile_cons_of_pos yieldsToScore_enterLine, List.dropWhile_cons_of_neg hlast]

/-- What is owed behind the lines, given last one first. -/
def owedBehind : List Text → AfterScore
  | [] => .idle
  | line :: earlier =>
    if (Line.classify line).points?.isSome then .awaitingBreak
    else if (Line.classify line).isBreak && owedBehind earlier != .idle then .collapsing
    else .idle

section OwedBehind

variable {line : Text} {earlier : List Text}

theorem owedBehind_score {n : Nat} (h : (Line.classify line).points? = some n) :
    owedBehind (line :: earlier) = .awaitingBreak := by
  rw [owedBehind, h]
  rfl

theorem owedBehind_break (h : Line.classify line = .lineBreak)
    (howed : owedBehind earlier ≠ .idle) : owedBehind (line :: earlier) = .collapsing := by
  have hscore : (Line.classify line).points? = none := by rw [h]; rfl
  rw [owedBehind, hscore, h]
  simp [Line.isBreak, howed]

theorem owedBehind_eq_idle (hscore : (Line.classify line).points? = none)
    (hbreak : (Line.classify line).isBreak = true → owedBehind earlier = .idle) :
    owedBehind (line :: earlier) = .idle := by
  rw [owedBehind, hscore]
  by_cases h : (Line.classify line).isBreak = true
  · simp [hbreak h]
  · simp [h]

theorem isBreak_of_owedBehind_eq_collapsing (h : owedBehind (line :: earlier) = .collapsing) :
    (Line.classify line).isBreak = true := by
  rw [owedBehind] at h
  split at h
  · cases h
  · split at h
    · next hbreak => exact (Bool.and_eq_true_iff.1 hbreak).1
    · cases h

end OwedBehind

/-- May a line stand behind the ones written earlier, given last one first? A score keeps its
    distance, and what it owes is paid at once. -/
structure MayFollow (earlier : List Text) (line : Text) : Prop where
  score : ∀ points, (Line.classify line).points? = some points → line = scoreLine points ∧
    ∃ kept, endsYielding kept = false ∧ earlier = alignRightLine :: spaceForScore kept
  awaited : owedBehind earlier = .awaitingBreak →
    line = enterLine ∨ (Line.classify line).leadsAway = true
  single : owedBehind earlier = .collapsing → (Line.classify line).isBreak = false

/-- Every line may stand where it stands; the lines are given last one first. -/
def AreIsolated (written : List Text) : Prop :=
  ∀ line earlier, line :: earlier <:+ written → MayFollow earlier line

theorem areIsolated_nil : AreIsolated [] := by
  intro line earlier h
  cases List.suffix_nil.1 h

theorem AreIsolated.cons {line : Text} {written : List Text} (h : AreIsolated written)
    (hline : MayFollow written line) : AreIsolated (line :: written) := by
  intro l earlier hl
  rcases List.suffix_cons_iff.1 hl with heq | hl
  · cases heq
    exact hline
  · exact h l earlier hl

theorem AreIsolated.suffix {written kept : List Text} (h : AreIsolated written)
    (hkept : kept <:+ written) : AreIsolated kept :=
  fun line earlier hl => h line earlier (hl.trans hkept)

/-! ## The repair isolates -/

theorem mayFollow_enterLine {earlier : List Text} (h : owedBehind earlier ≠ .collapsing) :
    MayFollow earlier enterLine where
  score points hpoints := by
    rw [classify_enterLine] at hpoints
    cases hpoints
  awaited _ := .inl rfl
  single howed := absurd howed h

/-- Behind lines that do not end in a break there is no second one. -/
theorem owedBehind_ne_collapsing {written : List Text} (h : endsYielding written = false) :
    owedBehind written ≠ .collapsing := by
  intro howed
  cases written with
  | nil => cases howed
  | cons last earlier =>
    have hlast : yieldsToScore last = true := by
      rw [yieldsToScore, Line.eq_lineBreak (isBreak_of_owedBehind_eq_collapsing howed)]
      rfl
    simp [endsYielding, hlast] at h

theorem AreIsolated.spaceForScore {kept : List Text} (h : AreIsolated kept)
    (hkept : endsYielding kept = false) : AreIsolated (spaceForScore kept) := by
  cases kept with
  | nil => exact areIsolated_nil
  | cons last earlier =>
    rw [Repair.spaceForScore]
    split
    · exact h
    · exact h.cons (mayFollow_enterLine (owedBehind_ne_collapsing hkept))

theorem owedBehind_spaceForScore_ne (kept : List Text) :
    owedBehind (spaceForScore kept) ≠ .awaitingBreak := by
  have henter (earlier : List Text) : owedBehind (enterLine :: earlier) ≠ .awaitingBreak := by
    rw [owedBehind, classify_enterLine]
    split
    · next h => cases h
    · split <;> simp
  cases kept with
  | nil => simp [spaceForScore, owedBehind]
  | cons last earlier =>
    rw [spaceForScore]
    split
    · next hexit =>
      rw [owedBehind_eq_idle]
      · decide
      · cases hlast : Line.classify last <;> simp_all [Line.isExit, Line.points?, Line.literal?]
      · cases hlast : Line.classify last <;> simp_all [Line.isExit, Line.isBreak]
    · exact henter _

theorem mayFollow_alignRightLine (kept : List Text) :
    MayFollow (spaceForScore kept) alignRightLine where
  score points hpoints := by
    rw [classify_alignRightLine] at hpoints
    cases hpoints
  awaited howed := absurd howed (owedBehind_spaceForScore_ne kept)
  single _ := by
    rw [classify_alignRightLine]
    rfl

theorem mayFollow_scoreLine {kept : List Text} (hkept : endsYielding kept = false) {points : Nat}
    (hpoints : (Line.classify (scoreLine points)).points? = some points) :
    MayFollow (alignRightLine :: spaceForScore kept) (scoreLine points) := by
  have howed : owedBehind (alignRightLine :: spaceForScore kept) = .idle := by
    apply owedBehind_eq_idle <;> rw [classify_alignRightLine]
    · rfl
    · exact fun h => absurd h (by decide)
  exact {
    score := fun n hn => by
      rw [hpoints, Option.some.injEq] at hn
      exact ⟨by rw [hn], kept, hkept, rfl⟩
    awaited := fun h => by
      rw [howed] at h
      cases h
    single := fun h => by
      rw [howed] at h
      cases h }

theorem AreIsolated.writeScore {written : List Text} (h : AreIsolated written) {points : Nat}
    (hpoints : (Line.classify (scoreLine points)).points? = some points) :
    AreIsolated (writeScore points written) := by
  have hkept := endsYielding_dropWhile written
  rw [writeScore_eq]
  exact (((h.suffix (List.dropWhile_suffix _)).spaceForScore hkept).cons
    (mayFollow_alignRightLine _)).cons (mayFollow_scoreLine hkept hpoints)

/-- What holds of the lines written so far and of what is owed behind them. -/
structure Isolates (state : AfterScore × List Text) : Prop where
  lines : AreIsolated state.2
  owed : state.1 = owedBehind state.2

/-- A line without a score that is written behind lines it may follow leaves nothing owed. -/
theorem Isolates.write {written : List Text} {line : Text} (h : AreIsolated written)
    (hscore : (Line.classify line).points? = none)
    (hawaited : owedBehind written = .awaitingBreak → (Line.classify line).leadsAway = true)
    (hbreak : (Line.classify line).isBreak = true → owedBehind written = .idle) :
    Isolates (.idle, line :: written) where
  lines := h.cons {
    score := fun points hpoints => by
      rw [hscore] at hpoints
      cases hpoints
    awaited := fun howed => .inr (hawaited howed)
    single := fun howed => Bool.eq_false_iff.2 fun hline => by
      rw [hbreak hline] at howed
      cases howed }
  owed := (owedBehind_eq_idle hscore hbreak).symm

theorem Isolates.scoreStep {state : AfterScore × List Text} (h : Isolates state) (line : Text) :
    Isolates (scoreStep state line) := by
  obtain ⟨owed, written⟩ := state
  obtain rfl : owed = owedBehind written := h.owed
  have henter (hawaits : owedBehind written = .awaitingBreak) :
      Isolates (.collapsing, enterLine :: written) := {
    lines := h.lines.cons (mayFollow_enterLine (by rw [hawaits]; decide))
    owed := (owedBehind_break classify_enterLine (by rw [hawaits]; decide)).symm }
  rcases scoreStep_cases (owedBehind written) written line with ⟨points, hpoints, heq⟩ |
    ⟨hscore, ⟨haway, hbreak, heq⟩ | ⟨-, hawaits, heq⟩ | ⟨-, hcollapsing, heq⟩ |
      ⟨hbreak, -, hawaits, heq⟩ | ⟨hawaits, hbreak, heq⟩⟩ <;> rw [heq]
  · have hread := points?_scoreLine hpoints
    exact ⟨h.lines.writeScore hread, by rw [writeScore_eq, owedBehind_score hread]⟩
  · exact .write h.lines hscore (fun _ => haway) fun hline => by simp [hline] at hbreak
  · exact henter hawaits
  · exact ⟨h.lines, hcollapsing.symm⟩
  · have hentered := henter hawaits
    refine .write hentered.lines hscore (fun howed => ?_) fun hline => by simp [hline] at hbreak
    rw [← hentered.owed] at howed
    cases howed
  · exact .write h.lines hscore (fun howed => absurd howed hawaits) hbreak

theorem isolates_foldl (lines : List Text) {state : AfterScore × List Text} (h : Isolates state) :
    Isolates (lines.foldl scoreStep state) :=
  List.foldlRecOn lines _ (motive := Isolates) h fun _ h line _ => h.scoreStep line

theorem areIsolated_isolateScoreLines (lines : List Text) :
    AreIsolated (isolateScoreLines lines).reverse := by
  rw [isolateScoreLines, List.reverse_reverse]
  exact (isolates_foldl lines ⟨areIsolated_nil, rfl⟩).lines

/-! ## What is isolated stays as it is -/

/-- A line that may stand where it stands is written as it is. -/
theorem scoreStep_eq {written : List Text} {line : Text} (h : MayFollow written line) :
    scoreStep (owedBehind written, written) line =
      (owedBehind (line :: written), line :: written) := by
  rcases scoreStep_cases (owedBehind written) written line with ⟨points, hpoints, heq⟩ |
    ⟨hscore, ⟨-, hbreak, heq⟩ | ⟨hline, hawaits, heq⟩ | ⟨hline, hcollapsing, -⟩ |
      ⟨hbreak, haway, hawaits, -⟩ | ⟨-, hbreak, heq⟩⟩
  · obtain ⟨rfl, kept, hkept, rfl⟩ := h.score points hpoints
    rw [heq, writeScore_eq, dropWhile_spaceForScore hkept, owedBehind_score hpoints]
  · rw [heq, owedBehind_eq_idle hscore fun hline => by simp [hline] at hbreak]
  · have henter : line = enterLine :=
      (h.awaited hawaits).resolve_right (by rw [hline]; decide)
    rw [heq, owedBehind_break hline (by rw [hawaits]; decide), henter]
  · have hbreak := h.single hcollapsing
    rw [hline] at hbreak
    cases hbreak
  · rcases h.awaited hawaits with rfl | haway'
    · rw [classify_enterLine] at hbreak
      cases hbreak
    · rw [haway] at haway'
      cases haway'
  · rw [heq, owedBehind_eq_idle hscore hbreak]

theorem foldl_scoreStep_eq (lines : List Text) {written : List Text}
    (h : AreIsolated (lines.reverse ++ written)) :
    (lines.foldl scoreStep (owedBehind written, written)).2 = lines.reverse ++ written := by
  induction lines generalizing written with
  | nil => rfl
  | cons line lines ih =>
    rw [List.reverse_cons, List.append_assoc, List.singleton_append] at h ⊢
    rw [List.foldl_cons, scoreStep_eq (h line written (List.suffix_append _ _)), ih h]

theorem isolateScoreLines_eq_of_areIsolated {lines : List Text} (h : AreIsolated lines.reverse) :
    isolateScoreLines lines = lines := by
  have hfold : (lines.foldl scoreStep (owedBehind [], [])).2 = lines.reverse ++ [] :=
    foldl_scoreStep_eq lines (by rwa [List.append_nil])
  rw [owedBehind] at hfold
  rw [isolateScoreLines, hfold, List.append_nil, List.reverse_reverse]

/-! ## What the scores leave alone -/

/-- Does a score follow with nothing but breaks and right alignments in front of it? -/
def leadsToScore : List Text → Bool
  | [] => false
  | line :: lines =>
    if yieldsToScore line then leadsToScore lines else (Line.classify line).points?.isSome

theorem leadsToScore_score {line : Text} {n : Nat} (h : (Line.classify line).points? = some n)
    (lines : List Text) : leadsToScore (line :: lines) = true := by
  have hyields : ¬yieldsToScore line = true := fun hyields => by
    rw [Line.points?_of_yieldsToScore hyields] at h
    cases h
  rw [leadsToScore, if_neg hyields, h]
  rfl

/-- Is the line no score, and nothing that may belong to one? -/
def isBesideScores (line : Text) : Bool :=
  !yieldsToScore line && (Line.classify line).points?.isNone

/-- The lines that have nothing to do with scores, among them the right alignments that no score
    follows. -/
def besideScores : List Text → List Text
  | [] => []
  | line :: lines =>
    if isBesideScores line || (Line.classify line == .alignRight && !leadsToScore lines) then
      line :: besideScores lines
    else besideScores lines

/-- The points of a script in order. -/
def scores (lines : List Text) : List Nat := (lines.map Line.classify).filterMap Line.points?

/-- Two scripts agree on their scores and on what stands beside them. -/
structure SameBeside (a b : List Text) : Prop where
  leads : leadsToScore a = leadsToScore b
  beside : besideScores a = besideScores b
  points : scores a = scores b

namespace SameBeside

variable {a b c : List Text} {line : Text}

theorem refl (a : List Text) : SameBeside a a := ⟨rfl, rfl, rfl⟩

theorem trans (h : SameBeside a b) (h' : SameBeside b c) : SameBeside a c :=
  ⟨h.leads.trans h'.leads, h.beside.trans h'.beside, h.points.trans h'.points⟩

theorem symm (h : SameBeside a b) : SameBeside b a :=
  ⟨h.leads.symm, h.beside.symm, h.points.symm⟩

theorem cons (h : SameBeside a b) (line : Text) : SameBeside (line :: a) (line :: b) where
  leads := by rw [leadsToScore, leadsToScore, h.leads]
  beside := by rw [besideScores, besideScores, h.leads, h.beside]
  points := by
    have hpoints := h.points
    unfold scores at hpoints ⊢
    rw [List.map_cons, List.map_cons, List.filterMap_cons, List.filterMap_cons, hpoints]

theorem append (h : SameBeside a b) (front : List Text) : SameBeside (front ++ a) (front ++ b) := by
  induction front with
  | nil => exact h
  | cons line front ih => exact ih.cons line

/-- A line that gives way to scores counts only if it is a right alignment that no score follows. -/
theorem of_yieldsToScore (hline : yieldsToScore line = true)
    (h : Line.classify line = .alignRight → leadsToScore a = true) : SameBeside (line :: a) a where
  leads := by rw [leadsToScore, if_pos hline]
  beside := by
    rw [besideScores, if_neg]
    simp only [isBesideScores, hline, Bool.not_true, Bool.false_and, Bool.false_or,
      Bool.and_eq_true, beq_iff_eq, Bool.not_eq_true', not_and, Bool.not_eq_false]
    exact h
  points := by
    have hpoints : (Line.classify line).points? = none := Line.points?_of_yieldsToScore hline
    rw [scores, List.map_cons, List.filterMap_cons_none hpoints, scores]

theorem lineBreak (hline : Line.classify line = .lineBreak) (a : List Text) :
    SameBeside (line :: a) a :=
  of_yieldsToScore (by rw [yieldsToScore, hline]; rfl) fun h => by
    rw [hline] at h
    cases h

theorem enterLine (a : List Text) : SameBeside (Repair.enterLine :: a) a :=
  lineBreak classify_enterLine a

/-- What stands between a score and the lines in front of it belongs to the score. -/
theorem yielding {front : List Text} (hfront : ∀ l ∈ front, yieldsToScore l = true)
    (ha : leadsToScore a = true) : SameBeside (front ++ a) a := by
  induction front with
  | nil => exact refl a
  | cons line front ih =>
    have ih := ih fun l hl => hfront l (List.mem_cons_of_mem _ hl)
    exact (ih.cons line).trans (of_yieldsToScore (hfront line List.mem_cons_self) fun _ => ha)

/-- It does not matter how a score is spelled. -/
theorem score {line' : Text} {n : Nat} (h : (Line.classify line).points? = some n)
    (h' : (Line.classify line').points? = some n) (a : List Text) :
    SameBeside (line :: a) (line' :: a) := by
  have hbeside {l : Text} (hl : (Line.classify l).points? = some n) :
      besideScores (l :: a) = besideScores a := by
    have halign : Line.classify l ≠ .alignRight := fun halign => by
      rw [halign] at hl
      cases hl
    rw [besideScores, if_neg (by simp [isBesideScores, hl, halign])]
  exact {
    leads := by rw [leadsToScore_score h, leadsToScore_score h']
    beside := by rw [hbeside h, hbeside h']
    points := by
      rw [scores, scores, List.map_cons, List.map_cons, List.filterMap_cons_some h,
        List.filterMap_cons_some h'] }

end SameBeside

theorem sameBeside_spaceForScore (kept behind : List Text) :
    SameBeside ((spaceForScore kept).reverse ++ behind) (kept.reverse ++ behind) := by
  cases kept with
  | nil => exact .refl _
  | cons last earlier =>
    rw [spaceForScore]
    split
    · exact .refl _
    · rw [List.reverse_cons, List.append_assoc]
      exact (SameBeside.enterLine behind).append _

theorem sameBeside_writeScore {line : Text} {points : Nat}
    (h : (Line.classify line).points? = some points) (written behind : List Text) :
    SameBeside ((writeScore points written).reverse ++ behind)
      (written.reverse ++ line :: behind) := by
  have hleads := leadsToScore_score h behind
  have hyielding : SameBeside ((written.takeWhile yieldsToScore).reverse ++ line :: behind)
      (line :: behind) :=
    .yielding (fun l hl => List.all_eq_true.1 List.all_takeWhile l (List.mem_reverse.1 hl)) hleads
  have halign : SameBeside (alignRightLine :: scoreLine points :: behind) (line :: behind) :=
    ((SameBeside.score (points?_scoreLine h) h behind).cons alignRightLine).trans
      (.of_yieldsToScore yieldsToScore_alignRightLine fun _ => hleads)
  have hwritten : written.reverse ++ line :: behind =
      (written.dropWhile yieldsToScore).reverse ++
        ((written.takeWhile yieldsToScore).reverse ++ line :: behind) := by
    rw [← List.append_assoc, ← List.reverse_append, List.takeWhile_append_dropWhile]
  rw [hwritten, writeScore_eq, List.reverse_cons, List.reverse_cons, List.append_assoc,
    List.append_assoc]
  exact ((sameBeside_spaceForScore _ _).trans (halign.append _)).trans (hyielding.symm.append _)

theorem sameBeside_scoreStep (state : AfterScore × List Text) (line : Text) (behind : List Text) :
    SameBeside ((scoreStep state line).2.reverse ++ behind)
      (state.2.reverse ++ line :: behind) := by
  obtain ⟨owed, written⟩ := state
  have hkept : SameBeside ((line :: written).reverse ++ behind)
      (written.reverse ++ line :: behind) := by
    rw [List.reverse_cons, List.append_assoc, List.singleton_append]
    exact .refl _
  rcases scoreStep_cases owed written line with ⟨points, hpoints, heq⟩ |
    ⟨-, ⟨-, -, heq⟩ | ⟨hline, -, heq⟩ | ⟨hline, -, heq⟩ | ⟨-, -, -, heq⟩ | ⟨-, -, heq⟩⟩ <;> rw [heq]
  · exact sameBeside_writeScore hpoints written behind
  · exact hkept
  · rw [List.reverse_cons, List.append_assoc, List.singleton_append]
    exact ((SameBeside.enterLine behind).trans (SameBeside.lineBreak hline behind).symm).append _
  · exact (SameBeside.lineBreak hline behind).symm.append _
  · rw [List.reverse_cons, List.reverse_cons, List.append_assoc, List.append_assoc]
    exact (SameBeside.enterLine _).append _
  · exact hkept

theorem sameBeside_isolateScoreLines (lines : List Text) :
    SameBeside (isolateScoreLines lines) lines := by
  suffices h : ∀ state : AfterScore × List Text,
      SameBeside (lines.foldl scoreStep state).2.reverse (state.2.reverse ++ lines) from
    h (.idle, [])
  induction lines with
  | nil =>
    intro state
    rw [List.append_nil]
    exact .refl _
  | cons line lines ih => exact fun state => (ih _).trans (sameBeside_scoreStep state line lines)

/-- The right alignments aside, what stands beside the scores does not depend on where they are. -/
theorem filter_besideScores (lines : List Text) :
    (besideScores lines).filter isBesideScores = lines.filter isBesideScores := by
  induction lines with
  | nil => rfl
  | cons line lines ih =>
    rw [besideScores]
    by_cases hline : isBesideScores line = true
    · rw [if_pos (by rw [hline]; rfl), List.filter_cons_of_pos hline,
        List.filter_cons_of_pos hline, ih]
    · rw [List.filter_cons_of_neg hline]
      split
      · rw [List.filter_cons_of_neg hline, ih]
      · exact ih

/-! ## Scores isolated -/

/-- A score line with the lines in front of it and behind it: a right alignment comes first, single
    breaks set it off, and none is needed at either end, behind the end of a container or in front
    of a line that leads away. -/
structure StandsAlone (points : Nat) (front : List Text) (line : Text) (back : List Text) :
    Prop where
  rendered : line = renderCall .insertText (scoreLiteral points)
  ahead : ∃ space, front = space ++ [alignRightLine] ∧
    (space = [] ∨
      (∃ earlier last, space = earlier ++ [last] ∧ Line.classify last = .exit) ∨
      ∃ earlier last, space = earlier ++ [last, enterLine] ∧ (Line.classify last).isBreak = false)
  behind : back = [] ∨
    (∃ next rest, back = next :: rest ∧ (Line.classify next).leadsAway = true) ∨
    ∃ rest, back = enterLine :: rest ∧ ∀ next ∈ rest.head?, (Line.classify next).isBreak = false

theorem AreIsolated.mayFollow {front back : List Text} {line : Text}
    (h : AreIsolated (front ++ line :: back).reverse) : MayFollow front.reverse line := by
  refine h line front.reverse ?_
  rw [List.reverse_append, List.reverse_cons, List.append_assoc, List.singleton_append]
  exact List.suffix_append _ _

/-- The space in front of a score: a single break, unless nothing or an exit is in front of it. -/
theorem reverse_spaceForScore {kept : List Text} (h : endsYielding kept = false) :
    (spaceForScore kept).reverse = [] ∨
      (∃ earlier last, (spaceForScore kept).reverse = earlier ++ [last] ∧
        Line.classify last = .exit) ∨
      ∃ earlier last, (spaceForScore kept).reverse = earlier ++ [last, enterLine] ∧
        (Line.classify last).isBreak = false := by
  cases kept with
  | nil => exact .inl rfl
  | cons last earlier =>
    rw [spaceForScore]
    split
    · next hexit =>
      exact .inr (.inl ⟨earlier.reverse, last, List.reverse_cons, Line.eq_exit hexit⟩)
    · refine .inr (.inr ⟨earlier.reverse, last, by simp, Bool.eq_false_iff.2 fun hbreak => ?_⟩)
      have hlast : (Line.classify last).yieldsToScore = false := by
        simpa [endsYielding, yieldsToScore] using h
      rw [Line.eq_lineBreak hbreak] at hlast
      cases hlast

theorem AreIsolated.standsAlone {front : List Text} {line : Text} {back : List Text} {points : Nat}
    (h : AreIsolated (front ++ line :: back).reverse)
    (hpoints : (Line.classify line).points? = some points) :
    StandsAlone points front line back := by
  obtain ⟨hline, kept, hkept, hfront⟩ := h.mayFollow.score points hpoints
  have howed : owedBehind (line :: front.reverse) = .awaitingBreak := owedBehind_score hpoints
  refine ⟨hline, ⟨(Repair.spaceForScore kept).reverse, ?_, reverse_spaceForScore hkept⟩, ?_⟩
  · rw [← List.reverse_cons, ← hfront, List.reverse_reverse]
  cases back with
  | nil => exact .inl rfl
  | cons next rest =>
    have h : AreIsolated (front ++ [line] ++ next :: rest).reverse := by
      rwa [List.append_assoc, List.singleton_append]
    have hnext := h.mayFollow
    rw [List.reverse_append, List.reverse_singleton, List.singleton_append] at hnext
    rcases hnext.awaited howed with rfl | haway
    · refine .inr (.inr ⟨rest, rfl, fun second hsecond => ?_⟩)
      obtain ⟨more, rfl⟩ := List.head?_eq_some_iff.1 hsecond
      have h : AreIsolated (front ++ [line, enterLine] ++ second :: more).reverse := by
        rwa [List.append_assoc] at h ⊢
      have hsecond := h.mayFollow
      rw [List.reverse_append] at hsecond
      have hne : owedBehind (line :: front.reverse) ≠ .idle := by
        rw [howed]
        decide
      exact hsecond.single (owedBehind_break classify_enterLine hne)
    · exact .inr (.inl ⟨next, rest, rfl, haway⟩)

/-- What is made of a script whose scores are put on lines of their own. -/
structure IsIsolation (lines isolated : List Text) : Prop where
  alone : ∀ front line back points, isolated = front ++ line :: back →
    (Line.classify line).points? = some points → StandsAlone points front line back
  scores : scores isolated = scores lines
  others : isolated.filter isBesideScores = lines.filter isBesideScores
  beside : besideScores isolated = besideScores lines
  stable : isolateScoreLines isolated = isolated

/-- Every score is isolated, nothing else is lost, and once isolated the script stays as it is. -/
theorem isIsolation_isolateScoreLines (lines : List Text) :
    IsIsolation lines (isolateScoreLines lines) := by
  have hisolated := areIsolated_isolateScoreLines lines
  have hsame := sameBeside_isolateScoreLines lines
  exact {
    alone := fun front line back points heq hpoints =>
      (heq ▸ hisolated).standsAlone hpoints
    scores := hsame.points
    others := by rw [← filter_besideScores, hsame.beside, filter_besideScores]
    beside := hsame.beside
    stable := isolateScoreLines_eq_of_areIsolated hisolated }

end Scribe.Repair
