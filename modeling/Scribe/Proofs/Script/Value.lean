import Scribe.Proofs.Script.Reader

set_option autoImplicit false

/-! # What the readers of values take

Numbers, lists, tuples, words and literals are pieces of an argument list each, so values of any
depth are. -/

namespace Scribe.Grammar

open Text (isIdentChar isGap)
open Balance (IsClosed IsPlain)

/-! ## Numbers -/

/-- A number whose sign has been read; `s` is the text with the sign. -/
def unsignedNumber (sign unsigned s : Text) : Parsed Value :=
  let whole := unsigned.takeWhile Char.isDigit
  let rest := unsigned.dropWhile Char.isDigit
  if whole.isEmpty then .mismatch
  else match rest with
    | '.' :: r =>
      match Decimal.float? (sign ++ whole ++ '.' :: r.takeWhile Char.isDigit) with
      | some x => .ok (.float x) (r.dropWhile Char.isDigit)
      | none => .stop .invalidStatement s
    | _ =>
      match Decimal.int64? (sign ++ whole) with
      | some n => .ok (.int n) rest
      | none => .stop .invalidStatement s

theorem number_minus (s : Text) : number ('-' :: s) = unsignedNumber ['-'] s ('-' :: s) := rfl

theorem number_eq_unsignedNumber {s : Text} (h : ∀ r, s ≠ '-' :: r) :
    number s = unsignedNumber [] s s := by
  unfold number unsignedNumber
  split
  next heq =>
    split at heq
    · next r => exact absurd rfl (h r)
    · cases heq
      rfl

/-- A number is read behind its sign, whatever stands behind a closing parenthesis. -/
theorem exists_number_eq (s : Text) :
    ∃ sign unsigned, s = sign ++ unsigned ∧ (sign = [] ∨ sign = ['-']) ∧
      number s = unsignedNumber sign unsigned s ∧
      ∀ t, number (s ++ ')' :: t) = unsignedNumber sign (unsigned ++ ')' :: t) (s ++ ')' :: t) := by
  cases s with
  | nil => exact ⟨[], [], rfl, Or.inl rfl, rfl, fun t => rfl⟩
  | cons c s =>
    by_cases hc : c = '-'
    · subst hc
      exact ⟨['-'], s, rfl, Or.inr rfl, number_minus s, fun t => number_minus _⟩
    · have hne (u r : Text) : c :: u ≠ '-' :: r := fun h => hc (List.cons.inj h).1
      exact ⟨[], c :: s, rfl, Or.inl rfl, number_eq_unsignedNumber (hne s),
        fun t => number_eq_unsignedNumber (hne _)⟩

theorem isPiece_number {u : Text} (hne : u ≠ [])
    (hu : ∀ c ∈ u, c = '-' ∨ c = '.' ∨ c.isDigit = true) : IsPiece u := by
  have hchar : ∀ c ∈ u, IsPlain c ∧ c ≠ '\n' ∧ c ∉ ['#', 'i', 'e', 'f', 's'] := by
    intro c hc
    rcases hu c hc with rfl | rfl | hd
    · decide
    · decide
    · have hnot (d : Char) (hd' : d.isDigit = false) : c ≠ d := by
        rintro rfl
        exact absurd hd (by simp [hd'])
      refine ⟨⟨hnot _ rfl, hnot _ rfl, hnot _ rfl, hnot _ rfl, hnot _ rfl, hnot _ rfl⟩,
        hnot _ rfl, ?_⟩
      simp [hnot '#' rfl, hnot 'i' rfl, hnot 'e' rfl, hnot 'f' rfl, hnot 's' rfl]
  obtain ⟨c, w, rfl⟩ := List.exists_cons_of_ne_nil hne
  exact ⟨Balance.isClosed_of_isPlain fun d hd => (hchar d hd).1,
    fun t => not_startsStatement_of_head (hchar c List.mem_cons_self).2.2 (w ++ t),
    isUnbroken_of_newline_not_mem fun hn => (hchar _ hn).2.1 rfl⟩

theorem unsignedNumber_of_point {sign unsigned s w : Text}
    (hwhole : unsigned.takeWhile Char.isDigit ≠ [])
    (hrest : unsigned.dropWhile Char.isDigit = '.' :: w) :
    unsignedNumber sign unsigned s =
      match Decimal.float? (sign ++ unsigned.takeWhile Char.isDigit
        ++ '.' :: w.takeWhile Char.isDigit) with
      | some x => .ok (.float x) (w.dropWhile Char.isDigit)
      | none => .stop .invalidStatement s := by
  simp only [unsignedNumber, List.isEmpty_iff, if_neg hwhole, hrest]

theorem unsignedNumber_of_not_point {sign unsigned s : Text}
    (hwhole : unsigned.takeWhile Char.isDigit ≠ [])
    (hrest : (unsigned.dropWhile Char.isDigit).head? ≠ some '.') :
    unsignedNumber sign unsigned s =
      match Decimal.int64? (sign ++ unsigned.takeWhile Char.isDigit) with
      | some n => .ok (.int n) (unsigned.dropWhile Char.isDigit)
      | none => .stop .invalidStatement s := by
  simp only [unsignedNumber, List.isEmpty_iff, if_neg hwhole]
  split
  · next w hw => exact absurd (by rw [hw]; rfl) hrest
  · rfl

/-- A number goes on behind its whole part if a point follows it. -/
theorem unsignedNumber_eq_ok_iff {sign unsigned s : Text} {v : Value} {r : Text} :
    unsignedNumber sign unsigned s = .ok v r ↔
      unsigned.takeWhile Char.isDigit ≠ [] ∧
        ((∃ w x, unsigned.dropWhile Char.isDigit = '.' :: w ∧
            Decimal.float? (sign ++ unsigned.takeWhile Char.isDigit
              ++ '.' :: w.takeWhile Char.isDigit) = some x ∧
            v = .float x ∧ r = w.dropWhile Char.isDigit) ∨
          ((unsigned.dropWhile Char.isDigit).head? ≠ some '.' ∧
            ∃ n, Decimal.int64? (sign ++ unsigned.takeWhile Char.isDigit) = some n ∧
              v = .int n ∧ r = unsigned.dropWhile Char.isDigit)) := by
  by_cases hwhole : unsigned.takeWhile Char.isDigit = []
  · simp [unsignedNumber, hwhole]
  by_cases hpoint : ∃ w, unsigned.dropWhile Char.isDigit = '.' :: w
  · obtain ⟨w, hrest⟩ := hpoint
    rw [unsignedNumber_of_point hwhole hrest, hrest]
    constructor
    · intro h
      split at h
      · next x hx =>
        obtain ⟨rfl, rfl⟩ := Parsed.ok.inj h
        exact ⟨hwhole, Or.inl ⟨w, x, rfl, hx, rfl, rfl⟩⟩
      · simp at h
    · rintro ⟨_, ⟨w', x, hw, hx, rfl, rfl⟩ | ⟨hhead, _⟩⟩
      · obtain rfl := (List.cons.inj hw).2
        rw [hx]
      · exact absurd rfl hhead
  · -- A whole number excludes the point behind it.
    have hrest : (unsigned.dropWhile Char.isDigit).head? ≠ some '.' := fun h =>
      hpoint (List.head?_eq_some_iff.1 h)
    rw [unsignedNumber_of_not_point hwhole hrest]
    constructor
    · intro h
      split at h
      · next n hn =>
        obtain ⟨rfl, rfl⟩ := Parsed.ok.inj h
        exact ⟨hwhole, Or.inr ⟨hrest, n, hn, rfl, rfl⟩⟩
      · simp at h
    · rintro ⟨_, ⟨w, x, hw, _⟩ | ⟨_, n, hn, rfl, rfl⟩⟩
      · exact absurd ⟨w, hw⟩ hpoint
      · rw [hn]

theorem unsignedNumber_eq_mismatch_iff {sign unsigned s : Text} :
    unsignedNumber sign unsigned s = .mismatch ↔ unsigned.takeWhile Char.isDigit = [] := by
  simp only [unsignedNumber]
  split
  · next hempty => simp [List.isEmpty_iff.1 hempty]
  · next hne =>
    have hwhole : unsigned.takeWhile Char.isDigit ≠ [] := fun he => hne (by simp [he])
    split
    · split <;> simp [hwhole]
    · split <;> simp [hwhole]

/-- No number starts with another character than a digit or a sign. -/
theorem number_eq_mismatch {c : Char} (hminus : c ≠ '-') (hdigit : c.isDigit = false) (s : Text) :
    number (c :: s) = .mismatch := by
  rw [number_eq_unsignedNumber fun r h => hminus (List.cons.inj h).1,
    unsignedNumber_eq_mismatch_iff, List.takeWhile_cons_of_neg (by simp [hdigit])]

/-- A number as it is written: an integer, or a decimal with a point behind its whole part. -/
inductive IsNumber : Value → Text → Prop where
  | int {sign digits : Text} {n : Int64} (hsign : sign = [] ∨ sign = ['-']) (hne : digits ≠ [])
      (hdigits : ∀ c ∈ digits, c.isDigit = true)
      (hvalue : Decimal.int64? (sign ++ digits) = some n) : IsNumber (.int n) (sign ++ digits)
  | float {sign whole fraction : Text} {x : Float} (hsign : sign = [] ∨ sign = ['-'])
      (hne : whole ≠ []) (hwhole : ∀ c ∈ whole, c.isDigit = true)
      (hfraction : ∀ c ∈ fraction, c.isDigit = true)
      (hvalue : Decimal.float? (sign ++ whole ++ '.' :: fraction) = some x) :
      IsNumber (.float x) (sign ++ whole ++ '.' :: fraction)

theorem IsNumber.ne_nil {v : Value} {u : Text} (h : IsNumber v u) : u ≠ [] := by
  cases h with
  | int _ hne => exact fun h => hne (List.append_eq_nil_iff.1 h).2
  | float => simp

theorem IsNumber.char_cases {v : Value} {u : Text} (h : IsNumber v u) :
    ∀ c ∈ u, c = '-' ∨ c = '.' ∨ c.isDigit = true := by
  have hminus {sign : Text} (hsign : sign = [] ∨ sign = ['-']) {c : Char} (hc : c ∈ sign) :
      c = '-' := by
    rcases hsign with rfl | rfl
    · exact absurd hc List.not_mem_nil
    · exact List.mem_singleton.1 hc
  intro c hc
  cases h with
  | int hsign _ hdigits =>
    rcases List.mem_append.1 hc with hc | hc
    · exact Or.inl (hminus hsign hc)
    · exact Or.inr (Or.inr (hdigits c hc))
  | float hsign _ hwhole hfraction =>
    simp only [List.mem_append, List.mem_cons] at hc
    rcases hc with (hc | hc) | rfl | hc
    · exact Or.inl (hminus hsign hc)
    · exact Or.inr (Or.inr (hwhole c hc))
    · exact Or.inr (Or.inl rfl)
    · exact Or.inr (Or.inr (hfraction c hc))

theorem exists_of_number {s : Text} {v : Value} {r : Text} (h : number s = .ok v r) :
    ∃ u, s = u ++ r ∧ IsNumber v u := by
  obtain ⟨sign, unsigned, hs, hsign, hnumber, _⟩ := exists_number_eq s
  rw [hnumber, unsignedNumber_eq_ok_iff] at h
  have hdigits (s : Text) : ∀ c ∈ s.takeWhile Char.isDigit, c.isDigit = true := fun c hc =>
    List.all_eq_true.1 List.all_takeWhile c hc
  have hcut (s : Text) := List.takeWhile_append_dropWhile (p := Char.isDigit) (l := s)
  rcases h with ⟨hwhole, ⟨w, x, hrest, hx, rfl, rfl⟩ | ⟨_, n, hn, rfl, rfl⟩⟩
  · refine ⟨_, ?_, .float hsign hwhole (hdigits _) (hdigits _) hx⟩
    rw [List.append_assoc, List.cons_append, hcut, ← hrest, List.append_assoc, hcut, hs]
  · refine ⟨_, ?_, .int hsign hwhole (hdigits _) hn⟩
    rw [List.append_assoc, hcut, hs]

theorem reads_number : Reads number := by
  have hparen : Char.isDigit ')' = false := rfl
  refine ⟨fun {s v r} h => ?_, fun {s t v r} h => ?_, fun {s t} h => ?_⟩
  · obtain ⟨u, hs, hu⟩ := exists_of_number h
    exact ⟨u, hs, isPiece_number hu.ne_nil hu.char_cases⟩
  · obtain ⟨sign, unsigned, _, _, hnumber, happend⟩ := exists_number_eq s
    rw [happend, unsignedNumber_eq_ok_iff, takeWhile_append_cons hparen,
      dropWhile_append_cons hparen] at h
    rw [hnumber, unsignedNumber_eq_ok_iff]
    rcases h with ⟨hwhole, ⟨w, x, hrest, hx, rfl, hr⟩ | ⟨hhead, n, hn, rfl, hr⟩⟩
    · cases hd : unsigned.dropWhile Char.isDigit with
      | nil => simp [hd] at hrest
      | cons c u =>
        simp only [hd, List.cons_append, List.cons.injEq] at hrest
        obtain ⟨rfl, rfl⟩ := hrest
        rw [takeWhile_append_cons hparen] at hx
        rw [dropWhile_append_cons hparen, List.append_left_inj] at hr
        exact ⟨hwhole, Or.inl ⟨u, x, rfl, hx, rfl, hr⟩⟩
    · rw [List.append_left_inj] at hr
      refine ⟨hwhole, Or.inr ⟨fun h => hhead ?_, n, hn, rfl, hr⟩⟩
      rw [List.head?_append, h, Option.some_or]
  · obtain ⟨sign, unsigned, _, _, hnumber, happend⟩ := exists_number_eq s
    rw [happend, unsignedNumber_eq_mismatch_iff, takeWhile_append_cons hparen] at h
    rw [hnumber, unsignedNumber_eq_mismatch_iff, h]

section Values

variable {value : Text → Parsed Value}

/-! ## Lists and tuples -/

theorem enclosed_eq_ok_iff {close : Char} {what : Expectation} {s : Text}
    {found : List Value × Bool} {r : Text} :
    enclosed value close what s = .ok found r ↔ items value s = .ok found (close :: r) := by
  unfold enclosed
  split
  · next found' rest h =>
    split
    · simp [h]
    · split
      · next hc => simp [h, hc]
      · next hc => simp [h, hc]
  · next hne => exact ⟨fun h => absurd h (hne _ _), fun h => absurd h (hne _ _)⟩

theorem Reads.enclosed_ne_mismatch (hvalue : Reads value) (close : Char) (what : Expectation)
    (s : Text) : enclosed value close what s ≠ .mismatch := by
  unfold enclosed
  split
  · split
    · simp
    · split <;> simp
  · exact hvalue.items.ne_mismatch s

/-- An opening character, values, and the closing character that belongs to it. -/
theorem Reads.exists_of_enclosed (hvalue : Reads value) {o close : Char} {what : Expectation}
    (ho : o ∉ ['#', 'i', 'e', 'f', 's'] ∧ o ≠ '\n')
    (hclose : close ∉ ['#', 'i', 'e', 'f', 's'] ∧ close ≠ '\n')
    (hclosed : ∀ u, IsClosed u → IsClosed (o :: u ++ [close])) {s : Text}
    {found : List Value × Bool} {r : Text} (h : enclosed value close what s = .ok found r) :
    ∃ u, o :: s = u ++ r ∧ IsPiece u := by
  obtain ⟨u, b, rfl, hu, hub, hb⟩ := hvalue.items.exists_of_ok (enclosed_eq_ok_iff.1 h)
  refine ⟨o :: (u ++ b) ++ [close], by simp, hclosed _ (hu.append (isClosed_of_isBlank hb)),
    fun t => not_startsStatement_of_head ho.1 _, ?_⟩
  have htail := isUnbroken_blank_append (u := [close]) hb
    (not_startsStatement_of_head hclose.1)
    (isUnbroken_of_newline_not_mem (by simpa using hclose.2.symm))
  have hlead : IsUnbroken [o] := isUnbroken_of_newline_not_mem (by simpa using ho.2.symm)
  have happ : o :: (u ++ b) ++ [close] = [o] ++ (u ++ (b ++ [close])) := by simp
  rw [happ]
  exact hlead.append (hub.append htail)

/-! ## Words -/

theorem ofName?_eq_none_of_eval? {name : Text} {args : List Value} {v : Value}
    (h : Helper.eval? name args = some v) : Verb.ofName? name = none := by
  cases hv : Verb.ofName? name with
  | none => rfl
  | some verb =>
    rw [← Verb.name_of_ofName? hv] at h
    have hne : Helper.eval? verb.name args = none := by
      cases verb <;> rfl
    rw [hne] at h
    simp at h

theorem mem_of_constant? {name : Text} {v : Value} (h : constant? name = some v) :
    name ∈ ["True".toList, "true".toList, "False".toList, "false".toList, "None".toList,
      "null".toList] := by
  unfold constant? at h
  split at h
  · next hn => rcases hn with rfl | rfl <;> simp
  · split at h
    · next hn => rcases hn with rfl | rfl <;> simp
    · split at h
      · next hn => rcases hn with rfl | rfl <;> simp
      · simp at h

/-- A constant is a word of its own. -/
theorem isPiece_of_constant? {name : Text} {v : Value} (hname : IsName name)
    (h : constant? name = some v) : IsPiece name := by
  refine ⟨isClosed_of_isName hname, fun t => ?_,
    isUnbroken_of_newline_not_mem (newline_not_mem_of_isName hname)⟩
  intro hstart
  have hshort : ∀ w ∈ ["True".toList, "true".toList, "False".toList, "false".toList,
      "None".toList, "null".toList], 2 ≤ w.length ∧ w.head? ≠ some '#' ∧
        w.take 2 ∉ [['i', 'n'], ['e', 'x'], ['f', 'o'], ['s', 'e']] := by decide
  obtain ⟨hlen, hhash, hnot⟩ := hshort name (mem_of_constant? h)
  rcases hstart.take_two with hhead | htake
  · obtain ⟨c, r, rfl, _⟩ := hname
    exact hhash hhead
  · rw [List.take_append_of_le_length hlen] at htake
    exact hnot htake

theorem exists_of_append_paren {w t inner : Text} (h : w ++ ')' :: t = '(' :: inner) :
    ∃ u, w = '(' :: u := by
  cases w with
  | nil => simp at h
  | cons c u =>
    rw [List.cons_append, List.cons.injEq] at h
    exact ⟨u, by rw [h.1]⟩

/-- A call of a helper. -/
theorem isPiece_call {name gap args : Text} (hname : IsName name)
    (hforeign : Verb.ofName? name = none) (hgap : ∀ c ∈ gap, isGap c = true)
    (hargs : IsClosed args) (hunbroken : IsUnbroken (args ++ [')'])) :
    IsPiece (name ++ (gap ++ ('(' :: args ++ [')']))) := by
  have hplain : ∀ c ∈ gap, IsPlain c := fun c hc =>
    Balance.isPlain_of_isWhite (isWhite_of_isGap (hgap c hc))
  have hnl : '\n' ∉ name ++ (gap ++ ['(']) := by
    have hng : '\n' ∉ gap := fun hn => absurd (hgap _ hn) (by decide)
    simp [newline_not_mem_of_isName hname, hng]
  refine ⟨(isClosed_of_isName hname).append
    ((Balance.isClosed_of_isPlain hplain).append hargs.parenthesised), fun t => ?_, ?_⟩
  · rw [List.append_assoc]
    refine not_startsStatement_name_append hname (fun c hc => ?_) (Or.inl hforeign)
    have hhead : (gap ++ '(' :: (args ++ ')' :: t)).head? = some c := by simpa using hc
    exact isIdentChar_of_head?_gap (fun d hd => isWhite_of_isGap (hgap d hd)) hhead
  · have happ : name ++ (gap ++ ('(' :: args ++ [')']))
        = name ++ (gap ++ ['(']) ++ (args ++ [')']) := by simp
    rw [happ]
    exact (isUnbroken_of_newline_not_mem hnl).append hunbroken

theorem Reads.exists_of_word (hvalue : Reads value) {s : Text} {v : Value} {r : Text}
    (h : word value s = .ok v r) : ∃ u, s = u ++ r ∧ IsPiece u := by
  simp only [Grammar.word] at h
  split at h
  · simp at h
  · next hne =>
    have hname := isName_identifier (s := s) fun he => hne (by simp [he])
    split at h
    · split at h
      · simp at h
      · simp at h
      · next helper rest hcall =>
        split at h
        · simp at h
        · split at h
          · next result heval =>
            cases h
            obtain ⟨gap, args, _, _, hhelper, hgap, hs, hargs, hunbroken, _⟩ :=
              hvalue.exists_of_call hcall
            exact ⟨helper.name ++ (gap ++ ('(' :: args ++ [')'])), by rw [hs]; simp,
              isPiece_call hhelper (ofName?_eq_none_of_eval? heval) hgap hargs hunbroken⟩
          · simp at h
    · split at h
      · next result hconst =>
        cases h
        exact ⟨(identifier s).1, (identifier_append s).symm, isPiece_of_constant? hname hconst⟩
      · simp at h

theorem Reads.word_of_append (hvalue : Reads value) {s t : Text} {v : Value} {r : Text}
    (h : word value (s ++ ')' :: t) = .ok v (r ++ ')' :: t)) : word value s = .ok v r := by
  simp only [Grammar.word, identifier_append_cons (show isIdentChar ')' = false from rfl),
    dropWhile_append_cons (show isGap ')' = false from rfl)] at h ⊢
  split at h
  · simp at h
  · next hne =>
    rw [if_neg hne]
    split at h
    · next inner hinner =>
      split at h
      · simp at h
      · simp at h
      · next helper rest hcall =>
        split at h
        · simp at h
        · next hkw =>
          split at h
          · next result heval =>
            cases h
            have hcall' := hvalue.call_of_append hcall
            obtain ⟨u, hu⟩ := exists_of_append_paren hinner
            simp only [hu, hcall', hkw, heval, if_false, Bool.false_eq_true]
          · simp at h
    · next hno =>
      -- Without what was put behind, no call can have come about.
      split at h
      · next result hconst =>
        simp only [Parsed.ok.injEq, List.append_left_inj] at h
        split
        · next inner hinner => exact absurd (by rw [hinner]; rfl) (hno (inner ++ ')' :: t))
        · simp [h]
      · simp at h

theorem Reads.word_mismatch_of_append (hvalue : Reads value) {s t : Text}
    (h : word value (s ++ ')' :: t) = .mismatch) : word value s = .mismatch := by
  simp only [Grammar.word, identifier_append_cons (show isIdentChar ')' = false from rfl),
    dropWhile_append_cons (show isGap ')' = false from rfl)] at h ⊢
  split at h
  · next hempty => rw [if_pos hempty]
  · next hne =>
    split at h
    · next inner hinner =>
      split at h
      · next hcall =>
        obtain ⟨u, hu⟩ := exists_of_append_paren hinner
        simp only [hu, hvalue.call_mismatch_of_append hcall, ite_self]
      · simp at h
      · split at h
        · simp at h
        · split at h <;> simp at h
    · split at h <;> simp at h

theorem Reads.word (hvalue : Reads value) : Reads (word value) :=
  ⟨hvalue.exists_of_word, hvalue.word_of_append, hvalue.word_mismatch_of_append⟩

/-! ## Whole values -/

theorem isPiece_of_isLiteral {u : Text} (h : Literal.IsLiteral u) : IsPiece u := by
  refine ⟨h.isClosed, fun t => ?_, fun a z ha hlast => ?_⟩
  · obtain ⟨c, w, rfl, hc⟩ := h.exists_cons
    refine not_startsStatement_of_head ?_ (w ++ t)
    rw [Literal.isQuote_iff] at hc
    rcases hc with (rfl | rfl) | rfl | rfl <;> decide
  · exact absurd (h.getLast?_of_newline a z ha) hlast

/-- A number, or else a word. -/
def scalar (inner : Text → Parsed Value) (s : Text) : Parsed Value :=
  match number s with
  | .mismatch => word inner s
  | parsed => parsed

theorem Reads.scalar (hvalue : Reads value) : Reads (scalar value) := by
  refine ⟨fun {s v r} h => ?_, fun {s t v r} h => ?_, fun {s t} h => ?_⟩
  · unfold Grammar.scalar at h
    split at h
    · exact hvalue.word.exists_of_ok h
    · exact reads_number.exists_of_ok h
  · unfold Grammar.scalar at h ⊢
    split at h
    · next hnumber =>
      rw [reads_number.mismatch_of_append hnumber]
      exact hvalue.word.ok_of_append h
    · rw [reads_number.ok_of_append h]
  · unfold Grammar.scalar at h ⊢
    split at h
    · next hnumber =>
      rw [reads_number.mismatch_of_append hnumber]
      exact hvalue.word.mismatch_of_append h
    · next hne => exact absurd h hne

theorem valueOf_of_scan? {s v r : Text} (h : Literal.scan? s = some (v, r)) :
    valueOf value s = .ok (.str v) r := by
  unfold valueOf
  split
  · next h' =>
    rw [h] at h'
    cases h'
    rfl
  · next h' =>
    rw [h] at h'
    simp at h'

theorem valueOf_cons_bracket (s : Text) :
    valueOf value ('[' :: s) = (enclosed value ']' .closingBracket s).map fun found =>
      .list found.1 := rfl

theorem valueOf_cons_paren (s : Text) :
    valueOf value ('(' :: s) = (enclosed value ')' .closingParenthesis s).map tupleValue := rfl

/-- Neither a list nor a tuple starts there. -/
def OpensNothing (s : Text) : Prop :=
  (∀ r, s ≠ '[' :: r) ∧ ∀ r, s ≠ '(' :: r

theorem opening_cases (s : Text) :
    (∃ r, s = '[' :: r) ∨ (∃ r, s = '(' :: r) ∨ OpensNothing s := by
  by_cases hb : ∃ r, s = '[' :: r
  · exact Or.inl hb
  · by_cases hp : ∃ r, s = '(' :: r
    · exact Or.inr (Or.inl hp)
    · exact Or.inr (Or.inr ⟨fun r hr => hb ⟨r, hr⟩, fun r hr => hp ⟨r, hr⟩⟩)

theorem opensNothing_cons {c : Char} (hb : c ≠ '[') (hp : c ≠ '(') (s : Text) :
    OpensNothing (c :: s) :=
  ⟨fun _ hr => hb (List.cons.inj hr).1, fun _ hr => hp (List.cons.inj hr).1⟩

theorem OpensNothing.append_paren {s : Text} (h : OpensNothing s) (t : Text) :
    OpensNothing (s ++ ')' :: t) := by
  cases s with
  | nil => exact opensNothing_cons (by decide) (by decide) t
  | cons c w =>
    refine opensNothing_cons (fun hc => h.1 w ?_) (fun hc => h.2 w ?_) _
    · rw [hc]
    · rw [hc]

theorem valueOf_eq_scalar {s : Text} (h : Literal.scan? s = none) (hs : OpensNothing s) :
    valueOf value s = scalar value s := by
  unfold valueOf
  split
  · next h' =>
    rw [h] at h'
    simp at h'
  · split
    · exact absurd rfl (hs.1 _)
    · exact absurd rfl (hs.2 _)
    · rfl

/-- The first character tells that no literal, list or tuple starts there. -/
theorem valueOf_cons_eq_scalar {c : Char} (h : c ∉ ['\'', '"', 'r', 'R', '[', '(']) (s : Text) :
    valueOf value (c :: s) = scalar value (c :: s) := by
  simp only [List.mem_cons, List.not_mem_nil, or_false, not_or] at h
  exact valueOf_eq_scalar (Literal.scan?_eq_none (by simp [h]) s)
    (opensNothing_cons h.2.2.2.2.1 h.2.2.2.2.2 s)

/-- A value is a literal, a list, a tuple or a scalar. Where no literal starts, the first character
    tells which of the others it is. -/
theorem valueOf_cases {s : Text} {v : Value} {r : Text} (h : valueOf value s = .ok v r) :
    (∃ text, Literal.scan? s = some (text, r) ∧ v = .str text) ∨
      (∃ t found, s = '[' :: t ∧ enclosed value ']' .closingBracket t = .ok found r ∧
        v = .list found.1) ∨
      (∃ t found, s = '(' :: t ∧ enclosed value ')' .closingParenthesis t = .ok found r ∧
        v = tupleValue found) ∨
      (Literal.scan? s = none ∧ OpensNothing s ∧ scalar value s = .ok v r) := by
  cases hscan : Literal.scan? s with
  | some found =>
    obtain ⟨text, rest⟩ := found
    rw [valueOf_of_scan? hscan] at h
    obtain ⟨rfl, rfl⟩ := Parsed.ok.inj h
    exact Or.inl ⟨text, rfl, rfl⟩
  | none =>
    rcases opening_cases s with ⟨t, rfl⟩ | ⟨t, rfl⟩ | hs
    · obtain ⟨found, hfound, rfl⟩ := Parsed.map_eq_ok.1 h
      exact Or.inr (Or.inl ⟨t, found, rfl, hfound, rfl⟩)
    · obtain ⟨found, hfound, rfl⟩ := Parsed.map_eq_ok.1 h
      exact Or.inr (Or.inr (Or.inl ⟨t, found, rfl, hfound, rfl⟩))
    · rw [valueOf_eq_scalar hscan hs] at h
      exact Or.inr (Or.inr (Or.inr ⟨rfl, hs, h⟩))

theorem Reads.exists_of_valueOf (hvalue : Reads value) {s : Text} {v : Value} {r : Text}
    (h : valueOf value s = .ok v r) : ∃ u, s = u ++ r ∧ IsPiece u := by
  rcases valueOf_cases h with
    ⟨text, hscan, _⟩ | ⟨t, found, rfl, hfound, _⟩ | ⟨t, found, rfl, hfound, _⟩ | ⟨_, _, hscalar⟩
  · obtain ⟨u, hs, hu, _⟩ := Literal.exists_of_scan? hscan
    exact ⟨u, hs, isPiece_of_isLiteral hu⟩
  · exact hvalue.exists_of_enclosed (by decide) (by decide) (fun _ hu => hu.bracketed) hfound
  · exact hvalue.exists_of_enclosed (by decide) (by decide) (fun _ hu => hu.parenthesised) hfound
  · exact hvalue.scalar.exists_of_ok hscalar

theorem Reads.enclosed_of_append (hvalue : Reads value) {close : Char} {what : Expectation}
    {s t : Text} {found : List Value × Bool} {r : Text}
    (h : enclosed value close what (s ++ ')' :: t) = .ok found (r ++ ')' :: t)) :
    enclosed value close what s = .ok found r :=
  enclosed_eq_ok_iff.2 (hvalue.items.ok_of_append (t := t) (enclosed_eq_ok_iff.1 h))

theorem Reads.valueOf_of_append (hvalue : Reads value) {s t : Text} {v : Value} {r : Text}
    (h : valueOf value (s ++ ')' :: t) = .ok v (r ++ ')' :: t)) : valueOf value s = .ok v r := by
  cases hscan : Literal.scan? (s ++ ')' :: t) with
  | some found =>
    obtain ⟨text, rest⟩ := found
    rw [valueOf_of_scan? hscan] at h
    obtain ⟨rfl, rfl⟩ := Parsed.ok.inj h
    exact valueOf_of_scan? (Literal.scan?_of_append hscan)
  | none =>
    rcases opening_cases s with ⟨w, rfl⟩ | ⟨w, rfl⟩ | hs
    · obtain ⟨found, hfound, rfl⟩ := Parsed.map_eq_ok.1 h
      rw [valueOf_cons_bracket, hvalue.enclosed_of_append hfound]
      rfl
    · obtain ⟨found, hfound, rfl⟩ := Parsed.map_eq_ok.1 h
      rw [valueOf_cons_paren, hvalue.enclosed_of_append hfound]
      rfl
    · rw [valueOf_eq_scalar hscan (hs.append_paren t)] at h
      rw [valueOf_eq_scalar (Literal.scan?_eq_none_of_append hscan) hs]
      exact hvalue.scalar.ok_of_append h

theorem Reads.valueOf_mismatch_of_append (hvalue : Reads value) {s t : Text}
    (h : valueOf value (s ++ ')' :: t) = .mismatch) : valueOf value s = .mismatch := by
  cases hscan : Literal.scan? (s ++ ')' :: t) with
  | some found =>
    rw [valueOf_of_scan? hscan] at h
    simp at h
  | none =>
    rcases opening_cases s with ⟨w, rfl⟩ | ⟨w, rfl⟩ | hs
    · exact absurd (Parsed.map_eq_mismatch.1 h) (hvalue.enclosed_ne_mismatch _ _ _)
    · exact absurd (Parsed.map_eq_mismatch.1 h) (hvalue.enclosed_ne_mismatch _ _ _)
    · rw [valueOf_eq_scalar hscan (hs.append_paren t)] at h
      rw [valueOf_eq_scalar (Literal.scan?_eq_none_of_append hscan) hs]
      exact hvalue.scalar.mismatch_of_append h

theorem Reads.valueOf (hvalue : Reads value) : Reads (valueOf value) :=
  ⟨hvalue.exists_of_valueOf, hvalue.valueOf_of_append, hvalue.valueOf_mismatch_of_append⟩

/-- Values nest as deep as the budget allows, and every one is read as a piece. -/
theorem reads_value (budget : Nat) : Reads (Grammar.value budget) := by
  induction budget with
  | zero =>
    refine ⟨fun h => ?_, fun h => ?_, fun h => ?_⟩
    · simp [Grammar.value] at h
    · simp [Grammar.value] at h
    · simp [Grammar.value] at h
  | succ budget ih => exact ih.valueOf

end Values

end Scribe.Grammar
