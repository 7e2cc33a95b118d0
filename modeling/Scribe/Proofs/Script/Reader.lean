import Scribe.Script.Grammar
import Scribe.Proofs.Script.Piece

set_option autoImplicit false

/-! # What the readers of the grammar take

Every reader of the grammar takes pieces off its text, and what it finds there does not depend on
the text behind the closing parenthesis of the argument list that it reads. So the argument list of
a call reads the same where it is cut out. Readers of items, arguments and calls inherit this from
the reader of single values that they are given. -/

namespace Scribe.Grammar

open Text (isIdentChar isGap isBlank)
open Balance (IsClosed)

/-! ## Blanks and separators -/

theorem exists_skipBlank (s : Text) :
    ∃ b, (∀ c ∈ b, isBlank c = true) ∧ s = b ++ skipBlank s :=
  ⟨s.takeWhile isBlank, fun c hc => List.all_eq_true.1 List.all_takeWhile c hc,
    List.takeWhile_append_dropWhile.symm⟩

theorem skipBlank_skipBlank (s : Text) : skipBlank (skipBlank s) = skipBlank s := by
  have h := List.head?_dropWhile_not isBlank s
  rw [skipBlank, skipBlank]
  cases hs : s.dropWhile isBlank with
  | nil => rfl
  | cons c r =>
    rw [hs] at h
    simp only [List.head?_cons] at h
    simp [h]

theorem skipBlank_append_paren (s t : Text) :
    skipBlank (s ++ ')' :: t) = skipBlank s ++ ')' :: t := dropWhile_append_cons rfl s t

theorem exists_of_separator? {c : Char} {s r : Text} (h : separator? c s = some r) :
    ∃ b b', (∀ d ∈ b, isBlank d = true) ∧ (∀ d ∈ b', isBlank d = true) ∧
      s = b ++ c :: (b' ++ r) := by
  obtain ⟨b, hb, hs⟩ := exists_skipBlank s
  unfold separator? at h
  split at h
  · simp at h
  · next d u hskip =>
    rw [hskip] at hs
    obtain ⟨b', hb', hu⟩ := exists_skipBlank u
    simp only [Option.ite_none_right_eq_some, Option.some.injEq] at h
    obtain ⟨rfl, rfl⟩ := h
    exact ⟨b, b', hb, hb', by rw [← hu, hs]⟩

theorem length_lt_of_separator? {c : Char} {s r : Text} (h : separator? c s = some r) :
    r.length < s.length := by
  obtain ⟨b, b', _, _, rfl⟩ := exists_of_separator? h
  simp only [List.length_append, List.length_cons]
  omega

theorem separator?_skipBlank (c : Char) (s : Text) :
    separator? c (skipBlank s) = separator? c s := by
  simp only [separator?, skipBlank_skipBlank]

/-- A separator in front of a closing parenthesis is found whatever stands behind that. -/
theorem separator?_append_paren {c : Char} (hc : c ≠ ')') (s t : Text) :
    separator? c (s ++ ')' :: t) = (separator? c s).map fun r => r ++ ')' :: t := by
  unfold separator?
  rw [skipBlank_append_paren]
  cases skipBlank s with
  | nil => simp [hc.symm]
  | cons d r =>
    simp only [List.cons_append]
    split
    · simp [skipBlank_append_paren]
    · rfl

/-! ## Outcomes -/

theorem Parsed.map_eq_ok {α β : Type} {f : α → β} {p : Parsed α} {v : β} {r : Text} :
    p.map f = .ok v r ↔ ∃ w, p = .ok w r ∧ f w = v := by
  cases p with
  | ok w r' =>
    simp only [Parsed.map, Parsed.ok.injEq]
    constructor
    · rintro ⟨hv, hr⟩
      exact ⟨w, ⟨rfl, hr⟩, hv⟩
    · rintro ⟨_, ⟨rfl, hr⟩, hv⟩
      exact ⟨hv, hr⟩
  | mismatch => simp [Parsed.map]
  | stop cause r' => simp [Parsed.map]

theorem Parsed.map_eq_mismatch {α β : Type} {f : α → β} {p : Parsed α} :
    p.map f = .mismatch ↔ p = .mismatch := by
  cases p <;> simp [Parsed.map]

/-- A reader of single values. It takes a piece off its text, and neither what it finds nor whether
    it finds anything depends on the text behind a closing parenthesis. -/
structure Reads {α : Type} (p : Text → Parsed α) : Prop where
  exists_of_ok : ∀ {s : Text} {v : α} {r : Text}, p s = .ok v r → ∃ u, s = u ++ r ∧ IsPiece u
  ok_of_append : ∀ {s t : Text} {v : α} {r : Text},
    p (s ++ ')' :: t) = .ok v (r ++ ')' :: t) → p s = .ok v r
  mismatch_of_append : ∀ {s t : Text}, p (s ++ ')' :: t) = .mismatch → p s = .mismatch

/-- A reader of many values, which always finds some, perhaps none. Behind the pieces that it takes
    off its text it may take blanks too. -/
structure ReadsMany {α : Type} (p : Text → Parsed α) : Prop where
  exists_of_ok : ∀ {s : Text} {v : α} {r : Text}, p s = .ok v r →
    ∃ u b, s = u ++ (b ++ r) ∧ IsClosed u ∧ IsUnbroken u ∧ ∀ c ∈ b, isBlank c = true
  ok_of_append : ∀ {s t : Text} {v : α} {r : Text},
    p (s ++ ')' :: t) = .ok v (r ++ ')' :: t) → p s = .ok v r
  ne_mismatch : ∀ s, p s ≠ .mismatch

theorem Reads.map {α β : Type} {p : Text → Parsed α} (hp : Reads p) (f : α → β) :
    Reads fun s => (p s).map f := by
  refine ⟨fun h => ?_, fun h => ?_, fun h => ?_⟩
  · obtain ⟨w, hw, _⟩ := Parsed.map_eq_ok.1 h
    exact hp.exists_of_ok hw
  · obtain ⟨w, hw, hf⟩ := Parsed.map_eq_ok.1 h
    exact Parsed.map_eq_ok.2 ⟨w, hp.ok_of_append hw, hf⟩
  · exact Parsed.map_eq_mismatch.2 (hp.mismatch_of_append (Parsed.map_eq_mismatch.1 h))

theorem ReadsMany.map {α β : Type} {p : Text → Parsed α} (hp : ReadsMany p) (f : α → β) :
    ReadsMany fun s => (p s).map f := by
  refine ⟨fun h => ?_, fun h => ?_, fun s h => ?_⟩
  · obtain ⟨w, hw, _⟩ := Parsed.map_eq_ok.1 h
    exact hp.exists_of_ok hw
  · obtain ⟨w, hw, hf⟩ := Parsed.map_eq_ok.1 h
    exact Parsed.map_eq_ok.2 ⟨w, hp.ok_of_append hw, hf⟩
  · exact hp.ne_mismatch s (Parsed.map_eq_mismatch.1 h)

/-! ## Items between commas -/

section Items

variable {α : Type} {item : Text → Parsed α}

theorem isPiece_comma : IsPiece [','] := isPiece_singleton (by decide) (by decide) (by decide)

/-- A comma between blanks and the item behind it. -/
theorem isPiece_comma_item {b b' u : Text} (hb : ∀ c ∈ b, isBlank c = true)
    (hb' : ∀ c ∈ b', isBlank c = true) (hu : IsPiece u) : IsPiece (b ++ ',' :: (b' ++ u)) := by
  have hitem := hu.blank_append hb'
  exact (isPiece_comma.append hitem.isClosed hitem.isUnbroken).blank_append hb

theorem Reads.exists_of_more (hitem : Reads item) {value : α} {s : Text} {values : List α}
    {r : Text} (h : separated.more item value s = .ok values r) :
    ∃ u b, s = u ++ (b ++ r) ∧ IsClosed u ∧ IsUnbroken u ∧ ∀ c ∈ b, isBlank c = true := by
  -- Without another item only the blanks behind the item are read.
  have hhere (s : Text) : ∃ u b, s = u ++ (b ++ skipBlank s) ∧ IsClosed u ∧ IsUnbroken u ∧
      ∀ c ∈ b, isBlank c = true := by
    obtain ⟨b, hb, hs⟩ := exists_skipBlank s
    exact ⟨[], b, hs, Balance.isClosed_nil, isUnbroken_of_newline_not_mem List.not_mem_nil, hb⟩
  fun_induction separated.more item value s generalizing values
  case case1 value s here hsep =>
    rw [← (Parsed.ok.inj h).2]
    exact hhere s
  case case2 value s here next hsep hnext =>
    rw [← (Parsed.ok.inj h).2]
    exact hhere s
  case case3 =>
    simp at h
  case case4 value s here next hsep value' rest' hnext hlt ih =>
    obtain ⟨values', hmore, _⟩ := Parsed.map_eq_ok.1 h
    obtain ⟨v, b, hrest, hv, hvb, hb⟩ := ih hmore
    rw [separator?_skipBlank] at hsep
    obtain ⟨b₀, b₁, hb₀, hb₁, hs⟩ := exists_of_separator? hsep
    obtain ⟨u, hu, hpiece⟩ := hitem.exists_of_ok hnext
    have hlead := isPiece_comma_item hb₀ hb₁ hpiece
    refine ⟨b₀ ++ ',' :: (b₁ ++ u) ++ v, b, ?_, hlead.isClosed.append hv,
      hlead.isUnbroken.append hvb, hb⟩
    rw [hs, hu, hrest]
    simp
  case case5 value s here next hsep value' rest' hnext hlt =>
    rw [← (Parsed.ok.inj h).2]
    exact hhere s

theorem Reads.more_of_append (hitem : Reads item) {value : α} {s t : Text} {values : List α}
    {r : Text} (h : separated.more item value (s ++ ')' :: t) = .ok values (r ++ ')' :: t)) :
    separated.more item value s = .ok values r := by
  generalize hs' : s ++ ')' :: t = s' at h
  fun_induction separated.more item value s' generalizing s values
  case case1 value s' here hsep =>
    subst hs'
    rw [separator?_skipBlank, separator?_append_paren (by decide), Option.map_eq_none_iff] at hsep
    rw [separated.more, separator?_skipBlank, hsep]
    simp only [here, skipBlank_append_paren, Parsed.ok.injEq, List.append_left_inj] at h
    rw [h.1, h.2]
  case case2 value s' here next hsep hnext =>
    subst hs'
    rw [separator?_skipBlank, separator?_append_paren (by decide), Option.map_eq_some_iff] at hsep
    obtain ⟨next, hsep, rfl⟩ := hsep
    rw [separated.more, separator?_skipBlank, hsep]
    simp only [here, skipBlank_append_paren, Parsed.ok.injEq, List.append_left_inj] at h
    simp only [hitem.mismatch_of_append hnext, h.1, h.2]
  case case3 =>
    simp at h
  case case4 value s' here next hsep value' rest' hnext hlt ih =>
    subst hs'
    obtain ⟨values', hmore, hvalues⟩ := Parsed.map_eq_ok.1 h
    -- The items behind it only take something off, so the item left the parenthesis too.
    obtain ⟨u, b, hrest, _⟩ := hitem.exists_of_more hmore
    have hrest : u ++ (b ++ r) ++ ')' :: t = rest' := by rw [hrest]; simp
    rw [separator?_skipBlank, separator?_append_paren (by decide), Option.map_eq_some_iff] at hsep
    obtain ⟨next, hsep, rfl⟩ := hsep
    rw [← hrest] at hnext hlt
    have hlt' : (u ++ (b ++ r)).length < s.length := by
      simp only [List.length_append] at hlt ⊢
      omega
    rw [separated.more, separator?_skipBlank, hsep]
    simp only [hitem.ok_of_append hnext, hlt', if_true]
    exact Parsed.map_eq_ok.2 ⟨values', ih hrest hmore, hvalues⟩
  case case5 value s' here next hsep value' rest' hnext hlt =>
    -- A separator and an item always use something up.
    rw [separator?_skipBlank] at hsep
    have hsep := length_lt_of_separator? hsep
    obtain ⟨u, rfl, _⟩ := hitem.exists_of_ok hnext
    rw [List.length_append] at hsep
    exact absurd (by omega) hlt

theorem more_ne_mismatch (value : α) (s : Text) : separated.more item value s ≠ .mismatch := by
  fun_induction separated.more item value s with
  | case1 => simp
  | case2 => simp
  | case3 => simp
  | case4 value s here next hsep value' rest' hnext hlt ih =>
    exact fun h => ih (Parsed.map_eq_mismatch.1 h)
  | case5 => simp

theorem Reads.separated (hitem : Reads item) : ReadsMany (separated item) := by
  refine ⟨fun {s v r} h => ?_, fun {s t v r} h => ?_, fun s h => ?_⟩
  · unfold Grammar.separated at h
    split at h
    · cases h
      exact ⟨[], [], rfl, Balance.isClosed_nil, isUnbroken_of_newline_not_mem List.not_mem_nil,
        by simp⟩
    · simp at h
    · next value rest hfirst =>
      obtain ⟨b₀, hb₀, hs⟩ := exists_skipBlank s
      obtain ⟨u, hu, hpiece⟩ := hitem.exists_of_ok hfirst
      obtain ⟨v, b, hrest, hv, hvb, hb⟩ := hitem.exists_of_more h
      have hlead := hpiece.blank_append hb₀
      refine ⟨b₀ ++ u ++ v, b, ?_, hlead.isClosed.append hv, hlead.isUnbroken.append hvb, hb⟩
      rw [hs, hu, hrest]
      simp
  · unfold Grammar.separated at h ⊢
    rw [skipBlank_append_paren] at h
    split at h
    · next hfirst =>
      simp only [Parsed.ok.injEq, List.append_left_inj] at h
      rw [hitem.mismatch_of_append hfirst, h.1, h.2]
    · simp at h
    · next value rest hfirst =>
      obtain ⟨u, b, hrest, _⟩ := hitem.exists_of_more h
      have hrest : rest = u ++ (b ++ r) ++ ')' :: t := by rw [hrest]; simp
      subst hrest
      simp only [hitem.ok_of_append hfirst]
      exact hitem.more_of_append h
  · unfold Grammar.separated at h
    split at h
    · simp at h
    · simp at h
    · exact more_ne_mismatch _ _ h

theorem Reads.items (hitem : Reads item) : ReadsMany (items item) := by
  have hsep := hitem.separated
  refine ⟨fun {s v r} h => ?_, fun {s t v r} h => ?_, fun s h => ?_⟩
  · unfold Grammar.items at h
    split at h
    · next values rest hvalues =>
      obtain ⟨u, b, hs, hu, hub, hb⟩ := hsep.exists_of_ok hvalues
      split at h
      · next rest' hcomma =>
        cases h
        obtain ⟨b₀, b₁, hb₀, hb₁, hrest⟩ := exists_of_separator? hcomma
        have htail := (isPiece_comma.blank_append hb₀).blank_append hb
        refine ⟨u ++ (b ++ (b₀ ++ [','])), b₁, ?_, hu.append htail.isClosed,
          hub.append htail.isUnbroken, hb₁⟩
        rw [hs, hrest]
        simp
      · cases h
        exact ⟨u, b, hs, hu, hub, hb⟩
    · simp at h
    · simp at h
  · unfold Grammar.items at h ⊢
    split at h
    · next values rest hvalues =>
      split at h
      · next rest' hcomma =>
        simp only [Parsed.ok.injEq] at h
        obtain ⟨rfl, rfl⟩ := h
        obtain ⟨b₀, b₁, _, _, rfl⟩ := exists_of_separator? hcomma
        have happ : b₀ ++ ',' :: (b₁ ++ (r ++ ')' :: t)) = b₀ ++ ',' :: (b₁ ++ r) ++ ')' :: t := by
          simp
        rw [happ] at hvalues hcomma
        rw [separator?_append_paren (by decide), Option.map_eq_some_iff] at hcomma
        obtain ⟨r', hcomma, hr'⟩ := hcomma
        rw [List.append_left_inj] at hr'
        simp only [hsep.ok_of_append hvalues, hcomma, hr']
      · next hcomma =>
        simp only [Parsed.ok.injEq] at h
        obtain ⟨rfl, rfl⟩ := h
        rw [separator?_append_paren (by decide), Option.map_eq_none_iff] at hcomma
        simp only [hsep.ok_of_append hvalues, hcomma]
    · simp at h
    · simp at h
  · unfold Grammar.items at h
    split at h
    · split at h
      · simp at h
      · simp at h
    · next hvalues => exact hsep.ne_mismatch s hvalues
    · simp at h

/-- Behind an item that no comma follows, the items end. -/
theorem more_eq_singleton (value : α) {rest : Text} (hend : separator? ',' rest = none) :
    separated.more item value rest = .ok [value] (skipBlank rest) := by
  unfold separated.more
  simp only [separator?_skipBlank, hend]

/-- Items that are read up to a place where no comma stands. -/
theorem items_eq_ok {s : Text} {value : α} {rest : Text}
    (hfirst : item (skipBlank s) = .ok value rest) {values : List α} {r : Text}
    (hmore : separated.more item value rest = .ok values r)
    (hend : separator? ',' r = none) : items item s = .ok (values, false) r := by
  simp only [items, separated, hfirst, hmore, hend]

/-- A single item with no comma behind it. -/
theorem items_eq_singleton {s : Text} {value : α} {rest : Text}
    (hfirst : item (skipBlank s) = .ok value rest) (hend : separator? ',' rest = none) :
    items item s = .ok ([value], false) (skipBlank rest) :=
  items_eq_ok hfirst (more_eq_singleton value hend) (by rw [separator?_skipBlank, hend])

end Items

/-! ## Arguments -/

theorem exists_of_keyword? {s name r : Text} (h : keyword? s = some (name, r)) :
    ∃ b b', IsName name ∧ (∀ c ∈ b, isBlank c = true) ∧ (∀ c ∈ b', isBlank c = true) ∧
      s = name ++ (b ++ '=' :: (b' ++ r)) := by
  simp only [keyword?, Option.ite_none_left_eq_some, Option.map_eq_some_iff, Prod.mk.injEq] at h
  obtain ⟨hne, rest, hsep, rfl, rfl⟩ := h
  obtain ⟨b, b', hb, hb', hrest⟩ := exists_of_separator? hsep
  refine ⟨b, b', isName_identifier fun he => hne (by simp [he]), hb, hb', ?_⟩
  rw [← hrest, identifier_append]

theorem keyword?_append_paren (s t : Text) :
    keyword? (s ++ ')' :: t) = (keyword? s).map fun r => (r.1, r.2 ++ ')' :: t) := by
  simp only [keyword?, identifier_append_cons (show isIdentChar ')' = false from rfl),
    separator?_append_paren (show '=' ≠ ')' by decide)]
  split
  · rfl
  · simp [Function.comp_def]

theorem newline_not_mem_of_isName {name : Text} (h : IsName name) : '\n' ∉ name := fun hn =>
  absurd (h.isIdentChar_of_mem hn) (by decide)

theorem isClosed_of_isName {name : Text} (h : IsName name) : IsClosed name :=
  Balance.isClosed_of_isPlain fun _ hc => isPlain_of_isIdentChar (h.isIdentChar_of_mem hc)

theorem isWhite_of_isBlank {c : Char} (h : isBlank c = true) : Text.isWhite c = true := by
  simp only [isBlank, Bool.or_eq_true, beq_iff_eq] at h
  rcases h with ((rfl | rfl) | rfl) | rfl <;> decide

theorem isIdentChar_of_isBlank {c : Char} (h : isBlank c = true) : isIdentChar c = false :=
  isIdentChar_of_isWhite (isWhite_of_isBlank h)

/-- The name of a keyword argument with the sign behind it. -/
theorem isPiece_keyword {name b : Text} (hname : IsName name) (hb : ∀ c ∈ b, isBlank c = true) :
    IsPiece (name ++ (b ++ ['='])) := by
  have hsign : IsPiece ['='] := isPiece_singleton (by decide) (by decide) (by decide)
  have hrest := hsign.blank_append hb
  refine ⟨(isClosed_of_isName hname).append hrest.isClosed, fun t => ?_,
    (isUnbroken_of_newline_not_mem (newline_not_mem_of_isName hname)).append hrest.isUnbroken⟩
  rw [List.append_assoc]
  refine not_startsStatement_name_append hname (fun c hc => ?_) (Or.inr ?_)
  · cases b with
    | nil =>
      rw [← Option.some.inj hc]
      decide
    | cons d b =>
      rw [← Option.some.inj hc]
      exact isIdentChar_of_isBlank (hb d List.mem_cons_self)
  · have hwhite : ∀ c ∈ b, Text.isWhite c = true := fun c hc => isWhite_of_isBlank (hb c hc)
    have hsign : Text.trimStart (b ++ ['='] ++ t) = '=' :: t := by
      rw [List.append_assoc, Text.trimStart, List.dropWhile_append_of_pos hwhite]
      rfl
    rw [hsign]
    exact fun h => absurd (Option.some.inj h) (by decide)

section Values

variable {value : Text → Parsed Value}

theorem Reads.argument (hvalue : Reads value) : Reads (argument value) := by
  have hpos := hvalue.map Argument.positional
  refine ⟨fun {s v r} h => ?_, fun {s t v r} h => ?_, fun {s t} h => ?_⟩
  · unfold Grammar.argument at h
    split at h
    · exact hpos.exists_of_ok h
    · next name rest hkey =>
      split at h
      · exact hpos.exists_of_ok h
      · obtain ⟨w, hw, _⟩ := Parsed.map_eq_ok.1 h
        obtain ⟨b, b', hname, hb, hb', hs⟩ := exists_of_keyword? hkey
        obtain ⟨u, hu, hpiece⟩ := hvalue.exists_of_ok hw
        have hrest := hpiece.blank_append hb'
        refine ⟨name ++ (b ++ ['=']) ++ (b' ++ u), by rw [hs, hu]; simp,
          (isPiece_keyword hname hb).append hrest.isClosed hrest.isUnbroken⟩
  · unfold Grammar.argument at h ⊢
    rw [keyword?_append_paren] at h
    cases hkey : keyword? s with
    | none =>
      rw [hkey] at h
      exact hpos.ok_of_append h
    | some found =>
      rw [hkey] at h
      simp only [Option.map_some] at h
      split at h
      · next hmis =>
        simp only [hvalue.mismatch_of_append hmis]
        exact hpos.ok_of_append h
      · obtain ⟨w, hw, hv⟩ := Parsed.map_eq_ok.1 h
        simp only [hvalue.ok_of_append hw, Parsed.map, hv]
  · unfold Grammar.argument at h ⊢
    rw [keyword?_append_paren] at h
    cases hkey : keyword? s with
    | none =>
      rw [hkey] at h
      exact hpos.mismatch_of_append h
    | some found =>
      rw [hkey] at h
      simp only [Option.map_some] at h
      split at h
      · next hmis =>
        simp only [hvalue.mismatch_of_append hmis]
        exact hpos.mismatch_of_append h
      · next hne => exact absurd (Parsed.map_eq_mismatch.1 h) hne

theorem Reads.arguments (hvalue : Reads value) : ReadsMany (arguments value) :=
  hvalue.argument.items.map Prod.fst

/-! ## Calls -/

/-- What a call consists of. Its argument list reads the same where it is cut out. -/
theorem Reads.exists_of_call (hvalue : Reads value) {s : Text} {raw : RawCall} {rest : Text}
    (h : call value s = .ok raw rest) :
    ∃ gap args found b, IsName raw.name ∧ (∀ c ∈ gap, isGap c = true) ∧
      s = raw.name ++ (gap ++ '(' :: (args ++ ')' :: rest)) ∧
      IsClosed args ∧ IsUnbroken (args ++ [')']) ∧
      Grammar.arguments value args = .ok found b ∧ (∀ c ∈ b, isBlank c = true) ∧
      splitArguments found = (raw.args, raw.kwargs) := by
  simp only [call] at h
  split at h
  · simp at h
  · next hne =>
    have hname := isName_identifier (s := s) fun he => hne (by simp [he])
    split at h
    · next inner hinner =>
      split at h
      · simp at h
      · simp at h
      · next found rest₁ hargs =>
        split at h
        · next rest₂ hskip =>
          simp only [Parsed.ok.injEq] at h
          obtain ⟨rfl, rfl⟩ := h
          obtain ⟨u, b, hinner', hu, hub, hb⟩ := hvalue.arguments.exists_of_ok hargs
          obtain ⟨b', hb', hrest₁⟩ := exists_skipBlank rest₁
          rw [hskip] at hrest₁
          have hblank : ∀ c ∈ b ++ b', isBlank c = true := by
            intro c hc
            rcases List.mem_append.1 hc with hc | hc
            · exact hb c hc
            · exact hb' c hc
          refine ⟨(identifier s).2.takeWhile isGap, u ++ (b ++ b'), found, b', hname,
            fun c hc => List.all_eq_true.1 List.all_takeWhile c hc, ?_,
            hu.append (isClosed_of_isBlank hblank), ?_, ?_, hb', rfl⟩
          · have hsplit := List.takeWhile_append_dropWhile (p := isGap) (l := (identifier s).2)
            rw [hinner, hinner', hrest₁] at hsplit
            have hall := identifier_append s
            rw [← hsplit] at hall
            refine hall.symm.trans ?_
            simp
          · rw [List.append_assoc]
            exact hub.append (isUnbroken_blank_append hblank
              (not_startsStatement_of_head (by decide)) (isUnbroken_of_newline_not_mem (by decide)))
          · rw [hinner', hrest₁] at hargs
            refine hvalue.arguments.ok_of_append (t := rest₂) ?_
            rw [← hargs]
            simp
        · simp at h
    · simp at h

theorem Reads.call_of_append (hvalue : Reads value) {s t : Text} {raw : RawCall} {r : Text}
    (h : call value (s ++ ')' :: t) = .ok raw (r ++ ')' :: t)) : call value s = .ok raw r := by
  simp only [call, identifier_append_cons (show isIdentChar ')' = false from rfl),
    dropWhile_append_cons (show isGap ')' = false from rfl)] at h ⊢
  split at h
  · simp at h
  · next hne =>
    rw [if_neg hne]
    cases hrest : (identifier s).2.dropWhile isGap with
    | nil =>
      rw [hrest] at h
      simp at h
    | cons c inner =>
      rw [hrest, List.cons_append] at h
      split at h
      · next inner' hinner =>
        obtain ⟨rfl, rfl⟩ := List.cons.inj hinner
        simp only
        split at h
        · simp at h
        · simp at h
        · next found rest₁ hargs =>
          split at h
          · next rest₂ hskip =>
            simp only [Parsed.ok.injEq] at h
            obtain ⟨rfl, rfl⟩ := h
            obtain ⟨b, _, hrest₁⟩ := exists_skipBlank rest₁
            rw [hskip] at hrest₁
            have happ : rest₁ = b ++ ')' :: r ++ ')' :: t := by rw [hrest₁]; simp
            rw [happ] at hargs hskip
            rw [skipBlank_append_paren] at hskip
            have hskip' : skipBlank (b ++ ')' :: r) = ')' :: r :=
              List.append_left_inj _ |>.1 (hskip.trans (List.cons_append ..).symm)
            simp only [hvalue.arguments.ok_of_append hargs, hskip']
          · simp at h
      · simp at h

theorem Reads.call_mismatch_of_append (hvalue : Reads value) {s t : Text}
    (h : call value (s ++ ')' :: t) = .mismatch) : call value s = .mismatch := by
  simp only [call, identifier_append_cons (show isIdentChar ')' = false from rfl),
    dropWhile_append_cons (show isGap ')' = false from rfl)] at h ⊢
  split at h
  · next hempty => rw [if_pos hempty]
  · next hne =>
    rw [if_neg hne]
    cases hrest : (identifier s).2.dropWhile isGap with
    | nil => rfl
    | cons c inner =>
      rw [hrest, List.cons_append] at h
      split at h
      · split at h
        · next hargs => exact absurd hargs (hvalue.arguments.ne_mismatch _)
        · simp at h
        · split at h <;> simp at h
      · next hc =>
        split
        · next inner' hinner =>
          rw [(List.cons.inj hinner).1] at hc
          exact absurd rfl (hc _)
        · rfl

end Values

end Scribe.Grammar
