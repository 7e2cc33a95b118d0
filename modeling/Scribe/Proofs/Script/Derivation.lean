import Scribe.Proofs.Script.Outside

set_option autoImplicit false

/-! # What the grammar derives

The rules of the grammar, as relations between what is read and the text it is read from. Every
reader takes a text that its rule derives, with what the rule says of it, so every script that is
accepted is derived.

The readers go beyond the rules as these are written down in two places: spaces and tabs may stand
between the name of a call and its parenthesis, and a comma may stand alone where there is no item.
How far a derivation may go beyond them is a parameter of the rules, and a text that gives no
occasion for either is derived by the rules as they are written down. -/

namespace Scribe.Grammar

open Text (isBlank isGap isIdentChar isIdentStart)

/-! ## Rules -/

/-- How far a derivation may go beyond the rules. -/
structure Latitude where
  /-- May spaces and tabs stand between the name of a call and its parenthesis? -/
  gaps : Bool
  /-- May a comma stand where there is no item? -/
  loneCommas : Bool

/-- The rules as they are written down. -/
def Latitude.asWritten : Latitude := ⟨false, false⟩

section Rules

variable (lat : Latitude) {α : Type} (item : α → Text → Prop) (value : Value → Text → Prop)

/-- Items with a comma between each two. -/
inductive IsSeparated : List α → Text → Prop where
  | one {v : α} {u : Text} (h : item v u) : IsSeparated [v] u
  | more {v : α} {vs : List α} {u b b' t : Text} (h : item v u) (hb : ∀ c ∈ b, isBlank c = true)
      (hb' : ∀ c ∈ b', isBlank c = true) (hmore : IsSeparated vs t) :
      IsSeparated (v :: vs) (u ++ (b ++ ',' :: (b' ++ t)))

/-- Items with a comma between each two and perhaps one behind the last, or none at all. -/
inductive IsItems : List α × Bool → Text → Prop where
  | empty {b : Text} (hb : ∀ c ∈ b, isBlank c = true) : IsItems ([], false) b
  | plain {vs : List α} {b t b' : Text} (hb : ∀ c ∈ b, isBlank c = true)
      (h : IsSeparated item vs t) (hb' : ∀ c ∈ b', isBlank c = true) :
      IsItems (vs, false) (b ++ (t ++ b'))
  | trailing {vs : List α} {b t b' b'' : Text} (hb : ∀ c ∈ b, isBlank c = true)
      (h : IsSeparated item vs t) (hb' : ∀ c ∈ b', isBlank c = true)
      (hb'' : ∀ c ∈ b'', isBlank c = true) : IsItems (vs, true) (b ++ (t ++ (b' ++ ',' :: b'')))
  | lone {b b' : Text} (hlat : lat.loneCommas = true) (hb : ∀ c ∈ b, isBlank c = true)
      (hb' : ∀ c ∈ b', isBlank c = true) : IsItems ([], true) (b ++ ',' :: b')

inductive IsArgument : Argument → Text → Prop where
  | positional {v : Value} {u : Text} (h : value v u) : IsArgument (.positional v) u
  | keyword {name : Text} {v : Value} {b b' u : Text} (hname : IsName name)
      (hb : ∀ c ∈ b, isBlank c = true) (hb' : ∀ c ∈ b', isBlank c = true) (h : value v u) :
      IsArgument (.keyword name v) (name ++ (b ++ '=' :: (b' ++ u)))

inductive IsCall : RawCall → Text → Prop where
  | call {name gap u : Text} {found : List Argument} {trailing : Bool} (hname : IsName name)
      (hgap : ∀ c ∈ gap, isGap c = true) (hlat : gap ≠ [] → lat.gaps = true)
      (h : IsItems lat (IsArgument value) (found, trailing) u) :
      IsCall ⟨name, (splitArguments found).1, (splitArguments found).2⟩
        (name ++ (gap ++ '(' :: (u ++ [')'])))

end Rules

/-- A helper is called without keywords, and the call means what the helper gives. -/
inductive IsValue (lat : Latitude) : Value → Text → Prop where
  | string {s u : Text} (h : Literal.scan? u = some (s, [])) : IsValue lat (.str s) u
  | number {v : Value} {u : Text} (h : IsNumber v u) : IsValue lat v u
  | list {found : List Value × Bool} {u : Text} (h : IsItems lat (IsValue lat) found u) :
      IsValue lat (.list found.1) ('[' :: (u ++ [']']))
  | tuple {found : List Value × Bool} {u : Text} (h : IsItems lat (IsValue lat) found u) :
      IsValue lat (tupleValue found) ('(' :: (u ++ [')']))
  | helper {raw : RawCall} {v : Value} {u : Text} (h : IsCall lat (IsValue lat) raw u)
      (hkwargs : raw.kwargs = []) (hv : Helper.eval? raw.name raw.args = some v) : IsValue lat v u
  | constant {v : Value} {name : Text} (hname : IsName name) (hv : constant? name = some v) :
      IsValue lat v name

/-- A comment up to the end of its line, or nothing. -/
def IsComment (u : Text) : Prop := u = [] ∨ ∃ t, u = '#' :: t ∧ '\n' ∉ t

/-- What ends a statement in front of `rest`. -/
inductive IsEnd (rest : Text) : Text → Prop where
  | mark {gap u : Text} {c : Char} (hgap : ∀ c ∈ gap, isGap c = true) (hu : IsComment u)
      (hc : c = '\n' ∨ c = ';') : IsEnd rest (gap ++ (u ++ [c]))
  | nothing {gap u : Text} (hgap : ∀ c ∈ gap, isGap c = true) (hu : IsComment u)
      (hrest : rest = []) : IsEnd rest (gap ++ u)

/-- Blanks, semicolons and comments. -/
inductive IsIdle : Text → Prop where
  | nil : IsIdle []
  | mark {c : Char} {s : Text} (hc : isBlank c = true ∨ c = ';') (h : IsIdle s) : IsIdle (c :: s)
  | comment {t s : Text} (ht : '\n' ∉ t) (h : IsIdle s) : IsIdle ('#' :: (t ++ s))

inductive IsStatements (lat : Latitude) : List RawCall → Text → Prop where
  | nil : IsStatements lat [] []
  | cons {raw : RawCall} {calls : List RawCall} {u e b t : Text}
      (hcall : IsCall lat (IsValue lat) raw u) (hend : IsEnd (b ++ t) e) (hidle : IsIdle b)
      (hmore : IsStatements lat calls t) : IsStatements lat (raw :: calls) (u ++ (e ++ (b ++ t)))

/-- The script consists of these calls. -/
inductive IsScript (lat : Latitude) : List RawCall → Text → Prop where
  | script {calls : List RawCall} {b t : Text} (hidle : IsIdle b) (h : IsStatements lat calls t) :
      IsScript lat calls (b ++ t)

/-! ## Occasions for latitude -/

/-- A name ends here, and spaces or tabs stand between it and a parenthesis. -/
def startsGap : Text → Bool
  | [] => false
  | c :: s => isIdentChar c && s.head?.any isGap && (s.dropWhile isGap).head? == some '('

/-- A parenthesis or a bracket opens here, and behind it comes, but for blanks, a comma. -/
def startsLoneComma : Text → Bool
  | [] => false
  | o :: s => (o == '(' || o == '[') && (separator? ',' s).isSome

/-- Where the text gives occasion to go beyond the rules, it is allowed. -/
structure Latitude.Covers (lat : Latitude) (s : Text) : Prop where
  gaps : anyOutside startsGap s = true → lat.gaps = true
  loneCommas : anyOutside startsLoneComma s = true → lat.loneCommas = true

section Covers

variable {lat : Latitude}

theorem Latitude.Covers.of_isPassed {u t : Text} (h : lat.Covers (u ++ t)) (hu : IsPassed u) :
    lat.Covers t :=
  ⟨fun hgap => h.gaps (hu _ t hgap), fun hcomma => h.loneCommas (hu _ t hcomma)⟩

theorem Latitude.Covers.skipIdle {s : Text} (h : lat.Covers s) : lat.Covers (skipIdle false s) :=
  ⟨fun hgap => h.gaps ((anyOutside_of_skipIdle s).1 hgap),
    fun hcomma => h.loneCommas ((anyOutside_of_skipIdle s).1 hcomma)⟩

theorem Latitude.Covers.of_name {name gap r : Text} (h : lat.Covers (name ++ (gap ++ '(' :: r)))
    (hname : IsName name) (hgap : ∀ c ∈ gap, isBlank c = true) : lat.Covers ('(' :: r) :=
  ⟨fun hg => h.gaps (anyOutside_of_name hname hgap (by decide) hg),
    fun hcomma => h.loneCommas (anyOutside_of_name hname hgap (by decide) hcomma)⟩

theorem Latitude.Covers.gaps_of_name {name gap r : Text}
    (h : lat.Covers (name ++ (gap ++ '(' :: r))) (hname : IsName name)
    (hgap : ∀ c ∈ gap, isGap c = true) (hne : gap ≠ []) : lat.gaps = true := by
  obtain ⟨a, c, rfl⟩ := (List.eq_nil_or_concat name).resolve_left hname.ne_nil
  rw [List.concat_eq_append] at h hname
  obtain ⟨d, gap, rfl⟩ := List.exists_cons_of_ne_nil hne
  have hc : isIdentChar c = true := hname.isIdentChar_of_mem (by simp)
  have hd : isGap d = true := hgap d List.mem_cons_self
  have hquote := Scanner.isQuote_eq_false (Or.inl hc)
  have hcomment : c ≠ '#' := by
    rintro rfl
    exact absurd hc (by decide)
  have hscan : Literal.scan? (c :: (d :: gap ++ '(' :: r)) = none :=
    Literal.scan?_eq_none_of_head hquote fun e he => by
      rw [← Option.some.inj he]
      exact Scanner.isQuote_eq_false (Or.inr hd)
  have hstarts : startsGap (c :: (d :: gap ++ '(' :: r)) = true := by
    have hparen : (('(' :: r).dropWhile isGap).head? = some '(' := rfl
    rw [startsGap, List.dropWhile_append_of_pos hgap, hparen, hc]
    simp [hd]
  refine h.gaps ?_
  rw [List.append_assoc]
  refine anyOutside_name_append (fun e he => hname.isIdentChar_of_mem (List.mem_append_left _ he))
    (Or.inr fun e he => ?_) ?_
  · rwa [← Option.some.inj he]
  · rw [List.singleton_append, anyOutside_cons hscan hcomment, hstarts, Bool.true_or]

theorem Latitude.Covers.loneCommas_of_separator? {o : Char} (ho : o = '(' ∨ o = '[') {s r : Text}
    (h : lat.Covers (o :: s)) (hcomma : separator? ',' s = some r) : lat.loneCommas = true := by
  have hscan : Literal.scan? (o :: s) = none :=
    Literal.scan?_eq_none (by rcases ho with rfl | rfl <;> decide) s
  have hcomment : o ≠ '#' := by rcases ho with rfl | rfl <;> decide
  have hstarts : startsLoneComma (o :: s) = true := by
    rw [startsLoneComma, hcomma]
    rcases ho with rfl | rfl <;> rfl
  exact h.loneCommas (by rw [anyOutside_cons hscan hcomment, hstarts, Bool.true_or])

end Covers

/-! ## Items and arguments -/

section Readers

variable {lat : Latitude}

/-- What the reader takes off a text is derived by the rule. -/
structure Derives (lat : Latitude) {α : Type} (reader : Text → Parsed α) (rule : α → Text → Prop) :
    Prop where
  exists_of_ok : ∀ {s : Text} {v : α} {r : Text}, lat.Covers s → reader s = .ok v r →
    ∃ u, s = u ++ r ∧ IsPassed u ∧ rule v u

section Items

variable {α : Type} {item : Text → Parsed α} {rule : α → Text → Prop}

theorem isPassed_comma {b b' : Text} (hb : ∀ c ∈ b, isBlank c = true)
    (hb' : ∀ c ∈ b', isBlank c = true) : IsPassed (b ++ ',' :: b') :=
  (isPassed_of_isBlank hb).append
    ((isPassed_singleton (by decide)).append (isPassed_of_isBlank hb'))

/-- Behind an item, the others stand between commas, and behind the last one are blanks. -/
theorem Derives.exists_of_more (hitem : Derives lat item rule) {v : α} {s : Text} {vs : List α}
    {r u : Text} (hcovers : lat.Covers s) (hread : separated.more item v s = .ok vs r)
    (hu : rule v u) :
    ∃ t b, s = t ++ (b ++ r) ∧ IsPassed t ∧ (∀ c ∈ b, isBlank c = true) ∧
      IsSeparated rule vs (u ++ t) := by
  -- Without another item only the blanks behind the item are read.
  have hhere {s : Text} {v : α} {u : Text} (hu : rule v u) :
      ∃ t b, s = t ++ (b ++ skipBlank s) ∧ IsPassed t ∧ (∀ c ∈ b, isBlank c = true) ∧
        IsSeparated rule [v] (u ++ t) := by
    obtain ⟨b, hb, hs⟩ := exists_skipBlank s
    exact ⟨[], b, hs, isPassed_nil, hb, by rw [List.append_nil]; exact .one hu⟩
  fun_induction separated.more item v s generalizing vs u
  case case1 v s here hsep =>
    obtain ⟨rfl, rfl⟩ := Parsed.ok.inj hread
    exact hhere hu
  case case2 v s here next hsep hnext =>
    obtain ⟨rfl, rfl⟩ := Parsed.ok.inj hread
    exact hhere hu
  case case3 =>
    simp at hread
  case case4 v s here next hsep w rest hnext hlt ih =>
    obtain ⟨ws, hmore, rfl⟩ := Parsed.map_eq_ok.1 hread
    rw [separator?_skipBlank] at hsep
    obtain ⟨b₀, b₁, hb₀, hb₁, hs⟩ := exists_of_separator? hsep
    have hcomma := isPassed_comma hb₀ hb₁
    have hs : s = (b₀ ++ ',' :: b₁) ++ next := by rw [hs]; simp
    rw [hs] at hcovers
    have hcovers := hcovers.of_isPassed hcomma
    obtain ⟨w', rfl, hpassed, hw⟩ := hitem.exists_of_ok hcovers hnext
    obtain ⟨t, b, rfl, ht, hb, hsepar⟩ := ih (hcovers.of_isPassed hpassed) hmore hw
    have happ : (b₀ ++ ',' :: b₁) ++ (w' ++ t) = b₀ ++ ',' :: (b₁ ++ (w' ++ t)) := by simp
    refine ⟨b₀ ++ ',' :: (b₁ ++ (w' ++ t)), b, by rw [hs]; simp, ?_, hb, .more hu hb₀ hb₁ hsepar⟩
    rw [← happ]
    exact hcomma.append (hpassed.append ht)
  case case5 v s here next hsep w rest hnext hlt =>
    obtain ⟨rfl, rfl⟩ := Parsed.ok.inj hread
    exact hhere hu

theorem Derives.exists_of_separated (hitem : Derives lat item rule) {s : Text} {vs : List α}
    {r : Text} (hcovers : lat.Covers s) (hread : separated item s = .ok vs r) :
    (vs = [] ∧ r = s) ∨
      ∃ b t b', s = b ++ (t ++ (b' ++ r)) ∧ (∀ c ∈ b, isBlank c = true) ∧ IsPassed t ∧
        (∀ c ∈ b', isBlank c = true) ∧ IsSeparated rule vs t := by
  unfold separated at hread
  split at hread
  · obtain ⟨rfl, rfl⟩ := Parsed.ok.inj hread
    exact Or.inl ⟨rfl, rfl⟩
  · simp at hread
  · next v rest hfirst =>
    obtain ⟨b, hb, hs⟩ := exists_skipBlank s
    rw [hs] at hcovers
    have hcovers := hcovers.of_isPassed (isPassed_of_isBlank hb)
    obtain ⟨u, hskip, hpassed, hu⟩ := hitem.exists_of_ok hcovers hfirst
    rw [hskip] at hcovers hs
    obtain ⟨t, b', rfl, ht, hb', hsep⟩ :=
      hitem.exists_of_more (hcovers.of_isPassed hpassed) hread hu
    exact Or.inr ⟨b, u ++ t, b', by rw [hs]; simp, hb, hpassed.append ht, hb', hsep⟩

/-- Items stand behind what opens them, and a comma stands alone only where it may. -/
theorem Derives.exists_of_items (hitem : Derives lat item rule) {o : Char} (ho : o = '(' ∨ o = '[')
    {s : Text} {found : List α × Bool} {r : Text} (hcovers : lat.Covers (o :: s))
    (hread : items item s = .ok found r) :
    ∃ u, s = u ++ r ∧ IsPassed u ∧ IsItems lat rule found u := by
  have hopen : IsPassed [o] := isPassed_singleton (by rcases ho with rfl | rfl <;> decide)
  unfold items at hread
  split at hread
  · next vs rest hvs =>
    have hcases := hitem.exists_of_separated (hcovers.of_isPassed hopen) hvs
    split at hread
    · next rest' hcomma =>
      obtain ⟨rfl, rfl⟩ := Parsed.ok.inj hread
      obtain ⟨b₀, b₁, hb₀, hb₁, hrest⟩ := exists_of_separator? hcomma
      rcases hcases with ⟨rfl, rfl⟩ | ⟨b, t, b', rfl, hb, ht, hb', hsep⟩
      · have hlat := hcovers.loneCommas_of_separator? ho hcomma
        exact ⟨b₀ ++ ',' :: b₁, by rw [hrest]; simp, isPassed_comma hb₀ hb₁, .lone hlat hb₀ hb₁⟩
      · have hblank : ∀ c ∈ b' ++ b₀, isBlank c = true := List.forall_mem_append.2 ⟨hb', hb₀⟩
        exact ⟨b ++ (t ++ ((b' ++ b₀) ++ ',' :: b₁)), by rw [hrest]; simp,
          (isPassed_of_isBlank hb).append (ht.append (isPassed_comma hblank hb₁)),
          .trailing hb hsep hblank hb₁⟩
    · obtain ⟨rfl, rfl⟩ := Parsed.ok.inj hread
      rcases hcases with ⟨rfl, rfl⟩ | ⟨b, t, b', rfl, hb, ht, hb', hsep⟩
      · exact ⟨[], rfl, isPassed_nil, .empty (by simp)⟩
      · exact ⟨b ++ (t ++ b'), by simp,
          (isPassed_of_isBlank hb).append (ht.append (isPassed_of_isBlank hb')),
          .plain hb hsep hb'⟩
  · simp at hread
  · simp at hread

/-- Blanks may follow items. -/
theorem IsItems.append_blank {found : List α × Bool} {u b : Text} (h : IsItems lat rule found u)
    (hb : ∀ c ∈ b, isBlank c = true) : IsItems lat rule found (u ++ b) := by
  have happend {b' : Text} (hb' : ∀ c ∈ b', isBlank c = true) : ∀ c ∈ b' ++ b, isBlank c = true :=
    List.forall_mem_append.2 ⟨hb', hb⟩
  cases h with
  | empty hb' => exact .empty (happend hb')
  | plain hb₀ hsep hb' =>
    rw [List.append_assoc, List.append_assoc]
    exact .plain hb₀ hsep (happend hb')
  | trailing hb₀ hsep hb' hb'' =>
    rw [List.append_assoc, List.append_assoc, List.append_assoc, List.cons_append]
    exact .trailing hb₀ hsep hb' (happend hb'')
  | lone hlat hb' hb'' =>
    rw [List.append_assoc, List.cons_append]
    exact .lone hlat hb' (happend hb'')

end Items

section Values

variable {value : Text → Parsed Value} {rule : Value → Text → Prop}

theorem Derives.argument (hvalue : Derives lat value rule) :
    Derives lat (argument value) (IsArgument rule) := by
  refine ⟨fun {s arg r} hcovers hread => ?_⟩
  have hpositional (h : (value s).map Argument.positional = .ok arg r) :
      ∃ u, s = u ++ r ∧ IsPassed u ∧ IsArgument rule arg u := by
    obtain ⟨v, hv, rfl⟩ := Parsed.map_eq_ok.1 h
    obtain ⟨u, hs, hpassed, hu⟩ := hvalue.exists_of_ok hcovers hv
    exact ⟨u, hs, hpassed, .positional hu⟩
  unfold Grammar.argument at hread
  split at hread
  · exact hpositional hread
  · next name rest hkey =>
    split at hread
    · exact hpositional hread
    · obtain ⟨v, hv, rfl⟩ := Parsed.map_eq_ok.1 hread
      obtain ⟨b, b', hname, hb, hb', hs⟩ := exists_of_keyword? hkey
      have hsign : IsPassed ('=' :: b') :=
        (isPassed_singleton (by decide)).append (isPassed_of_isBlank hb')
      have hkeyword := isPassed_name_append hname hb (by decide) hsign
      have hs : s = (name ++ (b ++ '=' :: b')) ++ rest := by rw [hs]; simp
      rw [hs] at hcovers
      obtain ⟨u, rfl, hpassed, hu⟩ := hvalue.exists_of_ok (hcovers.of_isPassed hkeyword) hv
      have happ : (name ++ (b ++ '=' :: b')) ++ u = name ++ (b ++ '=' :: (b' ++ u)) := by simp
      refine ⟨name ++ (b ++ '=' :: (b' ++ u)), by rw [hs]; simp, ?_, .keyword hname hb hb' hu⟩
      rw [← happ]
      exact hkeyword.append hpassed

/-! ## Calls -/

theorem Derives.call (hvalue : Derives lat value rule) :
    Derives lat (call value) (IsCall lat rule) := by
  refine ⟨fun {s raw r} hcovers hread => ?_⟩
  simp only [Grammar.call] at hread
  split at hread
  · simp at hread
  · next hne =>
    have hname := isName_identifier (s := s) fun he => hne (by simp [he])
    split at hread
    · next inner hinner =>
      split at hread
      · simp at hread
      · simp at hread
      · next found rest hargs =>
        split at hread
        · next rest' hclose =>
          obtain ⟨rfl, rfl⟩ := Parsed.ok.inj hread
          have hgap : ∀ c ∈ (identifier s).2.takeWhile isGap, isGap c = true :=
            List.all_eq_true.1 List.all_takeWhile
          have hs : s = (identifier s).1 ++ ((identifier s).2.takeWhile isGap ++ '(' :: inner) := by
            rw [← hinner, List.takeWhile_append_dropWhile, identifier_append]
          generalize (identifier s).1 = name at *
          generalize (identifier s).2.takeWhile isGap = gap at *
          subst hs
          have hblank : ∀ c ∈ gap, isBlank c = true := fun c hc => isBlank_of_isGap (hgap c hc)
          have hparen : IsPassed ['('] := isPassed_singleton (by decide)
          obtain ⟨⟨found', trailing⟩, hitems, rfl⟩ := Parsed.map_eq_ok.1 hargs
          obtain ⟨u, rfl, hpassed, hu⟩ := hvalue.argument.exists_of_items (Or.inl rfl)
            (hcovers.of_name hname hblank) hitems
          obtain ⟨b, hb, hrest⟩ := exists_skipBlank rest
          rw [hclose] at hrest
          have hinner : IsPassed ('(' :: (u ++ b ++ [')'])) :=
            hparen.append ((hpassed.append (isPassed_of_isBlank hb)).append
              (isPassed_singleton (by decide)))
          refine ⟨name ++ (gap ++ '(' :: (u ++ b ++ [')'])), by rw [hrest]; simp,
            isPassed_name_append hname hblank (by decide) hinner, ?_⟩
          exact .call hname hgap (hcovers.gaps_of_name hname hgap) (hu.append_blank hb)
        · simp at hread
    · simp at hread

end Values

/-! ## Values -/

section Values

variable {value : Text → Parsed Value}

theorem Derives.word (hvalue : Derives lat value (IsValue lat)) :
    Derives lat (word value) (IsValue lat) := by
  refine ⟨fun {s v r} hcovers hread => ?_⟩
  simp only [Grammar.word] at hread
  split at hread
  · simp at hread
  · next hne =>
    have hname := isName_identifier (s := s) fun he => hne (by simp [he])
    split at hread
    · split at hread
      · simp at hread
      · simp at hread
      · next raw rest hcall =>
        split at hread
        · simp at hread
        · next hkwargs =>
          split at hread
          · next result heval =>
            obtain ⟨rfl, rfl⟩ := Parsed.ok.inj hread
            obtain ⟨u, hs, hpassed, hu⟩ := hvalue.call.exists_of_ok hcovers hcall
            exact ⟨u, hs, hpassed, .helper hu (by simpa using hkwargs) heval⟩
          · simp at hread
    · split at hread
      · next result hconst =>
        obtain ⟨rfl, rfl⟩ := Parsed.ok.inj hread
        exact ⟨(identifier s).1, (identifier_append s).symm, isPassed_of_constant? hname hconst,
          .constant hname hconst⟩
      · simp at hread

theorem Derives.scalar (hvalue : Derives lat value (IsValue lat)) :
    Derives lat (scalar value) (IsValue lat) := by
  refine ⟨fun {s v r} hcovers hread => ?_⟩
  unfold Grammar.scalar at hread
  split at hread
  · exact hvalue.word.exists_of_ok hcovers hread
  · obtain ⟨u, hs, hu⟩ := exists_of_number hread
    refine ⟨u, hs, isPassed_of_forall fun c hc => ?_, .number hu⟩
    exact Text.not_mem_of_all (p := fun d => d = '-' ∨ d = '.' ∨ d.isDigit = true)
      (hu.char_cases c hc) (by decide)

/-- What stands between an opening and a closing character. -/
theorem Derives.exists_of_enclosed (hvalue : Derives lat value (IsValue lat)) {o close : Char}
    (ho : o = '(' ∨ o = '[') (hclose : close ∉ ['\'', '"', 'r', 'R', '#']) {what : Expectation}
    {s : Text} {found : List Value × Bool} {r : Text} (hcovers : lat.Covers (o :: s))
    (hread : enclosed value close what s = .ok found r) :
    ∃ u, o :: s = o :: (u ++ [close]) ++ r ∧ IsPassed (o :: (u ++ [close])) ∧
      IsItems lat (IsValue lat) found u := by
  have hopen : IsPassed [o] := isPassed_singleton (by rcases ho with rfl | rfl <;> decide)
  obtain ⟨u, rfl, hpassed, hu⟩ := hvalue.exists_of_items ho hcovers (enclosed_eq_ok_iff.1 hread)
  exact ⟨u, by simp, hopen.append (hpassed.append (isPassed_singleton hclose)), hu⟩

theorem Derives.valueOf (hvalue : Derives lat value (IsValue lat)) :
    Derives lat (valueOf value) (IsValue lat) := by
  refine ⟨fun {s v r} hcovers hread => ?_⟩
  rcases valueOf_cases hread with
    ⟨text, hscan, rfl⟩ | ⟨t, found, rfl, hfound, rfl⟩ | ⟨t, found, rfl, hfound, rfl⟩ |
      ⟨_, _, hscalar⟩
  · obtain ⟨u, hs, _, hu⟩ := Literal.exists_of_scan? hscan
    have hwhole := hu []
    rw [List.append_nil] at hwhole
    exact ⟨u, hs, isPassed_of_scan? hu, .string hwhole⟩
  · obtain ⟨u, hs, hpassed, hu⟩ :=
      hvalue.exists_of_enclosed (Or.inr rfl) (by decide) hcovers hfound
    exact ⟨'[' :: (u ++ [']']), hs, hpassed, .list hu⟩
  · obtain ⟨u, hs, hpassed, hu⟩ :=
      hvalue.exists_of_enclosed (Or.inl rfl) (by decide) hcovers hfound
    exact ⟨'(' :: (u ++ [')']), hs, hpassed, .tuple hu⟩
  · exact hvalue.scalar.exists_of_ok hcovers hscalar

/-- Whatever may be spent on nesting, a value that is read is derived. -/
theorem derives_value (lat : Latitude) (budget : Nat) :
    Derives lat (Grammar.value budget) (IsValue lat) := by
  induction budget with
  | zero => exact ⟨fun _ hread => by simp [Grammar.value] at hread⟩
  | succ budget ih => exact ih.valueOf

end Values

end Readers

/-! ## Between statements -/

theorem exists_of_skipIdle (s : Text) :
    (∃ b, s = b ++ skipIdle false s ∧ IsIdle b) ∧
      ∃ t b, s = t ++ (b ++ skipIdle true s) ∧ '\n' ∉ t ∧ IsIdle b := by
  -- Both ways of skipping at once, since a comment leads from one to the other and back.
  induction s with
  | nil => exact ⟨⟨[], rfl, .nil⟩, [], [], rfl, List.not_mem_nil, .nil⟩
  | cons c s ih =>
    obtain ⟨⟨b, hb, hidle⟩, t, b', ht, hnl, hidle'⟩ := ih
    refine ⟨?_, ?_⟩
    · simp only [skipIdle, Bool.false_eq_true, if_false]
      split
      · next hc =>
        rw [Bool.or_eq_true, beq_iff_eq] at hc
        exact ⟨c :: b, congrArg (c :: ·) hb, .mark hc hidle⟩
      · split
        · next hc =>
          obtain rfl := beq_iff_eq.1 hc
          refine ⟨'#' :: (t ++ b'), ?_, .comment hnl hidle'⟩
          rw [List.cons_append, List.append_assoc, ← ht]
        · exact ⟨[], rfl, .nil⟩
    · by_cases hc : c = '\n'
      · subst hc
        exact ⟨[], '\n' :: b, congrArg ('\n' :: ·) hb, List.not_mem_nil, .mark (Or.inl rfl) hidle⟩
      · have hskip : skipIdle true (c :: s) = skipIdle true s := by
          have hne : (c != '\n') = true := by simpa using hc
          rw [skipIdle, if_pos rfl, hne]
        rw [hskip]
        exact ⟨c :: t, b', congrArg (c :: ·) ht,
          List.not_mem_cons_of_ne_of_not_mem (Ne.symm hc) hnl, hidle'⟩

theorem exists_behindComment (s : Text) : ∃ u, s = u ++ behindComment s ∧ IsComment u := by
  unfold behindComment
  split
  · next t =>
    refine ⟨'#' :: t.takeWhile (· != '\n'), ?_, Or.inr ⟨_, rfl, fun hmem => ?_⟩⟩
    · rw [List.cons_append, List.takeWhile_append_dropWhile]
    · exact absurd (List.all_eq_true.1 List.all_takeWhile _ hmem) (by decide)
  · exact ⟨[], rfl, Or.inl rfl⟩

theorem exists_of_statementEnd? {s r : Text} (h : statementEnd? s = some r) :
    ∃ e, s = e ++ r ∧ IsEnd r e := by
  obtain ⟨gap, hgap, hs⟩ : ∃ gap, (∀ c ∈ gap, isGap c = true) ∧ s = gap ++ s.dropWhile isGap :=
    ⟨s.takeWhile isGap, List.all_eq_true.1 List.all_takeWhile, List.takeWhile_append_dropWhile.symm⟩
  obtain ⟨u, hcomment, hu⟩ := exists_behindComment (s.dropWhile isGap)
  rw [hcomment] at hs
  rcases cases_of_statementEnd? h with ⟨hend, rfl⟩ | hend | hend
  · rw [hend] at hs
    exact ⟨gap ++ u, hs.trans (by simp), .nothing hgap hu rfl⟩
  · rw [hend] at hs
    exact ⟨gap ++ (u ++ ['\n']), hs.trans (by simp), .mark hgap hu (Or.inl rfl)⟩
  · rw [hend] at hs
    exact ⟨gap ++ (u ++ [';']), hs.trans (by simp), .mark hgap hu (Or.inr rfl)⟩

/-! ## Scripts -/

theorem isStatements_of_statements {lat : Latitude} {s : Text} {found : List RawCall}
    (hcovers : lat.Covers s) (h : statements s = .ok found) : IsStatements lat found s := by
  induction found generalizing s with
  | nil =>
    rw [eq_nil_of_statements h]
    exact .nil
  | cons raw found ih =>
    obtain ⟨rest, next, hcall, hend, hmore⟩ := exists_of_statements_cons h
    obtain ⟨u, rfl, hpassed, hu⟩ := (derives_value lat _).call.exists_of_ok hcovers hcall
    have hbehind := (hcovers.of_isPassed hpassed).skipIdle
    rw [skipIdle_of_statementEnd? hend] at hbehind
    obtain ⟨e, rfl, he⟩ := exists_of_statementEnd? hend
    obtain ⟨b, hnext, hidle⟩ := (exists_of_skipIdle next).1
    rw [hnext] at he ⊢
    exact .cons hu he hidle (ih hbehind hmore)

/-- A script that is accepted is derived by the rules of the grammar, and what they say of it is
    what is read: the calls of the vocabulary among its calls. The rules are those that are written
    down, but where spaces stand between a name and its parenthesis or a comma stands alone behind
    what opens a sequence, and latitude is given for it. -/
theorem isScript_of_parseScript {lat : Latitude} {script : Text} {found : List Invocation}
    (hcovers : lat.Covers script) (h : parseScript script = .ok found) :
    ∃ calls, IsScript lat calls script ∧ found = calls.filterMap RawCall.invocation? := by
  obtain ⟨b, hscript, hidle⟩ := (exists_of_skipIdle script).1
  cases hcalls : statements (skipIdle false script) with
  | error mistake =>
    rw [parseScript_eq, Grammar.calls, hcalls] at h
    cases h
  | ok calls =>
    rw [parseScript_eq, Grammar.calls, hcalls] at h
    have hstatements := isStatements_of_statements hcovers.skipIdle hcalls
    refine ⟨calls, ?_, (Except.ok.inj h).symm⟩
    rw [hscript]
    exact .script hidle hstatements

/-- A script with arguments of every kind, none of which goes beyond the rules. -/
def variedScript : Text :=
  "# f (,'\ninsert_text(r'(,', True); insert_table(len([1, -2.5,]), cols = 2,)\n\nf([], ())".toList

theorem isScript_variedScript :
    Latitude.asWritten.Covers variedScript ∧
      ∃ found calls, parseScript variedScript = .ok found ∧
        found.map Invocation.verb = [.insertText, .insertTable] ∧
        IsScript .asWritten calls variedScript ∧
        found = calls.filterMap RawCall.invocation? := by
  have hcovers : Latitude.asWritten.Covers variedScript :=
    ⟨by decide +kernel, by decide +kernel⟩
  have hread : (parseScript variedScript).toOption.map (fun found => found.map Invocation.verb)
      = some [.insertText, .insertTable] := by decide +kernel
  cases hfound : parseScript variedScript with
  | error failure =>
    rw [hfound] at hread
    simp [Except.toOption] at hread
  | ok found =>
    rw [hfound] at hread
    obtain ⟨calls, hscript, hcalls⟩ := isScript_of_parseScript hcovers hfound
    exact ⟨hcovers, found, calls, rfl, Option.some.inj hread, hscript, hcalls⟩

/-! ## Lone commas -/

/-- No value starts with a comma. -/
theorem IsValue.exists_cons {lat : Latitude} {v : Value} {u : Text} (h : IsValue lat v u) :
    ∃ c t, u = c :: t ∧ c ≠ ',' := by
  have hname {name : Text} (hname : IsName name) (t : Text) :
      ∃ c w, name ++ t = c :: w ∧ c ≠ ',' := by
    obtain ⟨c, w, rfl, hc, -⟩ := hname
    refine ⟨c, w ++ t, rfl, ?_⟩
    rintro rfl
    exact absurd hc (by decide)
  cases h with
  | string h =>
    obtain ⟨w, rfl, hw, -⟩ := Literal.exists_of_scan? h
    obtain ⟨c, t, rfl, hc⟩ := hw.exists_cons
    refine ⟨c, t ++ [], rfl, ?_⟩
    rintro rfl
    exact absurd hc (by decide)
  | number h =>
    obtain ⟨c, t, rfl⟩ := List.exists_cons_of_ne_nil h.ne_nil
    refine ⟨c, t, rfl, ?_⟩
    rintro rfl
    exact absurd (h.char_cases ',' List.mem_cons_self) (by decide)
  | list => exact ⟨'[', _, rfl, by decide⟩
  | tuple => exact ⟨'(', _, rfl, by decide⟩
  | helper h =>
    cases h with
    | call hcall => exact hname hcall _
  | constant hconst =>
    have h := hname hconst []
    rwa [List.append_nil] at h

theorem IsArgument.exists_cons {lat : Latitude} {arg : Argument} {u : Text}
    (h : IsArgument (IsValue lat) arg u) : ∃ c t, u = c :: t ∧ c ≠ ',' := by
  cases h with
  | positional h => exact h.exists_cons
  | keyword hname =>
    obtain ⟨c, w, rfl, hc, -⟩ := hname
    refine ⟨c, _, rfl, ?_⟩
    rintro rfl
    exact absurd hc (by decide)

/-- Without latitude, items do not start with a comma. -/
theorem IsItems.head?_ne_comma {lat : Latitude} {α : Type} {rule : α → Text → Prop}
    (hrule : ∀ v u, rule v u → ∃ c t, u = c :: t ∧ c ≠ ',') (hlat : lat.loneCommas = false)
    {found : List α × Bool} {u : Text} (h : IsItems lat rule found u) : u.head? ≠ some ',' := by
  have hblank {b : Text} (hb : ∀ c ∈ b, isBlank c = true) : b.head? ≠ some ',' := fun hc =>
    absurd (hb ',' (List.mem_of_head? hc)) (by decide)
  have hitems {vs : List α} {b t : Text} (hb : ∀ c ∈ b, isBlank c = true)
      (hsep : IsSeparated rule vs t) (r : Text) : (b ++ (t ++ r)).head? ≠ some ',' := by
    cases b with
    | cons c b =>
      show (c :: b).head? ≠ some ','
      exact hblank hb
    | nil =>
      cases hsep with
      | one h | more h =>
        obtain ⟨c, w, rfl, hc⟩ := hrule _ _ h
        exact fun heq => hc (Option.some.inj heq)
  cases h with
  | empty hb => exact hblank hb
  | plain hb hsep => exact hitems hb hsep _
  | trailing hb hsep => exact hitems hb hsep _
  | lone h =>
    rw [hlat] at h
    exact absurd h (by decide)

theorem IsIdle.eq_nil_or_cons {b : Text} (h : IsIdle b) :
    b = [] ∨ ∃ c t, b = c :: t ∧ isIdentStart c = false := by
  cases h with
  | nil => exact Or.inl rfl
  | @mark c t hc =>
    refine Or.inr ⟨c, t, rfl, ?_⟩
    simp only [isBlank, Bool.or_eq_true, beq_iff_eq] at hc
    rcases hc with (((rfl | rfl) | rfl) | rfl) | rfl <;> decide
  | comment => exact Or.inr ⟨'#', _, rfl, by decide⟩

/-- Without latitude, no script starts with a call whose arguments start with a comma. -/
theorem not_isScript_of_comma {lat : Latitude} (hlat : lat.loneCommas = false) {name : Text}
    (hname : IsName name) (r : Text) (calls : List RawCall) :
    ¬ IsScript lat calls (name ++ '(' :: ',' :: r) := by
  intro h
  generalize hs : name ++ '(' :: ',' :: r = s at h
  cases h with
  | script hidle hstatements =>
    rcases hidle.eq_nil_or_cons with rfl | ⟨c, t, rfl, hc⟩
    · cases hstatements with
      | nil => simp at hs
      | cons hcall =>
        cases hcall with
        | @call name' gap u found trailing hname' hgap _ hitems =>
          have hnone : ∀ c ∈ ([] : Text), Text.isWhite c = true := by simp
          have hwhite : ∀ c ∈ gap, Text.isWhite c = true := fun c hc => isWhite_of_isGap (hgap c hc)
          rw [List.nil_append, List.append_assoc, List.append_assoc, List.cons_append] at hs
          obtain ⟨-, hinner⟩ := eq_of_name_append hname hname' hnone hwhite hs
          have hhead := hitems.head?_ne_comma (fun _ _ h => h.exists_cons) hlat
          cases u with
          | nil => exact absurd (List.cons.inj hinner).1 (by decide)
          | cons c u => exact hhead (congrArg some (List.cons.inj hinner).1.symm)
    · obtain ⟨d, w, rfl, hd, -⟩ := hname
      rw [(List.cons.inj hs).1, hc] at hd
      exact absurd hd (by decide)

/-- A script of one call with a comma and no argument. -/
def loneComma : Text := "insert_enter(,)".toList

/-- It is accepted, and without latitude for the comma no rules derive it. -/
theorem not_isScript_loneComma :
    ((parseScript loneComma).toOption.map fun found => found.map Invocation.verb)
        = some [.insertEnter] ∧
      ∀ gaps calls, ¬ IsScript ⟨gaps, false⟩ calls loneComma :=
  ⟨by decide +kernel,
    fun _ calls => not_isScript_of_comma rfl (isName_name .insertEnter) [')'] calls⟩

end Scribe.Grammar
