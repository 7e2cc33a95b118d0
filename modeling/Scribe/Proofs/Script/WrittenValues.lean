import Scribe.Proofs.Decimal.Integers
import Scribe.Proofs.Script.Written

set_option autoImplicit false

/-! # Written values are read back

A value that is written as an argument is read back as itself, if it is built from constants,
integers, strings and lists of such values and its lists do not nest deeper than the grammar reads.
What may stand behind such a value in a list is a comma or the closing bracket, so every reader
stops where the value ends. -/

namespace Scribe

open Text (isBlank isIdentChar isIdentStart)

/-! ## Values -/

/-- The value is built from constants, integers and strings, with lists around them that nest at
    most so deep. -/
inductive Value.NestsWithin : Nat → Value → Prop where
  | none (depth : Nat) : NestsWithin depth .none
  | bool (depth : Nat) (b : Bool) : NestsWithin depth (.bool b)
  | int (depth : Nat) (n : Int64) : NestsWithin depth (.int n)
  | str (depth : Nat) (s : Text) : NestsWithin depth (.str s)
  | list {depth : Nat} {items : List Value} (h : ∀ v ∈ items, NestsWithin depth v) :
      NestsWithin (depth + 1) (.list items)

/-- The value inside so many lists, each of which holds nothing else. -/
def Value.wrapped : Nat → Value → Value
  | 0, v => v
  | depth + 1, v => .list [wrapped depth v]

theorem Value.NestsWithin.wrapped {depth : Nat} {v : Value} (h : v.NestsWithin depth) (n : Nat) :
    (v.wrapped n).NestsWithin (depth + n) := by
  induction n with
  | zero => exact h
  | succ n ih =>
    refine .list fun w hw => ?_
    rw [List.mem_singleton.1 hw]
    exact ih

/-- What stands behind a value in a written list. -/
inductive EndsItem : Text → Prop where
  | nothing : EndsItem []
  | comma (rest : Text) : EndsItem (',' :: rest)
  | bracket (rest : Text) : EndsItem (']' :: rest)

theorem EndsItem.takeWhile_append {rest : Text} (h : EndsItem rest) {p : Char → Bool}
    (hcomma : p ',' = false) (hbracket : p ']' = false) {s : Text} (hs : ∀ c ∈ s, p c = true) :
    (s ++ rest).takeWhile p = s := by
  rw [List.takeWhile_append_of_pos hs]
  cases h with
  | nothing => simp
  | comma rest => simp [hcomma]
  | bracket rest => simp [hbracket]

theorem EndsItem.dropWhile_append {rest : Text} (h : EndsItem rest) {p : Char → Bool}
    (hcomma : p ',' = false) (hbracket : p ']' = false) {s : Text} (hs : ∀ c ∈ s, p c = true) :
    (s ++ rest).dropWhile p = rest := by
  rw [List.dropWhile_append_of_pos hs]
  cases h with
  | nothing => rfl
  | comma rest => exact List.dropWhile_cons_of_neg (by simp [hcomma])
  | bracket rest => exact List.dropWhile_cons_of_neg (by simp [hbracket])

theorem EndsItem.head?_eq {rest : Text} (h : EndsItem rest) {c : Char} (hc : rest.head? = some c) :
    c = ',' ∨ c = ']' := by
  cases h with
  | nothing => simp at hc
  | comma rest => exact Or.inl (Option.some.inj hc).symm
  | bracket rest => exact Or.inr (Option.some.inj hc).symm

namespace Grammar

/-- The reader finds the value wherever it is written in a list. -/
def ReadsBack (reader : Text → Parsed Value) (v : Value) : Prop :=
  ∀ rest, EndsItem rest → reader (v.text ++ rest) = .ok v rest

variable {inner : Text → Parsed Value}

/-! ## Constants -/

theorem word_constant {name rest : Text} {v : Value} (hname : IsName name)
    (hconst : constant? name = some v) (hrest : EndsItem rest) :
    word inner (name ++ rest) = .ok v rest := by
  have hident : identifier (name ++ rest) = (name, rest) := by
    refine identifier_append_eq hname fun c hc => ?_
    rcases hrest.head?_eq hc with rfl | rfl <;> decide
  have hgap : rest.dropWhile Text.isGap = rest :=
    hrest.dropWhile_append (s := []) rfl rfl (by simp)
  have hne : name.isEmpty = false := List.isEmpty_eq_false_iff.2 hname.ne_nil
  simp only [word, hident, hgap, hne, hconst]
  cases hrest <;> rfl

/-- A constant is a name, and starts neither as a literal or a list nor as a number does. -/
theorem exists_of_constant? {name : Text} {v : Value} (h : constant? name = some v) :
    ∃ c u, name = c :: u ∧ isIdentStart c = true ∧ (∀ d ∈ u, isIdentChar d = true) ∧
      c ∉ ['\'', '"', 'r', 'R', '[', '('] ∧ c ≠ '-' ∧ c.isDigit = false := by
  have hmem := mem_of_constant? h
  simp only [List.mem_cons, List.not_mem_nil, or_false] at hmem
  rcases hmem with rfl | rfl | rfl | rfl | rfl | rfl <;>
    exact ⟨_, _, rfl, by decide, List.all_eq_true.1 (by decide), by decide, by decide, by decide⟩

theorem valueOf_constant {name rest : Text} {v : Value} (hconst : constant? name = some v)
    (hrest : EndsItem rest) : valueOf inner (name ++ rest) = .ok v rest := by
  obtain ⟨c, u, rfl, hstart, hchars, hnot, hminus, hdigit⟩ := exists_of_constant? hconst
  have hword : word inner (c :: u ++ rest) = .ok v rest :=
    word_constant ⟨c, u, rfl, hstart, hchars⟩ hconst hrest
  rw [List.cons_append] at hword ⊢
  rw [valueOf_cons_eq_scalar hnot, scalar, number_eq_mismatch hminus hdigit]
  exact hword

/-! ## Integers -/

theorem unsignedNumber_natText (sign : Text) {k : Nat} {n : Int64}
    (hn : Decimal.int64? (sign ++ Decimal.natText k) = some n) {rest : Text} (hrest : EndsItem rest)
    (s : Text) : unsignedNumber sign (Decimal.natText k ++ rest) s = .ok (.int n) rest := by
  have hdigits : ∀ c ∈ Decimal.natText k, c.isDigit = true :=
    fun _ => Decimal.isDigit_of_mem_natText
  rw [unsignedNumber_eq_ok_iff, hrest.takeWhile_append rfl rfl hdigits,
    hrest.dropWhile_append rfl rfl hdigits]
  refine ⟨Decimal.natText_ne_nil k, Or.inr ⟨fun hpoint => ?_, n, hn, rfl, rfl⟩⟩
  rcases hrest.head?_eq hpoint with h | h <;> exact absurd h (by decide)

theorem number_intText (n : Int64) {rest : Text} (hrest : EndsItem rest) :
    number (Decimal.intText n.toInt ++ rest) = .ok (.int n) rest := by
  have hread := Decimal.int64?_intText n
  cases hn : n.toInt with
  | ofNat k =>
    rw [hn] at hread
    rw [Decimal.intText, number_eq_unsignedNumber (Decimal.natText_append_ne_minus k rest)]
    exact unsignedNumber_natText [] hread hrest _
  | negSucc k =>
    rw [hn] at hread
    rw [Decimal.intText, List.cons_append, number_minus]
    exact unsignedNumber_natText ['-'] hread hrest _

theorem valueOf_intText (n : Int64) {rest : Text} (hrest : EndsItem rest) :
    valueOf inner (Decimal.intText n.toInt ++ rest) = .ok (.int n) rest := by
  have hnumber := number_intText n hrest
  obtain ⟨c, u, htext, hc⟩ := Decimal.exists_intText_eq n.toInt
  have hnot : c ∉ ['\'', '"', 'r', 'R', '[', '('] :=
    Text.not_mem_of_all (p := fun d => d = '-' ∨ d.isDigit = true) hc (by decide)
  rw [htext, List.cons_append] at hnumber ⊢
  rw [valueOf_cons_eq_scalar hnot, scalar, hnumber]

/-! ## Lists -/

/-- A value that is read back starts where it is written: no blank stands in front of it. -/
theorem skipBlank_text {depth : Nat} {v : Value} (h : v.NestsWithin depth) (rest : Text) :
    skipBlank (v.text ++ rest) = v.text ++ rest := by
  have hcons {c : Char} (hc : isBlank c = false) (u : Text) : skipBlank (c :: u) = c :: u :=
    List.dropWhile_cons_of_neg (by simp [hc])
  cases h with
  | none => exact hcons (c := 'N') rfl _
  | bool _ b =>
    cases b with
    | false => exact hcons (c := 'F') rfl _
    | true => exact hcons (c := 'T') rfl _
  | int _ n =>
    obtain ⟨c, u, htext, hc⟩ := Decimal.exists_intText_eq n.toInt
    have hblank : isBlank c = false := by
      rcases hc with rfl | hdigit
      · rfl
      · by_cases hblank : isBlank c = true
        · have hident := isIdentChar_of_isBlank hblank
          simp [isIdentChar, Char.isAlphanum, hdigit] at hident
        · simpa using hblank
    rw [Value.text, htext]
    exact hcons hblank _
  | str _ s => exact Literal.skipBlank_quote s rest
  | list => exact hcons (c := '[') rfl _

/-- Nothing is read where a list ends. -/
theorem valueOf_closingBracket (s : Text) : valueOf inner (']' :: s) = .mismatch := by
  rw [valueOf_cons_eq_scalar (by decide), scalar, number_eq_mismatch (by decide) rfl]
  simp only
  rw [word, identifier_eq_nil rfl]
  rfl

theorem endsItem_moreText (items : List Value) (rest : Text) :
    EndsItem (Value.moreText items ++ ']' :: rest) := by
  cases items with
  | nil => exact .bracket rest
  | cons v items => exact .comma _

/-- The items of a written list are read one by one, up to its bracket. -/
theorem more_moreText {depth : Nat} (v : Value) {vs : List Value}
    (hvs : ∀ v ∈ vs, v.NestsWithin depth ∧ ReadsBack inner v) (rest : Text) :
    separated.more inner v (Value.moreText vs ++ ']' :: rest) = .ok (v :: vs) (']' :: rest) := by
  induction vs generalizing v with
  | nil => exact more_eq_singleton v rfl
  | cons w vs ih =>
    obtain ⟨hw, hread⟩ := hvs w List.mem_cons_self
    have hskip := skipBlank_text hw (Value.moreText vs ++ ']' :: rest)
    have hnext : separator? ',' (Value.moreText (w :: vs) ++ ']' :: rest)
        = some (w.text ++ (Value.moreText vs ++ ']' :: rest)) := by
      have happ : Value.moreText (w :: vs) ++ ']' :: rest
          = ',' :: ' ' :: (w.text ++ (Value.moreText vs ++ ']' :: rest)) := by
        simp [Value.moreText]
      rw [happ]
      exact congrArg some hskip
    have hlt : (Value.moreText vs ++ ']' :: rest).length
        < (Value.moreText (w :: vs) ++ ']' :: rest).length := by
      simp only [Value.moreText, List.length_append, List.length_cons]
      omega
    unfold separated.more
    simp only [separator?_skipBlank, hnext, hread _ (endsItem_moreText vs rest), hlt, if_true]
    rw [ih w fun v hv => hvs v (List.mem_cons_of_mem _ hv)]
    rfl

theorem items_itemsText {depth : Nat} {vs : List Value}
    (hvs : ∀ v ∈ vs, v.NestsWithin depth ∧ ReadsBack (valueOf inner) v) (rest : Text) :
    items (valueOf inner) (Value.itemsText vs ++ ']' :: rest)
      = .ok (vs, false) (']' :: rest) := by
  cases vs with
  | nil =>
    have hskip : skipBlank (']' :: rest) = ']' :: rest := rfl
    have hcomma : separator? ',' (']' :: rest) = none := rfl
    simp only [Value.itemsText, List.nil_append, items, separated, hskip, valueOf_closingBracket,
      hcomma]
  | cons v vs =>
    obtain ⟨hv, hread⟩ := hvs v List.mem_cons_self
    have hfirst : valueOf inner (skipBlank (Value.itemsText (v :: vs) ++ ']' :: rest))
        = .ok v (Value.moreText vs ++ ']' :: rest) := by
      rw [Value.itemsText, List.append_assoc, skipBlank_text hv]
      exact hread _ (endsItem_moreText vs rest)
    exact items_eq_ok hfirst
      (more_moreText v (fun w hw => hvs w (List.mem_cons_of_mem _ hw)) rest) rfl

/-! ## Whole values -/

/-- A value is read back where one level more may be spent than its lists nest. -/
theorem value_text {depth : Nat} {v : Value} (h : v.NestsWithin depth) :
    ReadsBack (value (depth + 1)) v := by
  induction h with
  | none =>
    exact fun rest => valueOf_constant rfl
  | bool _ b =>
    cases b with
    | false =>
      exact fun rest => valueOf_constant rfl
    | true =>
      exact fun rest => valueOf_constant rfl
  | int _ n => exact fun rest => valueOf_intText n
  | str _ s => exact fun rest _ => valueOf_of_scan? (Literal.scan?_quote s rest)
  | @list depth vs hvs ih =>
    intro rest _
    have hitems : items (value (depth + 1)) (Value.itemsText vs ++ ']' :: rest)
        = .ok (vs, false) (']' :: rest) := items_itemsText (fun v hv => ⟨hvs v hv, ih v hv⟩) rest
    have hread : value (depth + 2) ('[' :: (Value.itemsText vs ++ ']' :: rest))
        = (enclosed (value (depth + 1)) ']' .closingBracket (Value.itemsText vs ++ ']' :: rest)).map
            fun found => .list found.1 := rfl
    have happ : Value.text (.list vs) ++ rest = '[' :: (Value.itemsText vs ++ ']' :: rest) := by
      simp [Value.text]
    rw [happ, hread, enclosed_eq_ok_iff.2 hitems]
    rfl

/-- No written value looks like a keyword. -/
theorem keyword?_text {depth : Nat} {v : Value} (h : v.NestsWithin depth) :
    keyword? v.text = none := by
  have hcons {c : Char} (hc : isIdentStart c = false) (u : Text) : keyword? (c :: u) = none := by
    simp [keyword?, identifier_eq_nil hc]
  cases h with
  | none => decide +kernel
  | bool _ b => cases b <;> decide +kernel
  | int _ n =>
    obtain ⟨c, u, htext, hc⟩ := Decimal.exists_intText_eq n.toInt
    rw [Value.text, htext]
    rcases hc with rfl | hdigit
    · exact hcons rfl u
    · exact hcons (isIdentStart_of_isDigit hdigit) u
  | str _ s =>
    have hscan := Literal.scan?_quote s []
    rw [List.append_nil] at hscan
    exact keyword?_of_scan? hscan
  | list => exact hcons (c := '[') rfl _

/-- A value whose lists nest no deeper than the grammar reads is the one argument that its text is
    read as. -/
theorem parseArguments_text {v : Value} (h : v.NestsWithin maxNesting) :
    parseArguments v.text = .ok ([v], []) := by
  have hskip : skipBlank v.text = v.text := by
    have hskip := skipBlank_text h []
    rwa [List.append_nil] at hskip
  have hvalue : argumentValue v.text = .ok v [] := by
    have hvalue := value_text h [] .nothing
    rwa [List.append_nil] at hvalue
  have hfirst : argument argumentValue (skipBlank (skipBlank v.text)) = .ok (.positional v) [] := by
    rw [skipBlank_skipBlank, hskip, argument, keyword?_text h]
    simp only [hvalue, Parsed.map]
  rw [parseArguments, arguments, items_eq_singleton hfirst rfl]
  rfl

/-- Values of every kind, inside as many lists as the grammar reads. -/
def deepValue : Value :=
  .wrapped 62 (.list [.none, .bool true, .bool false, .int Int64.minValue,
    .str "a, b] = ('c\"\\d') #;\n".toList, .list []])

theorem parseArguments_deepValue :
    deepValue.NestsWithin maxNesting ∧ parseArguments deepValue.text = .ok ([deepValue], []) := by
  have hnests : deepValue.NestsWithin maxNesting := by
    refine Value.NestsWithin.wrapped (@Value.NestsWithin.list 1 _ fun v hv => ?_) 62
    simp only [List.mem_cons, List.not_mem_nil, or_false] at hv
    rcases hv with rfl | rfl | rfl | rfl | rfl | rfl
    · exact .none 1
    · exact .bool 1 true
    · exact .bool 1 false
    · exact .int 1 Int64.minValue
    · exact .str 1 _
    · exact .list (by simp)
  exact ⟨hnests, parseArguments_text hnests⟩

-- One list more is not read.
example : (parseArguments (Value.wrapped 64 (.list [])).text).toOption.isSome = false := by
  decide +kernel

end Grammar

end Scribe
