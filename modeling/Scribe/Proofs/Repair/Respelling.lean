import Scribe.Repair.Primes

set_option autoImplicit false

/-! # Respelling from the left

A replacement rule reads a text from the left, puts a substitute in place of every match, and copies
what it declines. `Rewrites` says what such a pass makes of a text in terms of the words that match,
without the rule that finds them. A pass does not look at what it writes, so a new match may arise
where a substitute meets what stands around it. Main statement: if the words of a kind survive only
where they stood before, and no substitute starts one, then a text that had none has none behind the
pass. -/

namespace Scribe.Repair

open Text (isWord)

/-! ## Places of a text -/

section Nowhere

variable {p q : Option Char → Text → Prop} {b : Option Char} {s t : Text}

/-- Holds at no place of the text; `b` is the character in front of it. -/
def Nowhere (q : Option Char → Text → Prop) : Option Char → Text → Prop
  | _, [] => True
  | b, c :: s => ¬q b (c :: s) ∧ Nowhere q (some c) s

theorem Nowhere.of_forall (h : ∀ b s, ¬q b s) : Nowhere q b s := by
  induction s generalizing b with
  | nil => trivial
  | cons c s ih => exact ⟨h _ _, ih⟩

theorem Nowhere.mono (h : Nowhere p b s) (hpq : ∀ b s, q b s → p b s) : Nowhere q b s := by
  induction s generalizing b with
  | nil => trivial
  | cons c s ih => exact ⟨fun hq => h.1 (hpq _ _ hq), ih h.2⟩

theorem Nowhere.or (hp : Nowhere p b s) (hq : Nowhere q b s) :
    Nowhere (fun b s => p b s ∨ q b s) b s := by
  induction s generalizing b with
  | nil => trivial
  | cons c s ih => exact ⟨fun h => h.elim hp.1 hq.1, ih hp.2 hq.2⟩

theorem Nowhere.not_head {c : Char} (h : Nowhere q b (s ++ c :: t)) : ¬q b (s ++ c :: t) := by
  cases s with
  | nil => exact h.1
  | cons d s => exact h.1

theorem Nowhere.of_append {c : Char} (h : Nowhere q b (s ++ c :: t)) : Nowhere q (some c) t := by
  induction s generalizing b with
  | nil => exact h.2
  | cons d s ih => exact ih h.2

end Nowhere

/-! ## Words and their substitutes -/

/-- A way of spelling: the words that are replaced, with the character in front of such a word, the
    character behind it, and the substitute. -/
abbrev Respelling := Option Char → Text → Option Char → Text → Prop

namespace Respelling

/-- A word that is replaced stands at the start of the text. -/
def Matches (p : Respelling) (b : Option Char) (s : Text) : Prop :=
  ∃ w rest sub, s = w ++ rest ∧ p b w rest.head? sub

/-- A word that is not spelled as its substitute stands at the start of the text. -/
def Changes (p : Respelling) (b : Option Char) (s : Text) : Prop :=
  ∃ w rest sub, s = w ++ rest ∧ p b w rest.head? sub ∧ sub ≠ w

theorem Changes.matches {p : Respelling} {b : Option Char} {s : Text} (h : p.Changes b s) :
    p.Matches b s := by
  obtain ⟨w, rest, sub, heq, hp, _⟩ := h
  exact ⟨w, rest, sub, heq, hp⟩

end Respelling

/-- What one pass from the left makes of a text; a word that matches ends with its `last`
    character. -/
inductive Rewrites (p : Respelling) : Option Char → Text → Text → Prop where
  | nil (b : Option Char) : Rewrites p b [] []
  | copied {b : Option Char} {c : Char} {s t : Text} (hdeclined : ¬p.Matches b (c :: s))
      (hrest : Rewrites p (some c) s t) : Rewrites p b (c :: s) (c :: t)
  | found {b : Option Char} {w rest sub t : Text} {last : Char}
      (hword : p b (w ++ [last]) rest.head? sub) (hrest : Rewrites p (some last) rest t) :
      Rewrites p b (w ++ last :: rest) (sub ++ t)

/-- Two characters, or the end of a text, that are both or neither letters and word characters. -/
def Alike (o o' : Option Char) : Prop :=
  o.any isWord = o'.any isWord ∧ o.any Char.isAlpha = o'.any Char.isAlpha

namespace Respelling

/-- A substitute starts like the word that it replaces. -/
def KeepsHeads (p : Respelling) : Prop :=
  ∀ ⦃b w next sub⦄, p b w next sub →
    ∃ c d w' sub', w = c :: w' ∧ sub = d :: sub' ∧ Alike (some c) (some d)

/-- What stands around a word counts only as far as `R` and `Alike` tell it apart. -/
def Local (R : Option Char → Option Char → Prop) (q : Respelling) : Prop :=
  ∀ ⦃b b' w next next' sub⦄, R b b' → Alike next next' → q b' w next' sub → q b w next sub

/-- Behind a character that is copied, no substitute of `p` is written into a word of `q`. -/
def Spares (p q : Respelling) : Prop :=
  ∀ ⦃b w next sub⦄, q b w next sub → ∃ c u, w = c :: u ∧
    ∀ s t, Rewrites p (some c) s (u ++ t) → ∃ b' s', s = u ++ s' ∧ Rewrites p b' s' t

end Respelling

/-- A rule rewrites if it declines only where no word matches, and what it finds is a piece of a
    pass. -/
theorem rewrites_replace {rule : Rule} {p : Respelling}
    (hnone : ∀ b s, rule b s = none → ¬p.Matches b s)
    (hsome : ∀ b s sub rest, rule b s = some ⟨sub, rest⟩ → ∃ w last, s = w ++ last :: rest ∧
      ∀ t, Rewrites p (some last) rest t → Rewrites p b s (sub ++ t))
    (b : Option Char) (s : Text) : Rewrites p b s (rule.replace b s) := by
  fun_induction Rule.replace rule b s with
  | case1 b => exact .nil b
  | case2 b c r hdeclined ih => exact .copied (hnone b _ hdeclined) ih
  | case3 b c r found hfound hlength ih =>
    obtain ⟨w, last, hsplit, hpiece⟩ := hsome b _ found.substitute found.rest hfound
    have hlast : (c :: r)[r.length - found.rest.length]? = some last := by
      have hlen := congrArg List.length hsplit
      simp only [List.length_cons, List.length_append] at hlen
      rw [hsplit, show r.length - found.rest.length = w.length by omega]
      simp
    rw [hlast] at ih ⊢
    exact hpiece _ ih
  | case4 b c r found hfound hlength ih =>
    obtain ⟨w, last, hsplit, _⟩ := hsome b _ found.substitute found.rest hfound
    have hlen := congrArg List.length hsplit
    simp only [List.length_cons, List.length_append] at hlen
    omega

/-- The rule finds exactly the words that match. -/
def Rule.Finds (rule : Rule) (p : Respelling) : Prop :=
  ∀ b s sub rest, rule b s = some ⟨sub, rest⟩ ↔ ∃ w, s = w ++ rest ∧ p b w rest.head? sub

theorem Rule.Finds.rewrites {rule : Rule} {p : Respelling} (hfinds : rule.Finds p)
    (hp : p.KeepsHeads) (b : Option Char) (s : Text) : Rewrites p b s (rule.replace b s) := by
  refine rewrites_replace ?_ ?_ b s
  · rintro b s hdeclined ⟨w, rest, sub, heq, hword⟩
    rw [(hfinds b s sub rest).2 ⟨w, heq, hword⟩] at hdeclined
    cases hdeclined
  · intro b s sub rest hfound
    obtain ⟨w, rfl, hword⟩ := (hfinds b s sub rest).1 hfound
    obtain ⟨c, _, w', _, rfl, _⟩ := hp hword
    obtain ⟨u, last, hw⟩ := (List.eq_nil_or_concat (c :: w')).resolve_left (List.cons_ne_nil _ _)
    rw [List.concat_eq_append] at hw
    rw [hw] at hword ⊢
    rw [← List.append_cons]
    exact ⟨u, last, rfl, fun t => .found hword⟩

namespace Rewrites

variable {p : Respelling} {b : Option Char} {s t : Text}

/-- Where every word is spelled as its substitute already, a pass leaves the text alone. -/
theorem eq_self (h : Rewrites p b s t) (hs : Nowhere p.Changes b s) : t = s := by
  induction h with
  | nil => rfl
  | copied _ _ ih => rw [ih hs.2]
  | @found b w rest sub t last hword _ ih =>
    have hsame : sub = w ++ [last] := Decidable.byContradiction fun hne =>
      hs.not_head ⟨w ++ [last], rest, sub, by simp, hword, hne⟩
    rw [ih hs.of_append, hsame]
    simp

/-- A pass writes only what it has read and what is in its substitutes. -/
theorem mem_of_mem (h : Rewrites p b s t) {c : Char}
    (hsub : ∀ b w next sub, p b w next sub → c ∉ sub) (hc : c ∈ t) : c ∈ s := by
  induction h with
  | nil => exact hc
  | copied _ _ ih =>
    rcases List.mem_cons.1 hc with rfl | hc
    · exact List.mem_cons_self
    · exact List.mem_cons_of_mem _ (ih hc)
  | found hword _ ih =>
    rcases List.mem_append.1 hc with hc | hc
    · exact absurd hc (hsub _ _ _ _ hword)
    · exact List.mem_append_right _ (List.mem_cons_of_mem _ (ih hc))

/-- What a pass makes of a text that is nowhere `old` is nowhere `q` if no place becomes `q` where
    the pass copies or puts a substitute. `R` relates what stands in front of a place to what is
    written in front of it. -/
theorem nowhere (old q : Option Char → Text → Prop) (R : Option Char → Option Char → Prop)
    (hsame : ∀ c, R (some c) (some c))
    (hcopied : ∀ {b b' c s t}, R b b' → ¬p.Matches b (c :: s) → ¬old b (c :: s) →
      Rewrites p (some c) s t → ¬q b' (c :: t))
    (hfound : ∀ {b b' w last rest sub t}, R b b' → p b (w ++ [last]) rest.head? sub →
      ¬old b (w ++ last :: rest) → (∀ b'', R (some last) b'' → Nowhere q b'' t) →
        Nowhere q b' (sub ++ t))
    {b b' : Option Char} (h : Rewrites p b s t) (hold : Nowhere old b s) (hR : R b b') :
    Nowhere q b' t := by
  induction h generalizing b' with
  | nil => trivial
  | copied hdeclined hrest ih => exact ⟨hcopied hR hdeclined hold.1 hrest, ih hold.2 (hsame _)⟩
  | found hword hrest ih =>
    exact hfound hR hword hold.not_head fun b'' hR' => ih hold.of_append hR'

theorem alike (hp : p.KeepsHeads) (h : Rewrites p b s t) : Alike s.head? t.head? := by
  cases h with
  | nil => exact ⟨rfl, rfl⟩
  | copied => exact ⟨rfl, rfl⟩
  | @found _ w rest sub t last hword _ =>
    obtain ⟨c, d, w', sub', hw, rfl, halike⟩ := hp hword
    rw [List.append_cons, hw]
    exact halike

section Survival

variable {q : Respelling} {R : Option Char → Option Char → Prop} {b' : Option Char}

/-- A word that starts with a character that was copied has stood there before. -/
theorem changes_of_copied (hp : p.KeepsHeads) (hlocal : q.Local R) (hspares : p.Spares q)
    (hR : R b b') {c : Char} (hrest : Rewrites p (some c) s t) (h : q.Changes b' (c :: t)) :
    q.Changes b (c :: s) := by
  obtain ⟨w, rest, sub, heq, hword, hne⟩ := h
  obtain ⟨d, u, rfl, hsplit⟩ := hspares hword
  obtain ⟨rfl, rfl⟩ := List.cons.inj heq
  obtain ⟨b'', s', rfl, hbehind⟩ := hsplit s rest hrest
  exact ⟨c :: u, s', sub, rfl, hlocal hR (hbehind.alike hp) hword, hne⟩

/-- A pass removes its own words, and brings in no others, if they are not pieced together and none
    starts at a substitute. `old` is what the text is known not to have. -/
theorem nowhere_changes (old : Option Char → Text → Prop) (hsame : ∀ c, R (some c) (some c))
    (hp : p.KeepsHeads) (hlocal : q.Local R) (hspares : p.Spares q)
    (hq : ∀ b s, q.Changes b s → p.Matches b s ∨ old b s)
    (hfound : ∀ {b b' w last rest sub t}, R b b' → p b (w ++ [last]) rest.head? sub →
      ¬old b (w ++ last :: rest) → (∀ b'', R (some last) b'' → Nowhere q.Changes b'' t) →
        Nowhere q.Changes b' (sub ++ t))
    (h : Rewrites p b s t) (hold : Nowhere old b s) (hR : R b b') : Nowhere q.Changes b' t := by
  refine h.nowhere old _ R hsame ?_ hfound hold hR
  intro b b' c s t hR hdeclined hnone hrest hchanges
  exact (hq b _ (hrest.changes_of_copied hp hlocal hspares hR hchanges)).elim hdeclined hnone

end Survival

end Rewrites

end Scribe.Repair
