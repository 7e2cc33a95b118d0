import Scribe.Text.Path

set_option autoImplicit false

/-! # Files in folders

A file in a folder has the name that it was given there, whatever the folder is called. -/

namespace Scribe

namespace Text

variable {p : Char → Bool} {s : Text}

theorem splitAll_of_forall (h : ∀ c ∈ s, p c = false) : splitAll p s = [s] := by
  induction s with
  | nil => rfl
  | cons c s ih =>
    have hrest := ih fun d hd => h d (List.mem_cons_of_mem _ hd)
    rw [splitAll, h c List.mem_cons_self, hrest]
    rfl

/-- The last piece is what follows the last separator. -/
theorem exists_splitAll_append {c : Char} (hc : p c = true) (h : ∀ d ∈ s, p d = false)
    (front : Text) : ∃ piece pieces, splitAll p (front ++ c :: s) = piece :: (pieces ++ [s]) := by
  induction front with
  | nil => exact ⟨[], [], by rw [List.nil_append, splitAll, hc, splitAll_of_forall h]; rfl⟩
  | cons d front ih =>
    obtain ⟨piece, pieces, hsplit⟩ := ih
    rw [List.cons_append, splitAll, hsplit]
    cases p d with
    | true => exact ⟨[], piece :: pieces, rfl⟩
    | false => exact ⟨d :: piece, pieces, rfl⟩

end Text

namespace Path

/-- A text that can name a file in a folder. -/
structure IsFileName (file : Text) : Prop where
  slash_not_mem : '/' ∉ file
  ne_nil : file ≠ []
  ne_dot : file ≠ ['.']
  ne_dots : file ≠ ['.', '.']

theorem fileName_join {file : Text} (h : IsFileName file) (folder : Text) :
    fileName (join folder file) = file := by
  have hseparates : ∀ c ∈ file, (c == '/') = false := by
    intro c hc
    by_cases heq : c = '/'
    · exact absurd (heq ▸ hc) h.slash_not_mem
    · simpa using heq
  have hcounts : (file != [] && file != ['.']) = true := by simp [h.ne_nil, h.ne_dot]
  -- A path whose last piece is the file names it, whatever stands in front.
  have hlast {path : Text} (pieces : List Text)
      (hpath : Text.splitAll (· == '/') path = pieces ++ [file]) : fileName path = file := by
    have hfilter : ((pieces ++ [file]).filter fun p => p != [] && p != ['.']).getLast? =
        some file := by
      have hkept : [file].filter (fun p => p != [] && p != ['.']) = [file] := by
        simp only [List.filter_cons, hcounts, List.filter_nil, if_true]
      rw [List.filter_append, hkept]
      exact List.getLast?_concat ..
    rw [fileName, hpath, hfilter]
    exact if_neg h.ne_dots
  have hbehind (front : Text) : fileName (front ++ '/' :: file) = file := by
    obtain ⟨piece, pieces, hsplit⟩ :=
      Text.exists_splitAll_append (p := (· == '/')) (c := '/') rfl hseparates front
    exact hlast (piece :: pieces) hsplit
  unfold join
  split
  · next hfolder =>
    rw [Bool.or_eq_true] at hfolder
    rcases hfolder with hempty | hslash
    · rw [List.isEmpty_iff.1 hempty, List.nil_append]
      exact hlast [] (Text.splitAll_of_forall hseparates)
    · obtain ⟨front, rfl⟩ := List.getLast?_eq_some_iff.1 (beq_iff_eq.1 hslash)
      rw [List.append_assoc]
      exact hbehind front
  · exact hbehind folder

end Path

end Scribe
